import MiniSql.Foundation.Step

set_option autoImplicit false

/-!
# Foundation: parsers that look one token ahead

What such a parser answers depends on the tokens it reads and on the one behind
them.  When it fails there, the tokens it has read can still be completed to a
derivation, and those tokens together with the one behind them fail alike before
everything: the error is at the first token no derivation can go on with.
`report` relates that token, or the end of the tokens, to the error.
-/

namespace MiniSql.Foundation

variable {τ ε α β : Type}

structure OneAhead (report : Option τ → ε → Prop) (G : Grammar τ α) (p : Step τ ε α) :
    Prop where
  derives : ∃ b x, G b x
  ok : ∀ ts x rest, p ts = .ok (x, rest) → ∃ b, ts = b ++ rest ∧
    ∀ rest', rest'.head? = rest.head? → p (b ++ rest') = .ok (x, rest')
  error : ∀ ts e, p ts = .error e → ∃ b rest, ts = b ++ rest ∧ report rest.head? e ∧
    (∃ c x, G (b ++ c) x) ∧
      ∀ rest', rest'.head? = rest.head? → p (b ++ rest') = .error e

/-- Behind the same tokens two rests with one first token have one first token. -/
theorem head?_append_congr {rest rest' : List τ} (b : List τ) (h : rest'.head? = rest.head?) :
    (b ++ rest').head? = (b ++ rest).head? := by
  rw [List.head?_append, List.head?_append, h]

variable {report : Option τ → ε → Prop} {G : Grammar τ α} {p : Step τ ε α}

theorem OneAhead.pure (x : α) : OneAhead report (Empty x) (pure x : Step τ ε α) where
  derives := ⟨[], x, .intro x⟩
  ok := by
    intro ts y rest h
    have hpair : (Except.ok (x, ts) : Except ε (α × List τ)) = .ok (y, rest) := h
    obtain ⟨rfl, rfl⟩ := Prod.mk.inj (Except.ok.inj hpair)
    exact ⟨[], rfl, fun rest' _ => rfl⟩
  error := by
    intro ts e h
    exact nomatch (show (Except.ok (x, ts) : Except ε (α × List τ)) = .error e from h)

/-- A parser that fails at once, where something could have stood. -/
theorem OneAhead.fail (fault : Option τ → ε) (hfault : ∀ t, report t (fault t))
    (hG : ∃ b x, G b x) : OneAhead report G (fun ts => .error (fault ts.head?)) where
  derives := hG
  ok := by
    intro ts x rest h
    exact nomatch h
  error := by
    intro ts e h
    obtain rfl : fault ts.head? = e := Except.error.inj h
    refine ⟨[], ts, rfl, hfault _, hG, ?_⟩
    intro rest' hrest
    rw [List.nil_append, hrest]

/-- A larger grammar can complete what a smaller one can. -/
theorem OneAhead.mono {G' : Grammar τ α} (hp : OneAhead report G p)
    (h : ∀ b x, G b x → G' b x) : OneAhead report G' p where
  derives := by
    obtain ⟨b, x, hG⟩ := hp.derives
    exact ⟨b, x, h b x hG⟩
  ok := hp.ok
  error := by
    intro ts e he
    obtain ⟨b, rest, hts, hreport, ⟨c, x, hG⟩, hfails⟩ := hp.error ts e he
    exact ⟨b, rest, hts, hreport, ⟨c, x, h _ x hG⟩, hfails⟩

theorem OneAhead.bind {H : α → Grammar τ β} {k : α → Step τ ε β} (hs : Sound G p)
    (hp : OneAhead report G p) (hk : ∀ x, OneAhead report (H x) (k x)) :
    OneAhead report (Seq G H) (p >>= k) where
  derives := by
    obtain ⟨b, x, hG⟩ := hp.derives
    obtain ⟨c, y, hH⟩ := (hk x).derives
    exact ⟨b ++ c, y, .intro hG hH⟩
  ok := by
    intro ts y rest h
    obtain ⟨x, mid, hx, hy⟩ := bind_eq_ok_iff.mp h
    obtain ⟨b, rfl, hfirst⟩ := hp.ok ts x mid hx
    obtain ⟨c, rfl, hsecond⟩ := (hk x).ok mid y rest hy
    refine ⟨b ++ c, (List.append_assoc b c rest).symm, ?_⟩
    intro rest' hrest
    rw [List.append_assoc]
    exact bind_eq_ok_iff.mpr ⟨x, c ++ rest', hfirst _ (head?_append_congr c hrest),
      hsecond rest' hrest⟩
  error := by
    intro ts e h
    rcases bind_eq_error_iff.mp h with hfirst | ⟨x, mid, hx, hsecond⟩
    · obtain ⟨b, rest, hts, hreport, ⟨c, x, hG⟩, hfails⟩ := hp.error ts e hfirst
      -- the first part is completed, and anything the second derives put behind it
      obtain ⟨d, y, hH⟩ := (hk x).derives
      refine ⟨b, rest, hts, hreport, ⟨c ++ d, y, ?_⟩, ?_⟩
      · rw [← List.append_assoc]
        exact .intro hG hH
      · intro rest' hrest
        exact bind_eq_error_iff.mpr (.inl (hfails rest' hrest))
    · obtain ⟨b, rfl, hread⟩ := hp.ok ts x mid hx
      obtain ⟨b', heq, hG⟩ := hs _ x mid hx
      obtain rfl := List.append_cancel_right heq
      obtain ⟨c, rest, rfl, hreport, ⟨d, y, hH⟩, hfails⟩ := (hk x).error mid e hsecond
      refine ⟨b ++ c, rest, (List.append_assoc b c rest).symm, hreport, ⟨d, y, ?_⟩, ?_⟩
      · rw [List.append_assoc]
        exact .intro hG hH
      · intro rest' hrest
        rw [List.append_assoc]
        exact bind_eq_error_iff.mpr (.inr ⟨x, c ++ rest',
          hread _ (head?_append_congr c hrest), hfails rest' hrest⟩)

/-! ## Separated lists -/

variable {item : τ → Option α} {isSep : τ → Bool} {fault : Option τ → ε}

theorem sepBy1_reads (ts : List τ) :
    ∀ xs rest, sepBy1 item isSep fault ts = .ok (xs, rest) →
      ∃ b, ts = b ++ rest ∧ ∀ rest', rest'.head? = rest.head? →
        sepBy1 item isSep fault (b ++ rest') = .ok (xs, rest') := by
  induction ts using sepBy1.induct item isSep fault with
  | case1 => intro xs rest h; simp [sepBy1] at h
  | case2 t rest hitem => intro xs rest' h; simp [sepBy1, hitem] at h
  | case3 t x hitem =>
      intro xs rest h
      obtain ⟨rfl, rfl⟩ : [x] = xs ∧ [] = rest := by simpa [sepBy1, hitem] using h
      refine ⟨[t], rfl, ?_⟩
      intro rest' hrest
      obtain rfl := List.head?_eq_none_iff.mp hrest
      simp [sepBy1, hitem]
  | case4 t x hitem s rest' hsep e he ih =>
      intro xs rest h
      simp [sepBy1, hitem, hsep, he] at h
  | case5 t x hitem s rest' hsep ys rest'' hys ih =>
      intro xs rest h
      obtain ⟨rfl, rfl⟩ : x :: ys = xs ∧ rest'' = rest := by
        simpa [sepBy1, hitem, hsep, hys] using h
      obtain ⟨b, rfl, hread⟩ := ih ys rest'' hys
      refine ⟨t :: s :: b, rfl, ?_⟩
      intro rest' hrest
      simp [sepBy1, hitem, hsep, hread rest' hrest]
  | case6 t x hitem s rest' hsep =>
      intro xs rest h
      obtain ⟨rfl, rfl⟩ : [x] = xs ∧ s :: rest' = rest := by
        simpa [sepBy1, hitem, hsep] using h
      refine ⟨[t], rfl, ?_⟩
      intro rest hrest
      obtain ⟨ts, rfl⟩ : ∃ ts, rest = s :: ts := List.head?_eq_some_iff.mp hrest
      simp [sepBy1, hitem, hsep]

theorem sepBy1_fails (hfault : ∀ t, report t (fault t)) (hitem : ∃ t x, item t = some x)
    (ts : List τ) :
    ∀ e, sepBy1 item isSep fault ts = .error e →
      ∃ b rest, ts = b ++ rest ∧ report rest.head? e ∧
        (∃ c xs, SepBy1 (fun t x => item t = some x) (fun s => isSep s = true) (b ++ c) xs) ∧
        ∀ rest', rest'.head? = rest.head? →
          sepBy1 item isSep fault (b ++ rest') = .error e := by
  obtain ⟨t₀, x₀, hitem₀⟩ := hitem
  induction ts using sepBy1.induct item isSep fault with
  | case1 =>
      intro e h
      obtain rfl : fault none = e := by simpa [sepBy1] using h
      refine ⟨[], [], rfl, hfault none, ⟨[t₀], [x₀], .one hitem₀⟩, ?_⟩
      intro rest' hrest
      obtain rfl := List.head?_eq_none_iff.mp hrest
      rfl
  | case2 t rest hitem =>
      intro e h
      obtain rfl : fault (some t) = e := by simpa [sepBy1, hitem] using h
      refine ⟨[], t :: rest, rfl, hfault (some t), ⟨[t₀], [x₀], .one hitem₀⟩, ?_⟩
      intro rest' hrest
      obtain ⟨ts, rfl⟩ : ∃ ts, rest' = t :: ts := List.head?_eq_some_iff.mp hrest
      simp [sepBy1, hitem]
  | case3 t x hitem => intro e h; simp [sepBy1, hitem] at h
  | case4 t x hitem s rest' hsep e' he ih =>
      intro e h
      obtain rfl : e' = e := by simpa [sepBy1, hitem, hsep, he] using h
      obtain ⟨b, rest, rfl, hreport, ⟨c, xs, hlist⟩, hfails⟩ := ih e' he
      refine ⟨t :: s :: b, rest, rfl, hreport, ⟨c, x :: xs, .more hitem hsep hlist⟩, ?_⟩
      intro rest' hrest
      simp [sepBy1, hitem, hsep, hfails rest' hrest]
  | case5 t x hitem s rest' hsep ys rest'' hys ih =>
      intro e h
      simp [sepBy1, hitem, hsep, hys] at h
  | case6 t x hitem s rest' hsep => intro e h; simp [sepBy1, hitem, hsep] at h

/-- The loop gives up in front of an item only, and any item would have done. -/
theorem sepBy1_oneAhead (hfault : ∀ t, report t (fault t)) (hitem : ∃ t x, item t = some x) :
    OneAhead report (SepBy1 (fun t x => item t = some x) (fun s => isSep s = true))
      (sepBy1 item isSep fault) where
  derives := by
    obtain ⟨t, x, ht⟩ := hitem
    exact ⟨[t], [x], .one ht⟩
  ok := sepBy1_reads
  error := sepBy1_fails hfault hitem

end MiniSql.Foundation
