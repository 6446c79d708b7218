import Mathlib.Data.List.Basic

set_option autoImplicit false

/-!
# Foundation: step parsers and the grammars they read

A step parser consumes a beginning of its input and hands the rest back.  A
grammar relates a list of tokens to the value it derives.  `Sound G p` says that
`p` invents nothing; `CompleteBefore F G p` says that it misses nothing as long
as what follows the derivation satisfies `F`, which is what a greedy parser
needs to know.  Both compose along `>>=`.
-/

namespace MiniSql.Foundation

variable {τ ε α β : Type}

/-- A parser over tokens `τ` that fails with an `ε`. -/
abbrev Step (τ ε α : Type) : Type := StateT (List τ) (Except ε) α

/-- The tokens of a value. -/
abbrev Grammar (τ α : Type) : Type := List τ → α → Prop

/-- `p` derives only what `G` derives. -/
def Sound (G : Grammar τ α) (p : Step τ ε α) : Prop :=
  ∀ ts x rest, p ts = .ok (x, rest) → ∃ b, ts = b ++ rest ∧ G b x

/-- `p` derives everything `G` derives and stops behind it, before any rest that
satisfies `F`. -/
def CompleteBefore (F : List τ → Prop) (G : Grammar τ α) (p : Step τ ε α) : Prop :=
  ∀ b x rest, G b x → F rest → p (b ++ rest) = .ok (x, rest)

/-- One derivation after the other, the second chosen by the first's value. -/
def Seq (G : Grammar τ α) (H : α → Grammar τ β) : Grammar τ β :=
  fun b y => ∃ b₁ b₂ x, b = b₁ ++ b₂ ∧ G b₁ x ∧ H x b₂ y

/-- The empty derivation of one value. -/
def Empty (x : α) : Grammar τ α := fun b y => b = [] ∧ y = x

theorem Seq.intro {G : Grammar τ α} {H : α → Grammar τ β} {b₁ b₂ : List τ} {x : α} {y : β}
    (hG : G b₁ x) (hH : H x b₂ y) : Seq G H (b₁ ++ b₂) y := ⟨b₁, b₂, x, rfl, hG, hH⟩

theorem Empty.intro (x : α) : Empty x ([] : List τ) x := ⟨rfl, rfl⟩

/-- A derivation whose value is put to use and nothing behind it. -/
theorem seq_empty_iff {G : Grammar τ α} {f : α → β} {b : List τ} {y : β} :
    Seq G (fun x => Empty (f x)) b y ↔ ∃ x, G b x ∧ y = f x := by
  constructor
  · intro h
    obtain ⟨b₁, b₂, x, rfl, hG, rfl, rfl⟩ := h
    rw [List.append_nil]
    exact ⟨x, hG, rfl⟩
  · intro h
    obtain ⟨x, hG, rfl⟩ := h
    exact ⟨b, [], x, (List.append_nil b).symm, hG, .intro _⟩

/-- A successful sequence is a success of each part. -/
theorem bind_eq_ok_iff {p : Step τ ε α} {k : α → Step τ ε β} {ts rest : List τ} {y : β} :
    (p >>= k) ts = .ok (y, rest) ↔
      ∃ x mid, p ts = .ok (x, mid) ∧ k x mid = .ok (y, rest) := by
  constructor
  · intro h
    cases hp : p ts with
    | error e =>
        simp [bind, StateT.bind, Except.bind, hp] at h
    | ok xm =>
        obtain ⟨x, mid⟩ := xm
        refine ⟨x, mid, rfl, ?_⟩
        simpa [bind, StateT.bind, Except.bind, hp] using h
  · intro h
    obtain ⟨x, mid, hp, hk⟩ := h
    simp [bind, StateT.bind, Except.bind, hp, hk]

/-- A sequence fails in one of its parts. -/
theorem bind_eq_error_iff {p : Step τ ε α} {k : α → Step τ ε β} {ts : List τ} {e : ε} :
    (p >>= k) ts = .error e ↔
      p ts = .error e ∨ ∃ x mid, p ts = .ok (x, mid) ∧ k x mid = .error e := by
  cases hp : p ts with
  | error e' => simp [bind, StateT.bind, Except.bind, hp]
  | ok xm =>
      obtain ⟨x, mid⟩ := xm
      simp [bind, StateT.bind, Except.bind, hp]

theorem Sound.pure (x : α) : Sound (Empty x) (pure x : Step τ ε α) := by
  intro ts y rest h
  have hpair : (Except.ok (x, ts) : Except ε (α × List τ)) = .ok (y, rest) := h
  obtain ⟨rfl, rfl⟩ := Prod.mk.inj (Except.ok.inj hpair)
  exact ⟨[], rfl, rfl, rfl⟩

theorem CompleteBefore.pure (x : α) :
    CompleteBefore (fun _ => True) (Empty x) (pure x : Step τ ε α) := by
  intro b y rest h _
  obtain ⟨rfl, rfl⟩ := h
  rfl

theorem Sound.bind {G : Grammar τ α} {H : α → Grammar τ β} {p : Step τ ε α}
    {k : α → Step τ ε β} (hp : Sound G p) (hk : ∀ x, Sound (H x) (k x)) :
    Sound (Seq G H) (p >>= k) := by
  intro ts y rest h
  obtain ⟨x, mid, hx, hy⟩ := bind_eq_ok_iff.mp h
  obtain ⟨b₁, hts, hG⟩ := hp ts x mid hx
  obtain ⟨b₂, hmid, hH⟩ := hk x mid y rest hy
  exact ⟨b₁ ++ b₂, by rw [hts, hmid, List.append_assoc], b₁, b₂, x, rfl, hG, hH⟩

/-- The first part must be complete before whatever the second part and the rest
begin with. -/
theorem CompleteBefore.bind {F F₁ : List τ → Prop} {G : Grammar τ α} {H : α → Grammar τ β}
    {p : Step τ ε α} {k : α → Step τ ε β} (hp : CompleteBefore F₁ G p)
    (hk : ∀ x, CompleteBefore F (H x) (k x))
    (hfollow : ∀ x b y rest, H x b y → F rest → F₁ (b ++ rest)) :
    CompleteBefore F (Seq G H) (p >>= k) := by
  intro b y rest hseq hF
  obtain ⟨b₁, b₂, x, rfl, hG, hH⟩ := hseq
  rw [List.append_assoc]
  exact bind_eq_ok_iff.mpr ⟨x, b₂ ++ rest,
    hp b₁ x (b₂ ++ rest) hG (hfollow x b₂ y rest hH hF), hk x b₂ y rest hH hF⟩

theorem Sound.mono {G G' : Grammar τ α} {p : Step τ ε α} (hp : Sound G p)
    (h : ∀ b x, G b x → G' b x) : Sound G' p := by
  intro ts x rest hx
  obtain ⟨b, hts, hG⟩ := hp ts x rest hx
  exact ⟨b, hts, h b x hG⟩

theorem CompleteBefore.mono {F F' : List τ → Prop} {G G' : Grammar τ α} {p : Step τ ε α}
    (hp : CompleteBefore F G p) (hG : ∀ b x, G' b x → G b x)
    (hF : ∀ rest, F' rest → F rest) : CompleteBefore F' G' p :=
  fun b x rest hb hrest => hp b x rest (hG b x hb) (hF rest hrest)

/-- A part that is complete before anything. -/
theorem CompleteBefore.weaken {F : List τ → Prop} {G : Grammar τ α} {p : Step τ ε α}
    (hp : CompleteBefore (fun _ => True) G p) : CompleteBefore F G p :=
  hp.mono (fun _ _ h => h) fun _ _ => trivial

theorem CompleteBefore.andThen {F : List τ → Prop} {G : Grammar τ α} {H : α → Grammar τ β}
    {p : Step τ ε α} {k : α → Step τ ε β} (hp : CompleteBefore (fun _ => True) G p)
    (hk : ∀ x, CompleteBefore F (H x) (k x)) : CompleteBefore F (Seq G H) (p >>= k) :=
  hp.bind hk fun _ _ _ _ _ _ => trivial

/-- A part whose value is put to use and nothing behind it. -/
theorem CompleteBefore.returning {F : List τ → Prop} {G : Grammar τ α} {p : Step τ ε α}
    (hp : CompleteBefore F G p) (f : α → β) :
    CompleteBefore F (Seq G fun x => Empty (f x)) (p >>= fun x => Pure.pure (f x)) := by
  refine hp.bind (fun x => (CompleteBefore.pure (f x)).weaken) ?_
  intro x b y rest h hrest
  obtain ⟨rfl, -⟩ := h
  exact hrest

/-! ## Separated lists -/

/-- `item {sep item}`. -/
inductive SepBy1 (item : τ → α → Prop) (sep : τ → Prop) : List τ → List α → Prop
  | one {t : τ} {x : α} (hitem : item t x) : SepBy1 item sep [t] [x]
  | more {t s : τ} {x : α} {ts : List τ} {xs : List α} (hitem : item t x) (hsep : sep s)
      (hrest : SepBy1 item sep ts xs) : SepBy1 item sep (t :: s :: ts) (x :: xs)

/-- Every value of a separated list comes from a token in it. -/
theorem SepBy1.exists_token {item : τ → α → Prop} {sep : τ → Prop} {b : List τ}
    {xs : List α} (h : SepBy1 item sep b xs) : ∀ x ∈ xs, ∃ t ∈ b, item t x := by
  induction h with
  | @one t x hitem =>
      intro y hy
      rw [List.mem_singleton.mp hy]
      exact ⟨t, List.mem_cons_self, hitem⟩
  | @more t s x ts xs hitem _ _ ih =>
      intro y hy
      rcases List.mem_cons.mp hy with hy | hy
      · rw [hy]
        exact ⟨t, List.mem_cons_self, hitem⟩
      · obtain ⟨u, hu, huy⟩ := ih y hy
        exact ⟨u, List.mem_cons_of_mem _ (List.mem_cons_of_mem _ hu), huy⟩

/-- The tokens of a separated list are items and separators. -/
theorem SepBy1.forall_tokens {item : τ → α → Prop} {sep P : τ → Prop} {b : List τ}
    {xs : List α} (h : SepBy1 item sep b xs) (hitem : ∀ t x, item t x → P t)
    (hsep : ∀ t, sep t → P t) : ∀ t ∈ b, P t := by
  induction h with
  | one h₁ =>
      intro t ht
      rw [List.mem_singleton.mp ht]
      exact hitem _ _ h₁
  | more h₁ h₂ _ ih =>
      intro t ht
      rcases List.mem_cons.mp ht with ht | ht
      · rw [ht]
        exact hitem _ _ h₁
      · rcases List.mem_cons.mp ht with ht | ht
        · rw [ht]
          exact hsep _ h₂
        · exact ih t ht

/-- `do { read an item } while (a separator follows)`.  `fault` is given the
token an item was expected at, or nothing past the end of the tokens. -/
def sepBy1 (item : τ → Option α) (isSep : τ → Bool) (fault : Option τ → ε) :
    List τ → Except ε (List α × List τ)
  | [] => .error (fault none)
  | t :: rest =>
      match item t with
      | none => .error (fault (some t))
      | some x =>
          match rest with
          | [] => .ok ([x], [])
          | s :: rest' =>
              if isSep s then
                match sepBy1 item isSep fault rest' with
                | .error e => .error e
                | .ok (xs, rest'') => .ok (x :: xs, rest'')
              else .ok ([x], s :: rest')

variable {item : τ → Option α} {isSep : τ → Bool} {fault : Option τ → ε}

theorem sepBy1_sound :
    Sound (SepBy1 (fun t x => item t = some x) (fun s => isSep s = true))
      (sepBy1 item isSep fault) := by
  intro ts
  induction ts using sepBy1.induct item isSep fault with
  | case1 => intro xs rest h; simp [sepBy1] at h
  | case2 t rest hitem => intro xs rest' h; simp [sepBy1, hitem] at h
  | case3 t x hitem =>
      intro xs rest h
      obtain ⟨rfl, rfl⟩ : [x] = xs ∧ [] = rest := by simpa [sepBy1, hitem] using h
      exact ⟨[t], rfl, .one hitem⟩
  | case4 t x hitem s rest' hsep e he ih =>
      intro xs rest h
      simp [sepBy1, hitem, hsep, he] at h
  | case5 t x hitem s rest' hsep ys rest'' hys ih =>
      intro xs rest h
      obtain ⟨rfl, rfl⟩ : x :: ys = xs ∧ rest'' = rest := by
        simpa [sepBy1, hitem, hsep, hys] using h
      obtain ⟨b, hb, hlist⟩ := ih ys rest'' hys
      exact ⟨t :: s :: b, by rw [hb]; rfl, .more hitem hsep hlist⟩
  | case6 t x hitem s rest' hsep =>
      intro xs rest h
      obtain ⟨rfl, rfl⟩ : [x] = xs ∧ s :: rest' = rest := by
        simpa [sepBy1, hitem, hsep] using h
      exact ⟨[t], rfl, .one hitem⟩

/-- The loop is complete before anything but a separator. -/
theorem sepBy1_complete :
    CompleteBefore (fun rest => ∀ s ∈ rest.head?, isSep s = false)
      (SepBy1 (fun t x => item t = some x) (fun s => isSep s = true))
      (sepBy1 item isSep fault) := by
  intro b xs rest h hrest
  induction h with
  | @one t x hitem =>
      cases rest with
      | nil => simp [sepBy1, hitem]
      | cons s rest => simp [sepBy1, hitem, hrest s rfl]
  | @more t s x ts xs hitem hsep _ ih =>
      simp only [List.cons_append, sepBy1, hitem, hsep, if_true]
      rw [ih]

end MiniSql.Foundation
