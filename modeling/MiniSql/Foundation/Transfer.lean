import MiniSql.Foundation.Step
import Mathlib.Data.List.Forall2

set_option autoImplicit false

/-!
# Foundation: one derivation carried over to another list of tokens

Two lists of tokens agree position by position, where what agreeing means may
depend on a mode that the tokens before the position have set.  `Transfer` says
that a derivation of the one list is matched by a derivation of the other with a
related value, and which mode it ends in.  It composes along the grammar.
-/

namespace MiniSql.Foundation

variable {τ ρ α β : Type}

/-- Lists that agree token by token, from mode `r` on. -/
inductive Agree (next : ρ → τ → ρ) (agree : ρ → τ → τ → Prop) :
    ρ → List τ → List τ → Prop
  | nil {r : ρ} : Agree next agree r [] []
  | cons {r : ρ} {t t' : τ} {ts ts' : List τ} (htoken : agree r t t')
      (hrest : Agree next agree (next r t) ts ts') : Agree next agree r (t :: ts) (t' :: ts')

variable {next : ρ → τ → ρ} {agree : ρ → τ → τ → Prop}

/-- What agrees with two lists in a row is two lists in a row. -/
theorem Agree.append_left {r : ρ} {b c ts : List τ} (h : Agree next agree r (b ++ c) ts) :
    ∃ b' c', ts = b' ++ c' ∧ Agree next agree r b b' ∧
      Agree next agree (b.foldl next r) c c' := by
  induction b generalizing r ts with
  | nil => exact ⟨[], ts, rfl, .nil, h⟩
  | cons t b ih =>
      cases h with
      | cons htoken hrest =>
          obtain ⟨b', c', rfl, hb, hc⟩ := ih hrest
          exact ⟨_ :: b', c', rfl, .cons htoken hb, hc⟩

variable (next agree)

/-- A derivation of `G` from mode `r` ends in mode `r'`, and every list that
agrees with it is derived by `G'` with a related value. -/
def Transfer (G G' : Grammar τ α) (r r' : ρ) (V : α → α → Prop) : Prop :=
  ∀ b x b', G b x → Agree next agree r b b' →
    b.foldl next r = r' ∧ ∃ x', G' b' x' ∧ V x x'

variable {next agree} {r r₁ r₂ : ρ} {V : α → α → Prop} {W : β → β → Prop}

theorem Transfer.empty {x x' : α} (h : V x x') :
    Transfer next agree (Empty x) (Empty x') r r V := by
  intro b y b' hb hagree
  obtain ⟨rfl, rfl⟩ := hb
  cases hagree
  exact ⟨rfl, x', ⟨rfl, rfl⟩, h⟩

theorem Transfer.seq {G G' : Grammar τ α} {H H' : α → Grammar τ β}
    (hG : Transfer next agree G G' r r₁ V)
    (hH : ∀ x x', V x x' → Transfer next agree (H x) (H' x') r₁ r₂ W) :
    Transfer next agree (Seq G H) (Seq G' H') r r₂ W := by
  intro b y ts hb hagree
  obtain ⟨b₁, b₂, x, rfl, hx, hy⟩ := hb
  obtain ⟨b₁', b₂', rfl, hagree₁, hagree₂⟩ := hagree.append_left
  obtain ⟨hr₁, x', hx', hV⟩ := hG b₁ x b₁' hx hagree₁
  rw [hr₁] at hagree₂
  obtain ⟨hr₂, y', hy', hW⟩ := hH x x' hV b₂ y b₂' hy hagree₂
  refine ⟨?_, y', ⟨b₁', b₂', x', rfl, hx', hy'⟩, hW⟩
  rw [List.foldl_append, hr₁, hr₂]

/-- One token. -/
theorem Transfer.token {item : τ → α → Prop}
    (h : ∀ t x t', item t x → agree r t t' →
      next r t = r₁ ∧ ∃ x', item t' x' ∧ V x x') :
    Transfer next agree (fun b x => ∃ t, b = [t] ∧ item t x)
      (fun b x => ∃ t, b = [t] ∧ item t x) r r₁ V := by
  intro b x b' hb hagree
  obtain ⟨t, rfl, ht⟩ := hb
  cases hagree with
  | @cons _ _ t' _ _ htoken hrest =>
      cases hrest
      obtain ⟨hnext, x', hx', hV⟩ := h t x t' ht htoken
      exact ⟨hnext, x', ⟨t', rfl, hx'⟩, hV⟩

/-- A separated list whose items and separators leave the mode alone. -/
theorem Transfer.sepBy1 {item : τ → α → Prop} {sep : τ → Prop}
    (hitem : ∀ t x t', item t x → agree r t t' →
      next r t = r ∧ ∃ x', item t' x' ∧ V x x')
    (hsep : ∀ t t', sep t → agree r t t' → next r t = r ∧ sep t') :
    Transfer next agree (SepBy1 item sep) (SepBy1 item sep) r r (List.Forall₂ V) := by
  intro b xs b' hb
  induction hb generalizing b' with
  | @one t x ht =>
      intro hagree
      cases hagree with
      | @cons _ _ t' _ _ htoken hrest =>
          cases hrest
          obtain ⟨hnext, x', hx', hV⟩ := hitem t x t' ht htoken
          exact ⟨hnext, [x'], .one hx', .cons hV .nil⟩
  | @more t s x ts xs ht hs _ ih =>
      intro hagree
      cases hagree with
      | @cons _ _ t' _ _ htoken hrest =>
          obtain ⟨hnext, x', hx', hV⟩ := hitem t x t' ht htoken
          rw [hnext] at hrest
          cases hrest with
          | @cons _ _ s' _ _ htoken' hrest' =>
              obtain ⟨hnext', hs'⟩ := hsep s s' hs htoken'
              rw [hnext'] at hrest'
              obtain ⟨hfold, xs', hxs', hVs⟩ := ih _ hrest'
              refine ⟨?_, x' :: xs', .more hx' hs' hxs', .cons hV hVs⟩
              rw [List.foldl_cons, List.foldl_cons, hnext, hnext', hfold]

theorem Transfer.mono {G G' H H' : Grammar τ α} (h : Transfer next agree G G' r r₁ V)
    (hG : ∀ b x, H b x → G b x) (hG' : ∀ b x, G' b x → H' b x) :
    Transfer next agree H H' r r₁ V := by
  intro b x b' hb hagree
  obtain ⟨hr, x', hx', hV⟩ := h b x b' (hG b x hb) hagree
  exact ⟨hr, x', hG' b' x' hx', hV⟩

/-! ## Parsers on related tokens -/

section Alike

variable {ε : Type} {R : τ → τ → Prop} {E : ε → ε → Prop}

/-- Two results of a parser: the same value with related rests, or related errors. -/
inductive AlikeResult (R : τ → τ → Prop) (E : ε → ε → Prop) :
    Except ε (α × List τ) → Except ε (α × List τ) → Prop
  | ok {x : α} {rest rest' : List τ} (hrest : List.Forall₂ R rest rest') :
      AlikeResult R E (.ok (x, rest)) (.ok (x, rest'))
  | error {e e' : ε} (herror : E e e') : AlikeResult R E (.error e) (.error e')

variable (R E)

/-- The parser does the same on related tokens. -/
def Alike (p : Step τ ε α) : Prop :=
  ∀ ts ts', List.Forall₂ R ts ts' → AlikeResult R E (p ts) (p ts')

variable {R E}

theorem Alike.pure (x : α) : Alike R E (pure x : Step τ ε α) := by
  intro ts ts' h
  exact .ok h

theorem Alike.bind {p : Step τ ε α} {k : α → Step τ ε β} (hp : Alike R E p)
    (hk : ∀ x, Alike R E (k x)) : Alike R E (p >>= k) := by
  intro ts ts' h
  have hfirst := hp ts ts' h
  simp only [Bind.bind, StateT.bind]
  generalize p ts = result at hfirst
  generalize p ts' = result' at hfirst
  cases hfirst with
  | ok hrest => exact hk _ _ _ hrest
  | error herror => exact .error herror

/-- A list with separators, where related tokens hold the same items and separators. -/
theorem Alike.sepBy1 {item : τ → Option α} {isSep : τ → Bool} {fault : Option τ → ε}
    (hitem : ∀ t t', R t t' → item t = item t') (hsep : ∀ t t', R t t' → isSep t = isSep t')
    (hfault : ∀ t t', Option.Rel R t t' → E (fault t) (fault t')) :
    Alike R E (sepBy1 item isSep fault) := by
  intro ts
  induction ts using sepBy1.induct item isSep fault with
  | case1 =>
      intro ts' h
      cases h
      exact .error (hfault none none .none)
  | case2 t rest hnone =>
      intro ts' h
      cases h with
      | cons ht hrest =>
          have hnone' := (hitem _ _ ht).symm.trans hnone
          simp only [MiniSql.Foundation.sepBy1, hnone, hnone']
          exact .error (hfault _ _ (.some ht))
  | case3 t x hsome =>
      intro ts' h
      cases h with
      | cons ht hrest =>
          have hsome' := (hitem _ _ ht).symm.trans hsome
          cases hrest
          simp only [MiniSql.Foundation.sepBy1, hsome, hsome']
          exact .ok .nil
  | case4 t x hsome s rest hs e herror ih =>
      intro ts' h
      cases h with
      | cons ht hrest =>
          have hsome' := (hitem _ _ ht).symm.trans hsome
          cases hrest with
          | cons hs' hrest =>
              have halike := ih _ hrest
              have hsep' := (hsep _ _ hs').symm.trans hs
              simp only [MiniSql.Foundation.sepBy1, hsome, hsome', hs, hsep', if_true]
              rw [herror] at halike ⊢
              generalize MiniSql.Foundation.sepBy1 item isSep fault _ = result at halike ⊢
              cases halike with
              | error he => exact .error he
  | case5 t x hsome s rest hs ys rest' hys ih =>
      intro ts' h
      cases h with
      | cons ht hrest =>
          have hsome' := (hitem _ _ ht).symm.trans hsome
          cases hrest with
          | cons hs' hrest =>
              have halike := ih _ hrest
              have hsep' := (hsep _ _ hs').symm.trans hs
              simp only [MiniSql.Foundation.sepBy1, hsome, hsome', hs, hsep', if_true]
              rw [hys] at halike ⊢
              generalize MiniSql.Foundation.sepBy1 item isSep fault _ = result at halike ⊢
              cases halike with
              | ok hrest' => exact .ok hrest'
  | case6 t x hsome s rest hs =>
      intro ts' h
      cases h with
      | cons ht hrest =>
          have hsome' := (hitem _ _ ht).symm.trans hsome
          cases hrest with
          | cons hs' hrest =>
              have hsep' := (hsep _ _ hs').symm.trans (Bool.eq_false_iff.mpr hs)
              simp only [MiniSql.Foundation.sepBy1, hsome, hsome', hs, hsep']
              exact .ok (.cons hs' hrest)

end Alike

end MiniSql.Foundation
