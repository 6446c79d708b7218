import Mathlib.Data.List.Basic
import Mathlib.Data.List.TakeWhile

set_option autoImplicit false

/-!
# Foundation: runs of a class and longest matches

Two facts every hand-written scanner rests on.  The bytes of a class form a run
that `takeWhile` and `dropWhile` separate from the rest exactly, once the first
element behind the run is outside the class.  And a spelling is a longest match
in front of some input exactly when no nonempty piece of that input extends it
to another spelling.
-/

namespace MiniSql.Foundation

variable {α τ : Type}

/-! ## Runs -/

section Run

variable {p : α → Bool} {body rest : List α}

theorem takeWhile_run (hbody : ∀ b ∈ body, p b = true)
    (hrest : ∀ b ∈ rest.head?, p b = false) : (body ++ rest).takeWhile p = body := by
  rw [List.takeWhile_append_of_pos hbody]
  cases rest with
  | nil => simp
  | cons b rest => simp [hrest b rfl]

theorem dropWhile_run (hbody : ∀ b ∈ body, p b = true)
    (hrest : ∀ b ∈ rest.head?, p b = false) : (body ++ rest).dropWhile p = rest := by
  rw [List.dropWhile_append_of_pos hbody]
  cases rest with
  | nil => rfl
  | cons b rest => simp [hrest b rfl]

theorem head?_dropWhile_eq_false (p : α → Bool) (l : List α) :
    ∀ b ∈ (l.dropWhile p).head?, p b = false := by
  intro b hb
  have := List.head?_dropWhile_not p l
  rw [Option.mem_def.mp hb] at this
  simpa using this

theorem exists_cons_of_mem_head? {l : List α} {b : α} (h : b ∈ l.head?) :
    ∃ rest, l = b :: rest := by
  cases l with
  | nil => simp at h
  | cons c rest => exact ⟨rest, by simpa using h⟩

/-- What stands in front of the first separator is determined. -/
theorem append_separator_inj {sep : α} {s s' t t' : List α} (hs : sep ∉ s)
    (hs' : sep ∉ s') (h : s ++ sep :: t = s' ++ sep :: t') : s = s' ∧ t = t' := by
  induction s generalizing s' with
  | nil =>
      cases s' with
      | nil => exact ⟨rfl, (List.cons.inj h).2⟩
      | cons b s' =>
          obtain ⟨hb, -⟩ := List.cons.inj h
          exact absurd (hb ▸ List.mem_cons_self) hs'
  | cons a s ih =>
      cases s' with
      | nil =>
          obtain ⟨ha, -⟩ := List.cons.inj h
          exact absurd (ha ▸ List.mem_cons_self) hs
      | cons b s' =>
          obtain ⟨hab, hrest⟩ := List.cons.inj h
          obtain ⟨hss, htt⟩ := ih (fun hm => hs (List.mem_cons_of_mem a hm))
            (fun hm => hs' (List.mem_cons_of_mem b hm)) hrest
          exact ⟨by rw [hab, hss], htt⟩

end Run

/-! ## Longest matches -/

/-- No spelling of any token is a longer beginning of `w ++ rest` than `w`. -/
def LongestMatch (spells : τ → List α → Prop) (w rest : List α) : Prop :=
  ∀ t w' rest', spells t w' → w ++ rest = w' ++ rest' → w'.length ≤ w.length

/-- A match is longest exactly when nothing behind it extends it. -/
theorem longestMatch_iff {spells : τ → List α → Prop} {w rest : List α} :
    LongestMatch spells w rest ↔
      ∀ t b rest', b ≠ [] → rest = b ++ rest' → ¬ spells t (w ++ b) := by
  constructor
  · intro h t b rest' hne hrest hspell
    have hle := h t (w ++ b) rest' hspell (by rw [hrest, List.append_assoc])
    rw [List.length_append] at hle
    have hpos := List.length_pos_of_ne_nil hne
    omega
  · intro h t w' rest' hspell happend
    by_contra hlt
    rcases List.append_eq_append_iff.mp happend with ⟨b, hw', hrest⟩ | ⟨b, hw, _⟩
    · refine h t b rest' ?_ hrest (hw' ▸ hspell)
      intro hb
      rw [hw', hb, List.append_nil] at hlt
      omega
    · rw [hw, List.length_append] at hlt
      omega

end MiniSql.Foundation
