import Mathlib.Data.List.Basic
import Mathlib.Data.List.Perm.Basic

set_option autoImplicit false

/-!
# Foundation: values placed at the positions of their keys

A list of pairs is laid over a list of slots: each value goes where its key is
found.  As long as no two keys have one position the order of the pairs does not
matter (`overlay_perm`), and the slots can be overwritten one pair at a time
(`overlay_cons`).
-/

namespace MiniSql.Foundation

variable {κ α : Type} (find : κ → Option Nat)

/-- The value placed at position `i`. -/
def placedAt (pairs : List (κ × α)) (i : Nat) : Option α :=
  (pairs.find? fun p => find p.1 == some i).map Prod.snd

/-- The slots with each value at the position of its key. -/
def overlay (slots : List α) (pairs : List (κ × α)) : List α :=
  slots.mapIdx fun i a => (placedAt find pairs i).getD a

/-- Every key has a position, and no two have the same. -/
def Placeable (pairs : List (κ × α)) : Prop :=
  (∀ p ∈ pairs, (find p.1).isSome = true) ∧
    pairs.Pairwise fun p q => find p.1 ≠ find q.1

instance (pairs : List (κ × α)) : Decidable (Placeable find pairs) :=
  inferInstanceAs (Decidable (_ ∧ _))

variable {find} {slots : List α} {pairs pairs' : List (κ × α)}

@[simp] theorem length_overlay : (overlay find slots pairs).length = slots.length := by
  simp [overlay]

theorem getElem?_overlay (i : Nat) :
    (overlay find slots pairs)[i]? =
      slots[i]?.map fun a => (placedAt find pairs i).getD a := by
  simp [overlay]

@[simp] theorem overlay_nil : overlay find slots [] = slots := by
  apply List.ext_getElem?
  intro i
  rw [getElem?_overlay]
  simp [placedAt]

theorem placedAt_cons_self {p : κ × α} {i : Nat} (h : find p.1 = some i) :
    placedAt find (p :: pairs) i = some p.2 := by
  simp [placedAt, h]

theorem placedAt_cons_of_ne {p : κ × α} {i : Nat} (h : find p.1 ≠ some i) :
    placedAt find (p :: pairs) i = placedAt find pairs i := by
  simp [placedAt, h]

theorem placedAt_eq_none {i : Nat} (h : ∀ p ∈ pairs, find p.1 ≠ some i) :
    placedAt find pairs i = none := by
  simp only [placedAt, Option.map_eq_none_iff, List.find?_eq_none]
  intro p hp
  simpa using h p hp

/-- Overwriting the slot of the first pair and laying the others over the result
is laying all of them over the slots. -/
theorem overlay_cons {p : κ × α} {i : Nat} (hp : find p.1 = some i)
    (hfresh : ∀ q ∈ pairs, find q.1 ≠ some i) :
    overlay find (slots.set i p.2) pairs = overlay find slots (p :: pairs) := by
  apply List.ext_getElem?
  intro j
  rw [getElem?_overlay, getElem?_overlay]
  by_cases hij : i = j
  · subst hij
    rw [placedAt_cons_self hp, placedAt_eq_none hfresh, List.getElem?_set_self']
    cases slots[i]? with
    | none => rfl
    | some a => rfl
  · have hne : find p.1 ≠ some j := by
      rw [hp]
      exact fun h => hij (Option.some.inj h)
    rw [placedAt_cons_of_ne hne, List.getElem?_set_ne hij]

/-- A placed value is that of the one key with this position. -/
theorem placedAt_eq_some_iff (h : pairs.Pairwise fun p q => find p.1 ≠ find q.1) {i : Nat}
    {a : α} : placedAt find pairs i = some a ↔ ∃ p ∈ pairs, find p.1 = some i ∧ p.2 = a := by
  induction pairs with
  | nil => simp [placedAt]
  | cons p rest ih =>
      obtain ⟨hp, hrest⟩ := List.pairwise_cons.mp h
      by_cases hi : find p.1 = some i
      · rw [placedAt_cons_self hi]
        constructor
        · intro hpa
          exact ⟨p, List.mem_cons_self, hi, Option.some.inj hpa⟩
        · intro hex
          obtain ⟨q, hq, hqi, hqa⟩ := hex
          rcases List.mem_cons.mp hq with hqp | hqrest
          · rw [← hqp, hqa]
          · exact absurd (hi.trans hqi.symm) (hp q hqrest)
      · rw [placedAt_cons_of_ne hi, ih hrest]
        constructor
        · intro hex
          obtain ⟨q, hq, hqi⟩ := hex
          exact ⟨q, List.mem_cons_of_mem p hq, hqi⟩
        · intro hex
          obtain ⟨q, hq, hqi, hqa⟩ := hex
          rcases List.mem_cons.mp hq with hqp | hqrest
          · rw [hqp] at hqi
            exact absurd hqi hi
          · exact ⟨q, hqrest, hqi, hqa⟩

/-- What the slots hold in the end was there before or is placed. -/
theorem mem_overlay {a : α} (h : a ∈ overlay find slots pairs) :
    a ∈ slots ∨ ∃ p ∈ pairs, p.2 = a := by
  obtain ⟨i, hi⟩ := List.mem_iff_getElem?.mp h
  rw [getElem?_overlay] at hi
  obtain ⟨b, hb, hba⟩ := Option.map_eq_some_iff.mp hi
  cases hplaced : placedAt find pairs i with
  | none =>
      rw [hplaced] at hba
      obtain rfl : b = a := hba
      exact .inl (List.mem_of_getElem? hb)
  | some c =>
      rw [hplaced] at hba
      obtain rfl : c = a := hba
      obtain ⟨p, hp, hpc⟩ := Option.map_eq_some_iff.mp hplaced
      exact .inr ⟨p, List.mem_of_find?_eq_some hp, hpc⟩

/-! ## Keys in the order of their positions -/

/-- Keys that stand at their own positions. -/
theorem Placeable.zip {keys : List κ} (hkeys : ∀ i key, keys[i]? = some key → find key = some i)
    (values : List α) : Placeable find (keys.zip values) := by
  have hget : ∀ (i : Nat) p, (keys.zip values)[i]? = some p → find p.1 = some i := by
    intro i p hp
    exact hkeys i p.1 (List.getElem?_zip_eq_some.mp hp).1
  constructor
  · intro p hp
    obtain ⟨i, hi⟩ := List.mem_iff_getElem?.mp hp
    simp [hget i p hi]
  · rw [List.pairwise_iff_getElem]
    intro i j hi hj hlt heq
    have hi' := hget i _ (List.getElem?_eq_getElem hi)
    have hj' := hget j _ (List.getElem?_eq_getElem hj)
    rw [hi', hj'] at heq
    exact absurd (Option.some.inj heq) (Nat.ne_of_lt hlt)

/-- A value for each key, in the order of the positions, is laid down as it is. -/
theorem overlay_zip {keys : List κ} (hkeys : ∀ i key, keys[i]? = some key → find key = some i)
    {values : List α} (hvalues : values.length = keys.length) (hslots : slots.length = keys.length) :
    overlay find slots (keys.zip values) = values := by
  apply List.ext_getElem
  · rw [length_overlay, hslots, hvalues]
  · intro i hi hi'
    have hkey : i < keys.length := hvalues ▸ hi'
    have hplaced : placedAt find (keys.zip values) i = some values[i] := by
      rw [placedAt_eq_some_iff (Placeable.zip hkeys values).2]
      have hzip : (keys.zip values)[i]? = some (keys[i], values[i]) :=
        List.getElem?_zip_eq_some.mpr ⟨by simp [hkey], by simp [hi']⟩
      exact ⟨_, List.mem_of_getElem? hzip, hkeys i _ (List.getElem?_eq_getElem hkey), rfl⟩
    simp [overlay, hplaced]

/-! ## The order of the pairs -/

theorem Placeable.perm (h : Placeable find pairs) (hperm : pairs.Perm pairs') :
    Placeable find pairs' := by
  refine ⟨fun p hp => h.1 p (hperm.mem_iff.mpr hp), ?_⟩
  exact (hperm.pairwise_iff (fun hne => Ne.symm hne)).mp h.2

theorem overlay_perm (h : Placeable find pairs) (hperm : pairs.Perm pairs') :
    overlay find slots pairs = overlay find slots pairs' := by
  apply List.ext_getElem?
  intro i
  have hplaced : placedAt find pairs i = placedAt find pairs' i := by
    apply Option.ext
    intro a
    rw [placedAt_eq_some_iff h.2, placedAt_eq_some_iff (h.perm hperm).2]
    simp only [hperm.mem_iff]
  rw [getElem?_overlay, getElem?_overlay, hplaced]

end MiniSql.Foundation
