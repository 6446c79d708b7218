import Mathlib.Data.List.Basic

set_option autoImplicit false

/-!
# Foundation: relations with a heading

A list of rows under a list of column names.  Every row is as wide as the
heading, which each operation keeps.  Rows are kept in order and repeats count.
-/

namespace MiniSql.Foundation

variable {κ α : Type}

/-- Rows under a heading of the same width. -/
structure Relation (κ α : Type) where
  heading : List κ
  rows : List (List α)
  rectangular : ∀ row ∈ rows, row.length = heading.length

namespace Relation

/-- One more row at the end. -/
def insert (r : Relation κ α) (row : List α) (h : row.length = r.heading.length) :
    Relation κ α where
  heading := r.heading
  rows := r.rows ++ [row]
  rectangular := by
    intro row' hmem
    rcases List.mem_append.mp hmem with hmem | hmem
    · exact r.rectangular row' hmem
    · rw [List.mem_singleton.mp hmem]
      exact h

/-- Some more rows at the end. -/
def append (r : Relation κ α) (rows : List (List α))
    (h : ∀ row ∈ rows, row.length = r.heading.length) : Relation κ α where
  heading := r.heading
  rows := r.rows ++ rows
  rectangular := by
    intro row hmem
    rcases List.mem_append.mp hmem with hmem | hmem
    · exact r.rectangular row hmem
    · exact h row hmem

theorem append_nil (r : Relation κ α) : r.append [] (by simp) = r := by
  simp [append]

/-- One row and then the others. -/
theorem append_cons (r : Relation κ α) {row : List α} {rows : List (List α)}
    (h : ∀ row' ∈ row :: rows, row'.length = r.heading.length) :
    (r.insert row (h row List.mem_cons_self)).append rows
        (fun row' hrow' => h row' (List.mem_cons_of_mem row hrow')) =
      r.append (row :: rows) h := by
  simp [append, insert]

/-- The rows that satisfy a condition. -/
def restrict (r : Relation κ α) (p : List α → Bool) : Relation κ α where
  heading := r.heading
  rows := r.rows.filter p
  rectangular := fun row hmem => r.rectangular row (List.mem_filter.mp hmem).1

/-- The same heading, and more rows behind those there are. -/
structure GrowsInto (r r' : Relation κ α) : Prop where
  heading : r'.heading = r.heading
  rows : r.rows <+: r'.rows

section Growing

variable {r r' r'' : Relation κ α}

theorem GrowsInto.refl (r : Relation κ α) : r.GrowsInto r := ⟨rfl, List.prefix_rfl⟩

theorem GrowsInto.trans (h : r.GrowsInto r') (h' : r'.GrowsInto r'') : r.GrowsInto r'' :=
  ⟨h'.heading.trans h.heading, h.rows.trans h'.rows⟩

theorem growsInto_insert (r : Relation κ α) {row : List α}
    (h : row.length = r.heading.length) : r.GrowsInto (r.insert row h) :=
  ⟨rfl, List.prefix_append _ _⟩

theorem GrowsInto.restrict (h : r.GrowsInto r') (p : List α → Bool) :
    (r.restrict p).GrowsInto (r'.restrict p) :=
  ⟨h.heading, h.rows.filter p⟩

end Growing

variable [Inhabited κ] [Inhabited α]

/-- The entries of a list at some positions. -/
def pick {β : Type} [Inhabited β] (indexes : List Nat) (entries : List β) : List β :=
  indexes.map fun i => entries.getD i default

@[simp] theorem length_pick {β : Type} [Inhabited β] (indexes : List Nat)
    (entries : List β) : (pick indexes entries).length = indexes.length := by
  simp [pick]

/-- All the entries in order. -/
theorem pick_range {β : Type} [Inhabited β] {n : Nat} {entries : List β}
    (h : entries.length = n) : pick (List.range n) entries = entries := by
  apply List.ext_getElem
  · simp [h]
  · intro i hi hi'
    simp [pick, hi']

/-- Picking as many entries as there are changes nothing exactly when each
position picks an entry equal to its own. -/
theorem pick_eq_self_iff {β : Type} [Inhabited β] {indexes : List Nat} {entries : List β}
    (hlength : indexes.length = entries.length)
    (hbound : ∀ i ∈ indexes, i < entries.length) :
    pick indexes entries = entries ↔
      ∀ k i : Nat, indexes[k]? = some i → entries[k]? = entries[i]? := by
  have hentry : ∀ k i : Nat, indexes[k]? = some i → (pick indexes entries)[k]? = entries[i]? := by
    intro k i hi
    have hlt := hbound i (List.mem_of_getElem? hi)
    simp [pick, hi, hlt]
  constructor
  · intro h k i hi
    rw [← hentry k i hi, h]
  · intro h
    apply List.ext_getElem?
    intro k
    cases hi : indexes[k]? with
    | some i => rw [hentry k i hi, h k i hi]
    | none =>
        have hlt := List.getElem?_eq_none_iff.mp hi
        rw [List.getElem?_eq_none (by simpa using hlt), List.getElem?_eq_none (hlength ▸ hlt)]

/-- The columns at some positions, in this order. -/
def project (r : Relation κ α) (indexes : List Nat) : Relation κ α where
  heading := pick indexes r.heading
  rows := r.rows.map (pick indexes)
  rectangular := by
    intro row hmem
    obtain ⟨row', _, rfl⟩ := List.mem_map.mp hmem
    simp

theorem project_range (r : Relation κ α) :
    (r.project (List.range r.heading.length)).heading = r.heading ∧
      (r.project (List.range r.heading.length)).rows = r.rows := by
  refine ⟨pick_range rfl, ?_⟩
  refine (List.map_congr_left fun row hrow => ?_).trans (List.map_id _)
  exact pick_range (r.rectangular row hrow)

theorem GrowsInto.project {r r' : Relation κ α} (h : r.GrowsInto r') (indexes : List Nat) :
    (r.project indexes).GrowsInto (r'.project indexes) :=
  ⟨congrArg (pick indexes) h.heading, h.rows.map (pick indexes)⟩

end Relation

end MiniSql.Foundation
