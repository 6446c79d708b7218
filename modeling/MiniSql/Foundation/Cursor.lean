import Mathlib.Data.List.Basic
import Mathlib.Data.List.TakeWhile

set_option autoImplicit false

/-!
# Foundation: reading cells through an index

A program reads an array through an index, a proof follows the cells that are still to be
read.  `Ahead` connects the two: these cells stand in the array from the index on, and
there is at least one.  A read behind the last cell is a fault, and every successful read
bounds its index, so loops that move their index on end by themselves.
-/

namespace MiniSql.Foundation

variable {α ε : Type}

/-- One cell; behind the last one is a fault. -/
def readAt (fault : Nat → ε) (cells : List α) (index : Nat) : Except ε α :=
  match cells[index]? with
  | some x => .ok x
  | none => .error (fault index)

theorem readAt_lt {fault : Nat → ε} {cells : List α} {index : Nat} {x : α}
    (h : readAt fault cells index = .ok x) : index < cells.length := by
  unfold readAt at h
  split at h
  · rename_i hcell
    exact (List.getElem?_eq_some_iff.mp hcell).1
  · simp at h

/-- The index moves over the cells of a class; `count` moves with it. -/
def skipWhile (fault : Nat → ε) (p : α → Bool) (cells : List α) (index count : Nat) :
    Except ε (Nat × Nat) :=
  match _hread : readAt fault cells index with
  | .error e => .error e
  | .ok x =>
      if p x then skipWhile fault p cells (index + 1) (count + 1) else .ok (index, count)
  termination_by cells.length - index
  decreasing_by
    have := readAt_lt _hread
    omega

/-- The cells between two positions, all of them read. -/
def slice (fault : Nat → ε) (cells : List α) (start stop : Nat) : Except ε (List α) :=
  if stop ≤ cells.length then .ok ((cells.drop start).take (stop - start))
  else .error (fault (stop - 1))

theorem skipWhile_eq {fault : Nat → ε} {p : α → Bool} {cells : List α} {index : Nat} {x : α}
    (h : readAt fault cells index = .ok x) (count : Nat) :
    skipWhile fault p cells index count =
      if p x then skipWhile fault p cells (index + 1) (count + 1) else .ok (index, count) := by
  rw [skipWhile.eq_def]
  split
  · rename_i hread
    rw [h] at hread
    cases hread
  · rename_i y hread
    rw [h] at hread
    cases hread
    rfl

theorem skipWhile_le {fault : Nat → ε} {p : α → Bool} {cells : List α}
    {index count index' count' : Nat}
    (h : skipWhile fault p cells index count = .ok (index', count')) : index ≤ index' := by
  fun_induction skipWhile fault p cells index count with
  | case1 => simp at h
  | case2 index count x _ _ ih => exact Nat.le_of_succ_le (ih h)
  | case3 =>
      obtain ⟨rfl, -⟩ := Prod.mk.inj (Except.ok.inj h)
      exact Nat.le_refl _

/-! ## What stands ahead -/

/-- From the index on these cells are left, and they are not all read. -/
structure Ahead (cells : List α) (index : Nat) (rest : List α) : Prop where
  drop : cells.drop index = rest
  ne_nil : rest ≠ []

section Ahead

variable {fault : Nat → ε} {cells rest body : List α} {index : Nat} {x : α}

theorem Ahead.start (h : cells ≠ []) : Ahead cells 0 cells := ⟨rfl, h⟩

theorem Ahead.lt (h : Ahead cells index rest) : index < cells.length := by
  have hlength := List.length_pos_of_ne_nil h.ne_nil
  rw [← h.drop, List.length_drop] at hlength
  omega

/-- Cells that are passed, one of the others left. -/
theorem Ahead.skip (h : Ahead cells index (body ++ rest)) (hrest : rest ≠ []) :
    Ahead cells (index + body.length) rest := by
  refine ⟨?_, hrest⟩
  rw [← List.drop_drop, h.drop, List.drop_left]

theorem Ahead.next (h : Ahead cells index (x :: rest)) (hrest : rest ≠ []) :
    Ahead cells (index + 1) rest := by
  have hcells : Ahead cells index ([x] ++ rest) := h
  exact hcells.skip hrest

theorem Ahead.read (h : Ahead cells index (x :: rest)) :
    readAt fault cells index = .ok x := by
  have hcell : cells[index]? = some x := by
    rw [← List.head?_drop, h.drop, List.head?_cons]
  unfold readAt
  rw [hcell]

/-- A cell outside of the class stops the index at the latest. -/
theorem Ahead.skipWhile {p : α → Bool} (h : Ahead cells index rest)
    (hstop : ∃ x ∈ rest, p x = false) (count : Nat) :
    skipWhile fault p cells index count =
        .ok (index + (rest.takeWhile p).length, count + (rest.takeWhile p).length) ∧
      Ahead cells (index + (rest.takeWhile p).length) (rest.dropWhile p) := by
  induction rest generalizing index count with
  | nil => exact absurd rfl h.ne_nil
  | cons x rest ih =>
      have hread : readAt fault cells index = .ok x := h.read
      cases hx : p x with
      | false =>
          rw [List.takeWhile_cons_of_neg (by simp [hx]), List.dropWhile_cons_of_neg (by simp [hx])]
          refine ⟨?_, h⟩
          rw [skipWhile_eq hread, if_neg (by simp [hx])]
          rfl
      | true =>
          have hstop' : ∃ y ∈ rest, p y = false := by
            obtain ⟨y, hmem, hy⟩ := hstop
            rcases List.mem_cons.mp hmem with rfl | hmem
            · rw [hx] at hy
              cases hy
            · exact ⟨y, hmem, hy⟩
          have hne : rest ≠ [] := by
            rintro rfl
            simp at hstop'
          obtain ⟨hskip, hahead⟩ := ih (h.next hne) hstop' (count + 1)
          rw [List.takeWhile_cons_of_pos hx, List.dropWhile_cons_of_pos hx, List.length_cons]
          rw [Nat.add_right_comm index, Nat.add_assoc index] at hahead
          refine ⟨?_, hahead⟩
          rw [skipWhile_eq hread, if_pos hx, hskip]
          simp only [Nat.add_assoc, Nat.add_comm 1]

theorem Ahead.slice (h : Ahead cells index (body ++ rest)) (hrest : rest ≠ []) :
    slice fault cells index (index + body.length) = .ok body := by
  have hlt := (h.skip hrest).lt
  unfold Foundation.slice
  rw [if_pos (Nat.le_of_lt hlt), h.drop, Nat.add_sub_cancel_left, List.take_left]

end Ahead

end MiniSql.Foundation
