import Mathlib.Data.List.Basic

set_option autoImplicit false

/-!
# Foundation: buffers that are written cell by cell

A block has as many cells as were allocated for it, and a cell that was never written
holds nothing.  A write behind the last cell and a read of a cell that holds nothing are
faults.  `Holds` says what stands in a block from its front; every operation has one
lemma on what it needs and what the block holds after it.
-/

namespace MiniSql.Foundation

variable {α : Type}

/-- The cells of an allocated block; a block without cells stands for a null pointer. -/
abbrev Block (α : Type) : Type := List (Option α)

/-- An access outside of what a block holds. -/
inductive Fault where
  | write (position capacity : Nat)
  | read (position : Nat)
  deriving DecidableEq, Repr

namespace Block

def allocate (capacity : Nat) : Block α := List.replicate capacity none

/-- The cells that fit are kept, new ones hold nothing. -/
def reallocate (capacity : Nat) (block : Block α) : Block α :=
  block.take capacity ++ allocate (capacity - block.length)

/-- A write to one cell. -/
def write (block : Block α) (position : Nat) (x : α) : Except Fault (Block α) :=
  if position < block.length then .ok (block.set position (some x))
  else .error (.write position block.length)

/-- Writes to cells one behind the other. -/
def writeAll (block : Block α) (position : Nat) : List α → Except Fault (Block α)
  | [] => .ok block
  | x :: xs => do
      let block ← block.write position x
      block.writeAll (position + 1) xs

/-- The content from a position on, up to its end mark. -/
def readFrom (isEnd : α → Bool) (position : Nat) : Block α → Except Fault (List α)
  | [] => .error (.read position)
  | none :: _ => .error (.read position)
  | some x :: rest =>
      if isEnd x then .ok []
      else do
        let xs ← readFrom isEnd (position + 1) rest
        pure (x :: xs)

/-- The content up to its end mark. -/
def read (isEnd : α → Bool) (block : Block α) : Except Fault (List α) := readFrom isEnd 0 block

/-- The block begins with these. -/
def Holds (block : Block α) (xs : List α) : Prop := xs.map some <+: block

variable {block : Block α} {xs : List α}

@[simp] theorem length_allocate (capacity : Nat) :
    (allocate capacity : Block α).length = capacity := by
  simp [allocate]

theorem holds_nil (block : Block α) : block.Holds [] := List.nil_prefix

/-- A block that does not shrink keeps what it holds. -/
theorem Holds.reallocate (h : block.Holds xs) {capacity : Nat} (hle : block.length ≤ capacity) :
    (reallocate capacity block).Holds xs ∧ (reallocate capacity block).length = capacity := by
  have heq : Block.reallocate capacity block = block ++ allocate (capacity - block.length) := by
    rw [Block.reallocate, List.take_of_length_le hle]
  rw [heq]
  refine ⟨h.trans (List.prefix_append _ _), ?_⟩
  rw [List.length_append, length_allocate]
  omega

/-- A write behind what the block holds. -/
theorem Holds.write (h : block.Holds xs) (hroom : xs.length < block.length) (x : α) :
    ∃ block', block.write xs.length x = .ok block' ∧ block'.Holds (xs ++ [x]) ∧
      block'.length = block.length := by
  refine ⟨block.set xs.length (some x), if_pos hroom, ?_, by simp⟩
  obtain ⟨rest, rfl⟩ := h
  cases rest with
  | nil => simp at hroom
  | cons cell rest =>
      refine ⟨rest, ?_⟩
      rw [List.set_append_right _ _ (by simp)]
      simp

theorem Holds.writeAll (h : block.Holds xs) (ys : List α)
    (hroom : xs.length + ys.length ≤ block.length) :
    ∃ block', block.writeAll xs.length ys = .ok block' ∧ block'.Holds (xs ++ ys) ∧
      block'.length = block.length := by
  induction ys generalizing block xs with
  | nil => exact ⟨block, rfl, by simpa using h, rfl⟩
  | cons y ys ih =>
      rw [List.length_cons] at hroom
      obtain ⟨block', hwrite, hholds, hlength⟩ := h.write (by omega) y
      obtain ⟨block'', hrest, hholds', hlength'⟩ := ih hholds (by simp; omega)
      refine ⟨block'', ?_, by simpa using hholds', hlength'.trans hlength⟩
      rw [List.length_append, List.length_singleton] at hrest
      unfold Block.writeAll
      rw [hwrite]
      exact hrest

/-- What is read is what was written up to the first end mark. -/
theorem Holds.read {isEnd : α → Bool} {e : α} (h : block.Holds (xs ++ [e]))
    (he : isEnd e = true) : block.read isEnd = .ok (xs.takeWhile fun x => !isEnd x) := by
  have hfrom : ∀ (position : Nat) (xs : List α) (rest : Block α),
      readFrom isEnd position ((xs ++ [e]).map some ++ rest) =
        .ok (xs.takeWhile fun x => !isEnd x) := by
    intro position xs
    induction xs generalizing position with
    | nil =>
        intro rest
        simp [readFrom, he]
    | cons x xs ih =>
        intro rest
        rw [List.cons_append, List.map_cons, List.cons_append, readFrom, ih]
        cases hx : isEnd x with
        | true => simp [hx]
        | false => simp [hx]
  obtain ⟨rest, rfl⟩ := h
  exact hfrom 0 xs rest

end Block

/-! ## A buffer with its length and its capacity -/

/-- A block, the number of its cells that are in use and the number it is said to have. -/
structure Growing (α : Type) where
  block : Block α
  length : Nat
  capacity : Nat

namespace Growing

/-- A null pointer with nothing in it. -/
def empty : Growing α := ⟨[], 0, 0⟩

/-- A new block with nothing in it. -/
def allocate (capacity : Nat) : Growing α := ⟨Block.allocate capacity, 0, capacity⟩

/-- The buffer with its block reallocated. -/
def grow (buffer : Growing α) (capacity : Nat) : Growing α :=
  ⟨buffer.block.reallocate capacity, buffer.length, capacity⟩

/-- A larger block, where not more than `extra` cells are left unused. -/
def reserve (buffer : Growing α) (extra capacity : Nat) : Growing α :=
  if buffer.length + extra ≥ buffer.capacity then buffer.grow capacity else buffer

/-- One more cell in use. -/
def push (buffer : Growing α) (x : α) : Except Fault (Growing α) := do
  let block ← buffer.block.write buffer.length x
  pure ⟨block, buffer.length + 1, buffer.capacity⟩

def pushAll (buffer : Growing α) : List α → Except Fault (Growing α)
  | [] => .ok buffer
  | x :: xs => do
      let buffer ← buffer.push x
      buffer.pushAll xs

/-- The block with an end mark behind the cells in use. -/
def terminate (buffer : Growing α) (e : α) : Except Fault (Block α) :=
  buffer.block.write buffer.length e

/-- The same, where a null pointer is given a block of one cell first. -/
def close (buffer : Growing α) (e : α) : Except Fault (Block α) :=
  let block := if buffer.block = [] then Block.allocate 1 else buffer.block
  block.write buffer.length e

/-- The cells in use hold these, and the capacity is that of the block. -/
structure Holds (buffer : Growing α) (xs : List α) : Prop where
  length : buffer.length = xs.length
  capacity : buffer.capacity = buffer.block.length
  block : buffer.block.Holds xs

variable {buffer : Growing α} {xs : List α}

theorem holds_empty : (empty : Growing α).Holds [] := ⟨rfl, rfl, Block.holds_nil _⟩

theorem holds_allocate (capacity : Nat) : (allocate capacity : Growing α).Holds [] :=
  ⟨rfl, (Block.length_allocate capacity).symm, Block.holds_nil _⟩

/-- A block that is given as many cells as it needs. -/
theorem Holds.reserve (h : buffer.Holds xs) {extra capacity : Nat}
    (hcapacity : xs.length + extra ≥ buffer.capacity →
      xs.length + extra < capacity ∧ buffer.capacity ≤ capacity) :
    (buffer.reserve extra capacity).Holds xs ∧
      xs.length + extra < (buffer.reserve extra capacity).capacity := by
  unfold Growing.reserve
  rw [h.length]
  split
  · rename_i hfull
    obtain ⟨hlt, hle⟩ := hcapacity hfull
    rw [h.capacity] at hle
    obtain ⟨hholds, hlength⟩ := h.block.reallocate hle
    exact ⟨⟨h.length, hlength.symm, hholds⟩, hlt⟩
  · rename_i hfull
    exact ⟨h, by omega⟩

theorem Holds.push (h : buffer.Holds xs) (hroom : xs.length < buffer.capacity) (x : α) :
    ∃ buffer', buffer.push x = .ok buffer' ∧ buffer'.Holds (xs ++ [x]) ∧
      buffer'.capacity = buffer.capacity := by
  rw [h.capacity] at hroom
  obtain ⟨block, hwrite, hholds, hlength⟩ := h.block.write hroom x
  refine ⟨⟨block, buffer.length + 1, buffer.capacity⟩, ?_, ⟨?_, ?_, hholds⟩, rfl⟩
  · unfold Growing.push
    rw [h.length, hwrite]
    rfl
  · simp [h.length]
  · rw [hlength]
    exact h.capacity

theorem Holds.pushAll (h : buffer.Holds xs) (ys : List α)
    (hroom : xs.length + ys.length ≤ buffer.capacity) :
    ∃ buffer', buffer.pushAll ys = .ok buffer' ∧ buffer'.Holds (xs ++ ys) ∧
      buffer'.capacity = buffer.capacity := by
  induction ys generalizing buffer xs with
  | nil => exact ⟨buffer, rfl, by simpa using h, rfl⟩
  | cons y ys ih =>
      rw [List.length_cons] at hroom
      obtain ⟨buffer', hpush, hholds, hcapacity⟩ := h.push (by omega) y
      obtain ⟨buffer'', hrest, hholds', hcapacity'⟩ := ih hholds (by simp; omega)
      refine ⟨buffer'', ?_, by simpa using hholds', hcapacity'.trans hcapacity⟩
      unfold Growing.pushAll
      rw [hpush]
      exact hrest

theorem Holds.terminate (h : buffer.Holds xs) (hroom : xs.length < buffer.capacity) (e : α) :
    ∃ block, buffer.terminate e = .ok block ∧ block.Holds (xs ++ [e]) := by
  rw [h.capacity] at hroom
  obtain ⟨block, hwrite, hholds, -⟩ := h.block.write hroom e
  refine ⟨block, ?_, hholds⟩
  unfold Growing.terminate
  rw [h.length, hwrite]

/-- Only a null pointer has no room for an end mark. -/
theorem Holds.close (h : buffer.Holds xs)
    (hroom : buffer.capacity ≠ 0 → xs.length < buffer.capacity) (e : α) :
    ∃ block, buffer.close e = .ok block ∧ block.Holds (xs ++ [e]) := by
  rw [h.capacity] at hroom
  unfold Growing.close
  rw [h.length]
  split
  · rename_i hnull
    have hxs : xs = [] := by
      have hprefix := h.block
      rw [hnull] at hprefix
      simpa using List.prefix_nil.mp hprefix
    subst hxs
    exact ⟨_, rfl, List.prefix_rfl⟩
  · rename_i hblock
    obtain ⟨block, hwrite, hholds, -⟩ :=
      h.block.write (hroom (by simpa using hblock)) e
    exact ⟨block, hwrite, hholds⟩

end Growing

end MiniSql.Foundation
