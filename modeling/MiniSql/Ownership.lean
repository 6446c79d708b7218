import MiniSql.Foundation.Heap
import MiniSql.Memory

set_option autoImplicit false

/-!
# Strings and lists on the heap

`sql_strdup`, `string_list_append` and `string_list_free` with the blocks they acquire and
give back.  A computation that copies a string uses what it reads where it calls these.
-/

namespace MiniSql

open Foundation

/-- A `char *` and the string it points to; NULL points to none. -/
structure HeapString where
  pointer : Pointer
  text : Bytes
  deriving DecidableEq, Repr

def HeapString.null : HeapString := ⟨none, []⟩

/-- The block of a string. -/
def HeapString.block (s : HeapString) : Multiset Resource := s.pointer.block

/-- The string where the pointer is not NULL. -/
def HeapString.content (s : HeapString) : Option Bytes := s.pointer.map fun _ => s.text

/-- The blocks of the strings of an array. -/
def stringBlocks : List HeapString → Multiset Resource
  | [] => 0
  | s :: strings => s.block + stringBlocks strings

/-- `StringList`. -/
structure HeapList where
  items : Pointer
  strings : List HeapString
  capacity : Nat

def HeapList.empty : HeapList := ⟨none, [], 0⟩

/-- The blocks of a list: its strings and its array. -/
def HeapList.blocks (list : HeapList) : Multiset Resource :=
  stringBlocks list.strings + list.items.block

def HeapList.texts (list : HeapList) : List Bytes := list.strings.map HeapString.text

/-- `sql_strdup`. -/
def sqlStrdupHeap : Option Bytes → Heap HeapString
  | none => pure .null
  | some source => do
      match ← Heap.malloc with
      | none => pure .null
      | some address => pure ⟨some address, source⟩

/-- `string_list_append`, of a value that is not NULL. -/
def stringListAppendHeap (list : HeapList) (value : Bytes) : Heap (Bool × HeapList) := do
  match ← Heap.reserve (list.strings.length == list.capacity) list.items
      (doubled 4 list.capacity) list.capacity with
  | none => pure (false, list)
  | some (items, capacity) => do
      let copy ← sqlStrdupHeap (some value)
      match copy.pointer with
      | none => pure (false, ⟨items, list.strings, capacity⟩)
      | some _ => do
          Heap.use items.block
          pure (true, ⟨items, list.strings ++ [copy], capacity⟩)

/-- `string_list_append` on each of the values, up to the first that fails. -/
def appendAllHeap : List Bytes → HeapList → Heap (Bool × HeapList)
  | [], list => pure (true, list)
  | value :: values, list => do
      match ← stringListAppendHeap list value with
      | (false, list) => pure (false, list)
      | (true, list) => appendAllHeap values list

/-- The loop of `string_list_free`, and the `free` behind it. -/
def freeStrings (items : Pointer) : List HeapString → Heap Unit
  | [] => Heap.free items
  | s :: strings => do
      Heap.use items.block
      Heap.free s.pointer
      freeStrings items strings

/-- `string_list_free`. -/
def stringListFree (list : HeapList) : Heap Unit := freeStrings list.items list.strings

section Blocks

@[simp] theorem HeapString.block_mk (pointer : Pointer) (text : Bytes) :
    HeapString.block ⟨pointer, text⟩ = pointer.block := rfl

@[simp] theorem HeapString.pointer_null : HeapString.null.pointer = none := rfl

@[simp] theorem HeapString.block_null : HeapString.null.block = 0 := rfl

@[simp] theorem HeapList.blocks_empty : HeapList.empty.blocks = 0 := rfl

@[simp] theorem HeapList.texts_empty : HeapList.empty.texts = [] := rfl

@[simp] theorem HeapList.length_texts (list : HeapList) :
    list.texts.length = list.strings.length := by
  simp [HeapList.texts]

theorem stringBlocks_append (strings : List HeapString) (s : HeapString) :
    stringBlocks (strings ++ [s]) = s.block + stringBlocks strings := by
  induction strings with
  | nil => rfl
  | cons t strings ih =>
      rw [List.cons_append, stringBlocks, ih, stringBlocks]
      abel

/-- What the other strings of an array own, whatever stands in one slot. -/
theorem exists_stringBlocks_set {strings : List HeapString} {i : Nat} (h : i < strings.length) :
    ∃ rest, stringBlocks strings = (strings.getD i .null).block + rest ∧
      ∀ s, stringBlocks (strings.set i s) = s.block + rest := by
  induction strings generalizing i with
  | nil => simp at h
  | cons t strings ih =>
      cases i with
      | zero => exact ⟨stringBlocks strings, rfl, fun _ => rfl⟩
      | succ i =>
          obtain ⟨rest, hslot, hset⟩ := ih (by simpa using h)
          refine ⟨t.block + rest, ?_, fun s => ?_⟩
          · rw [stringBlocks, hslot, List.getD_cons_succ]
            abel
          · rw [List.set_cons_succ, stringBlocks, hset]
            abel

/-- A list owns no stream. -/
theorem HeapList.closed (list : HeapList) : Closed list.blocks := by
  have hstrings : Closed (stringBlocks list.strings) := by
    induction list.strings with
    | nil => exact .zero
    | cons s strings ih => exact s.pointer.closed.add ih
  exact hstrings.add list.items.closed

end Blocks

/-! ## Buffers that grow -/

/-- The capacity a full buffer is given is not zero. -/
theorem doubled_ne_zero {initial : Nat} (h : initial ≠ 0) (capacity : Nat) :
    doubled initial capacity ≠ 0 := by
  unfold doubled
  split
  · exact h
  · omega

/-- A buffer that has been given room is not NULL. -/
theorem reserved_null_iff {full : Bool} {items items' : Pointer} {newCapacity capacity : Nat}
    (hnull : items = none ↔ capacity = 0) (hnew : newCapacity ≠ 0)
    (h : if full then items' ≠ none else items' = items) :
    items' = none ↔ (if full then newCapacity else capacity) = 0 := by
  cases full with
  | false =>
      obtain rfl : items' = items := h
      exact hnull
  | true => exact iff_of_false h hnew

section Frees

open Heap

theorem freeStrings_frees (items : Pointer) (strings : List HeapString) :
    Frees (stringBlocks strings + items.block) (freeStrings items strings) := by
  induction strings with
  | nil => exact (Frees.free items).of_eq (zero_add _)
  | cons s strings ih =>
      have hrest := (Frees.free s.pointer).bind ih
      rw [← add_assoc] at hrest
      exact .touch (fun _ h => Multiset.mem_add.mpr (.inr h)) hrest

theorem stringListFree_frees (list : HeapList) : Frees list.blocks (stringListFree list) :=
  freeStrings_frees list.items list.strings

end Frees

section Lists

open Heap

variable {undefined : Failure → Prop} {frame : Multiset Resource} {e : Failure}

/-- The list without addresses, with its capacity. -/
def HeapList.value (list : HeapList) : List Bytes × Nat := (list.texts, list.capacity)

/-- What a call that is to make a list of the texts leaves. -/
abbrev ListEnlarges (texts : List Bytes) (e : Failure) (frame : Multiset Resource) :
    Bool × HeapList → Except Failure (List Bytes × Nat) → Multiset Resource → Prop :=
  Enlarges (fun list => list.texts = texts ∧ (texts ≠ [] → list.blocks ≠ 0)) HeapList.blocks
    HeapList.value e frame

theorem stringListAppendHeap_safe (list : HeapList) (value : Bytes) :
    Safe undefined (ListEnlarges (list.texts ++ [value]) e frame) (list.blocks + frame)
      (stringListAppendHeap list value) (stringListAppend e list.texts list.capacity value) := by
  have hheld : list.blocks + frame = list.items.block + (stringBlocks list.strings + frame) := by
    rw [HeapList.blocks]
    abel
  rw [hheld, stringListAppend, HeapList.length_texts]
  refine Safe.reserve (fun items _ => ?_) fun _ => .fail ⟨rfl, hheld.symm⟩
  refine Safe.malloc (fun address => ?_) (.fail ⟨rfl, ?_⟩)
  · refine Safe.use (fun _ h => ?_) (.done ⟨⟨?_, fun _ => ?_⟩, ?_, ?_⟩)
    · simp [h]
    · simp [HeapList.texts]
    · rw [HeapList.blocks, stringBlocks_append, HeapString.block_mk, Pointer.block_some]
      simp
    · simp [HeapList.value, HeapList.texts]
    · rw [HeapList.blocks, stringBlocks_append, HeapString.block_mk, Pointer.block_some]
      abel
  · rw [HeapList.blocks]
    abel

theorem appendAllHeap_safe (values : List Bytes) (list : HeapList)
    (hlist : list.texts ≠ [] → list.blocks ≠ 0) :
    Safe undefined (ListEnlarges (list.texts ++ values) e frame) (list.blocks + frame)
      (appendAllHeap values list) (appendAll e values list.texts list.capacity) := by
  induction values generalizing list with
  | nil =>
      rw [List.append_nil]
      exact .done ⟨⟨rfl, hlist⟩, rfl, rfl⟩
  | cons value values ih =>
      refine Safe.enlarged (stringListAppendHeap_safe list value) (fun list' hlist' => ?_)
        fun _ => .fail ⟨rfl, rfl⟩
      have hrest := ih list' fun h => hlist'.2 (by simp)
      rw [hlist'.1, List.append_assoc] at hrest
      rw [HeapList.value, hlist'.1]
      exact hrest

end Lists

end MiniSql
