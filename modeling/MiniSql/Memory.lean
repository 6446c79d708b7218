import MiniSql.Foundation.Alloc
import MiniSql.Parser.Ast

set_option autoImplicit false

/-!
# Requests for memory

The calls of `malloc`, `realloc` and `calloc`, and the helpers of `common.c` that make
them.  A buffer that grows has its capacity beside it, as in the structures of the
source; a capacity of zero is the pointer NULL.
-/

namespace MiniSql

open Foundation

/-- What a request for memory is for. -/
inductive Request where
  /-- the items of a `TokenList` -/
  | tokenItems
  | lexeme
  /-- the buffer of `read_string_token` -/
  | literal
  /-- the items of a `StringList` -/
  | listItems
  /-- the copy `string_list_append` makes -/
  | listCopy
  | schemaName
  | tableName
  | whereColumn
  | whereValue
  /-- the items of a `SQLScript` -/
  | scriptItems
  /-- a path of `build_table_paths` -/
  | path
  /-- the buffer of `read_text_file` -/
  | fileContent
  /-- the buffer of `split_pipe_line` -/
  | field
  /-- `assigned_columns` -/
  | assigned
  /-- the copy of a value that takes its place in a row -/
  | value
  /-- the pointers to the escaped fields, the buffer of one, and the line of them all -/
  | escapedItems
  | escaped
  | line
  /-- a buffer of `ensure_parent_directory` or `ensure_directory_recursive` -/
  | directory
  /-- `selected_indexes` -/
  | selected
  /-- the rows of a `QueryResult` -/
  | rows
  deriving DecidableEq, Repr

/-- A call that may be refused memory. -/
abbrev Allocating (α : Type) : Type := Alloc Request Failure α

/-- The capacity a full buffer is given: `initial` at first, then twice what it had. -/
def doubled (initial capacity : Nat) : Nat := if capacity = 0 then initial else capacity * 2

/-- `string_list_append`; the caller prints the failure. -/
def stringListAppend (e : Failure) (list : List Bytes) (capacity : Nat) (value : Bytes) :
    Allocating (List Bytes × Nat) := do
  let capacity ← Alloc.reserve .listItems e (list.length == capacity) (doubled 4 capacity) capacity
  Alloc.demand .listCopy e
  pure (list ++ [value], capacity)

/-- `string_list_append` on each of the values. -/
def appendAll (e : Failure) : List Bytes → List Bytes → Nat → Allocating (List Bytes × Nat)
  | [], list, capacity => pure (list, capacity)
  | value :: values, list, capacity => do
      let (list, capacity) ← stringListAppend e list capacity value
      appendAll e values list capacity

section Lists

open Alloc

theorem stringListAppend_granted (e : Failure) (list : List Bytes) (capacity : Nat)
    (value : Bytes) :
    ∃ capacity', (stringListAppend e list capacity value).granted =
      .ok (list ++ [value], capacity') := by
  unfold stringListAppend
  rw [granted_after _ (granted_reserve _ _ _ _ _)]
  exact ⟨_, rfl⟩

theorem appendAll_granted (e : Failure) (values list : List Bytes) (capacity : Nat) :
    ∃ capacity', (appendAll e values list capacity).granted = .ok (list ++ values, capacity') := by
  induction values generalizing list capacity with
  | nil => exact ⟨capacity, by rw [List.append_nil]; rfl⟩
  | cons value values ih =>
      obtain ⟨capacity', happend⟩ := stringListAppend_granted e list capacity value
      obtain ⟨capacity'', hrest⟩ := ih (list ++ [value]) capacity'
      refine ⟨capacity'', ?_⟩
      unfold appendAll
      rw [granted_after _ happend]
      rw [List.append_assoc] at hrest
      exact hrest

variable {loose : Request → Prop}

theorem stringListAppend_checked (hitems : ¬ loose .listItems) (hcopy : ¬ loose .listCopy)
    (e : Failure) (list : List Bytes) (capacity : Nat) (value : Bytes) :
    Checked loose (stringListAppend e list capacity value) := by
  refine (Checked.reserve hitems _ _ _ _).bind fun capacity => ?_
  exact (Checked.demand hcopy _).bind fun _ => .done _

theorem appendAll_checked (hitems : ¬ loose .listItems) (hcopy : ¬ loose .listCopy)
    (e : Failure) (values list : List Bytes) (capacity : Nat) :
    Checked loose (appendAll e values list capacity) := by
  induction values generalizing list capacity with
  | nil => exact .done _
  | cons value values ih =>
      exact (stringListAppend_checked hitems hcopy e list capacity value).bind fun r => ih r.1 r.2

end Lists

end MiniSql
