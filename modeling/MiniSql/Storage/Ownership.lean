import MiniSql.Ownership
import MiniSql.Storage.Memory

set_option autoImplicit false

/-!
# Rows, tables and INSERT with what they own

`split_pipe_line`, `serialize_row`, `load_table_definition` and `append_insert_row` with
the blocks and streams they acquire, use and give back.  Calls on files succeed, but for a
missing file.
-/

namespace MiniSql

open Foundation

/-! ## Rows -/

/-- The end of a field in `split_pipe_line`.  When a field without a buffer is refused one
the list is left as it is, and when the copy is refused it is freed. -/
def endFieldHeap (buffer : Bytes) (pointer : Pointer) (capacity : Nat) (values : HeapList) :
    Heap (Bool × HeapList) := do
  match ← Heap.reserve pointer.isNone pointer 1 capacity with
  | none => pure (false, values)
  | some (pointer, _) => do
      Heap.use pointer.block
      match ← stringListAppendHeap values buffer with
      | (false, values) => do
          Heap.free pointer
          stringListFree values
          pure (false, .empty)
      | (true, values) => do
          Heap.free pointer
          pure (true, values)

/-- The loop of `split_pipe_line` over a line in the block `source`; `buffer` stands in the
block of `pointer`. -/
def splitPipeFromHeap (source : Multiset Resource) (buffer : Bytes) (pointer : Pointer)
    (capacity : Nat) (values : HeapList) : Bytes → Heap (Bool × HeapList)
  | [] => do
      Heap.use source
      endFieldHeap buffer pointer capacity values
  | ch :: rest => do
      Heap.use source
      if ch = newline then endFieldHeap buffer pointer capacity values
      else if ch = carriageReturn then
        splitPipeFromHeap source buffer pointer capacity values rest
      else if ch = pipe then
        match ← endFieldHeap buffer pointer capacity values with
        | (false, values) => pure (false, values)
        | (true, values) => splitPipeFromHeap source [] none 0 values rest
      else
        match ← Heap.reserve (buffer.length + 2 ≥ capacity) pointer (doubled 16 capacity)
            capacity with
        | none => do
            Heap.free pointer
            stringListFree values
            pure (false, .empty)
        | some (pointer, capacity) => do
            Heap.use pointer.block
            if ch = backslash then
              match rest with
              | [] => splitPipeFromHeap source (buffer ++ [ch]) pointer capacity values []
              | next :: rest' =>
                  match unescapeByte next with
                  | some b =>
                      splitPipeFromHeap source (buffer ++ [b]) pointer capacity values rest'
                  | none =>
                      splitPipeFromHeap source (buffer ++ [ch]) pointer capacity values
                        (next :: rest')
            else splitPipeFromHeap source (buffer ++ [ch]) pointer capacity values rest
  termination_by line => line.length

/-- `split_pipe_line`. -/
def splitPipeLineHeap (source : Multiset Resource) (line : Bytes) : Heap (Bool × HeapList) :=
  splitPipeFromHeap source [] none 0 .empty line

/-- The loop of `escape_field`.  The message is the one its caller's caller prints. -/
def escapeFromHeap : Bytes → Bytes → Pointer → Nat → Heap (Except Failure HeapString)
  | [], buffer, pointer, _ => pure (.ok ⟨pointer, buffer⟩)
  | ch :: rest, buffer, pointer, capacity => do
      let extra :=
        if ch = backslash ∨ ch = pipe ∨ ch = newline ∨ ch = carriageReturn then 2 else 1
      match ← Heap.reserve (buffer.length + extra + 1 ≥ capacity) pointer
          (capacity * 2 + extra + 1) capacity with
      | none => do
          Heap.free pointer
          pure (.error (.outOfMemory "serializing row"))
      | some (pointer, capacity) => do
          Heap.use pointer.block
          escapeFromHeap rest (buffer ++ escapeByte ch) pointer capacity

/-- `escape_field`. -/
def escapeFieldHeap (value : Bytes) : Heap (Except Failure HeapString) :=
  (Heap.demand (.outOfMemory "serializing row")).andThen fun address =>
    escapeFromHeap value [] (some address) 16

/-- The first loop of `serialize_row`, with the fields escaped so far. -/
def escapeFieldsHeap (escaped : Pointer) :
    List Bytes → List HeapString → Heap (Except Failure (List HeapString))
  | [], fields => pure (.ok fields)
  | value :: values, fields =>
      (escapeFieldHeap value).orReturn (freeStrings escaped fields) fun field => do
        Heap.use escaped.block
        escapeFieldsHeap escaped values (fields ++ [field])

/-- `serialize_row` of a list in the heap. -/
def serializeRowHeap (values : HeapList) : Heap (Except Failure HeapString) :=
  (Heap.demand (.outOfMemory "serializing row")).andThen fun escaped => do
    Heap.use values.blocks
    (escapeFieldsHeap (some escaped) values.texts []).andThen fun fields =>
      (Heap.demand (.outOfMemory "serializing row")).orReturn (freeStrings (some escaped) fields)
        fun output => do
          Heap.use {.block output}
          freeStrings (some escaped) fields
          pure (.ok ⟨some output, joinFields (fields.map HeapString.text) ++ [newline]⟩)

/-! ## Files and tables -/

/-- `read_text_file`. -/
def readTextFileHeap (path : Bytes) (files : FileSystem) : Heap (Except Failure HeapString) :=
  match readTextFile path files with
  | .error e => pure (.error (.sql e))
  | .ok content => do
      let stream ← Heap.openStream
      (Heap.demand (.outOfMemoryReading path)).orReturn (Heap.fclose stream) fun address => do
        Heap.use {.block address}
        Heap.fclose stream
        pure (.ok ⟨some address, content⟩)

/-- `ensure_parent_directory`, and `ensure_directory_recursive` on a path that is not
empty. -/
def ensureParentDirectoryHeap (path : Bytes) : Heap (Except Failure Unit) :=
  match parentPath path with
  | none => pure (.ok ())
  | some directory =>
      (Heap.demand (.outOfMemory "preparing parent directory")).andThen fun parent =>
        if directory = [] then do
          Heap.use {.block parent}
          Heap.free (some parent)
          pure (.ok ())
        else
          (Heap.demand (.outOfMemory "creating directory")).orReturn (Heap.free (some parent))
            fun buffer => do
              Heap.use ({.block parent} + {.block buffer})
              Heap.free (some buffer)
              Heap.free (some parent)
              pure (.ok ())

/-- `write_mode_file`, with the files it leaves. -/
def writeModeFileHeap (path : Bytes) (files : FileSystem) : Heap (Except Failure FileSystem) :=
  (ensureParentDirectoryHeap path).andThen fun _ => do
    let stream ← Heap.openStream
    Heap.fclose stream
    pure (.ok files)

/-- `TableDefinition`. -/
structure HeapTable where
  schema : HeapString
  table : HeapString
  columns : HeapList
  schemaPath : HeapString
  dataPath : HeapString

def HeapTable.blocks (table : HeapTable) : Multiset Resource :=
  table.schema.block + table.table.block + table.columns.blocks + table.schemaPath.block +
    table.dataPath.block

/-- The fields that are read, without addresses. -/
def HeapTable.Matches (table : HeapTable) (definition : TableDefinition) : Prop :=
  table.columns.texts = definition.columns ∧ table.dataPath.text = definition.dataPath

/-- `free_table_definition`. -/
def freeTableDefinition (table : HeapTable) : Heap Unit := do
  Heap.free table.schema.pointer
  Heap.free table.table.pointer
  stringListFree table.columns
  Heap.free table.schemaPath.pointer
  Heap.free table.dataPath.pointer

/-- `build_table_paths` for a name in the blocks `lender`. -/
def buildTablePathsHeap (lender : Multiset Resource) (dbRoot : Bytes) (name : QualifiedName) :
    Heap (Except Failure (HeapString × HeapString)) := do
  Heap.use lender
  match buildTablePaths dbRoot name with
  | .error e => pure (.error (.sql e))
  | .ok (schemaPath, dataPath) => do
      let schemaBlock ← Heap.malloc
      let dataBlock ← Heap.malloc
      if schemaBlock.isNone || dataBlock.isNone then do
        Heap.free schemaBlock
        Heap.free dataBlock
        pure (.error (.outOfMemory "building file paths"))
      else do
        Heap.use (schemaBlock.block + dataBlock.block)
        pure (.ok (⟨schemaBlock, schemaPath⟩, ⟨dataBlock, dataPath⟩))

/-- The copies of the name in `load_table_definition`, of a name in the blocks `lender`. -/
def copyNameHeap (lender : Multiset Resource) (name : QualifiedName)
    (paths : HeapString × HeapString) : Heap (Except Failure HeapTable) := do
  Heap.use lender
  let schema ← sqlStrdupHeap name.schema
  let table ← sqlStrdupHeap name.table
  let named : HeapTable := ⟨schema, table, .empty, paths.1, paths.2⟩
  if (name.schema.isSome && schema.pointer.isNone) ||
      (name.table.isSome && table.pointer.isNone) then do
    freeTableDefinition named
    pure (.error (.outOfMemory "loading table"))
  else pure (.ok named)

/-- `load_table_definition` for a name in the blocks `lender`. -/
def loadTableDefinitionHeap (lender : Multiset Resource) (dbRoot : Bytes) (name : QualifiedName)
    (files : FileSystem) : Heap (Except Failure HeapTable) :=
  (buildTablePathsHeap lender dbRoot name).andThen fun paths =>
  (copyNameHeap lender name paths).andThen fun named => do
    Heap.use named.schemaPath.block
    (readTextFileHeap named.schemaPath.text files).orReturn (freeTableDefinition named)
      fun content => do
      match ← splitPipeLineHeap content.block content.text with
      | (false, columns) => do
          Heap.free content.pointer
          freeTableDefinition { named with columns }
          pure (.error (.outOfMemory "parsing row"))
      | (true, columns) => do
          Heap.use columns.blocks
          if columns.texts = [] ∨ columns.texts = [[]] then do
            Heap.free content.pointer
            freeTableDefinition { named with columns }
            pure (.error (.sql (.schemaFileEmpty none)))
          else do
            Heap.free content.pointer
            pure (.ok { named with columns })

/-! ## INSERT -/

/-- The exits of `append_insert_row` once the row is being built. -/
def dropInsert (table : HeapTable) (ordered : HeapList) (assigned : Nat) : Heap Unit := do
  freeTableDefinition table
  stringListFree ordered
  Heap.free (some assigned)

/-- The loop of `append_insert_row` over the columns and their values, which stand in the
blocks `lender`.  The slot of a value is freed before the value is copied. -/
def placeValuesHeap (lender : Multiset Resource) (table : HeapTable) (assignedColumns : Nat) :
    List (Bytes × Bytes) → HeapList → List Bool → Heap (Except Failure HeapList)
  | [], ordered, _ => pure (.ok ordered)
  | (name, value) :: pairs, ordered, assigned => do
      Heap.use (lender + table.columns.blocks)
      match findColumnIndex table.columns.texts name with
      | none => do
          dropInsert table ordered assignedColumns
          pure (.error (.sql (.unknownInsertColumn name)))
      | some target => do
          Heap.use {.block assignedColumns}
          if assigned.getD target false then do
            dropInsert table ordered assignedColumns
            pure (.error (.sql (.duplicateInsertColumn name)))
          else do
            Heap.use ordered.items.block
            Heap.free (ordered.strings.getD target .null).pointer
            let copy ← sqlStrdupHeap (some value)
            let ordered := { ordered with strings := ordered.strings.set target copy }
            if copy.pointer.isNone then do
              dropInsert table ordered assignedColumns
              pure (.error (.outOfMemory "building row"))
            else
              placeValuesHeap lender table assignedColumns pairs ordered (assigned.set target true)

/-- `append_insert_row` of a statement in the blocks `lender`, with the files it leaves. -/
def appendInsertRowHeap (lender : Multiset Resource) (dbRoot : Bytes)
    (statement : InsertStatement) (files : FileSystem) : Heap (Except Failure FileSystem) :=
  if statement.columns.length ≠ statement.values.length then
    pure (.error (.sql .insertCountMismatch))
  else
    (loadTableDefinitionHeap lender dbRoot statement.target files).andThen fun table =>
    (Heap.demand (.outOfMemory "preparing INSERT")).orReturn (freeTableDefinition table)
      fun assigned => do
      match ← appendAllHeap (List.replicate table.columns.strings.length []) .empty with
      | (false, ordered) => do
          dropInsert table ordered assigned
          pure (.error (.outOfMemory "building row"))
      | (true, ordered) =>
          (placeValuesHeap lender table assigned (statement.columns.zip statement.values) ordered
            (List.replicate table.columns.strings.length false)).andThen fun ordered =>
          (serializeRowHeap ordered).orReturn (dropInsert table ordered assigned) fun row => do
            Heap.use (row.block + table.dataPath.block)
            (writeModeFileHeap table.dataPath.text
              (appendTextFile table.dataPath.text row.text files)).orReturn
              (do
                Heap.free row.pointer
                dropInsert table ordered assigned) fun files => do
              Heap.free row.pointer
              stringListFree ordered
              freeTableDefinition table
              Heap.free (some assigned)
              pure (.ok files)

/-! ## Rows are safe -/

section Rows

open Heap

variable {undefined : Failure → Prop} {source frame : Multiset Resource}

/-- What `split_pipe_line` leaves: its list, whole or up to the field that failed. -/
abbrev RowEnlarges (frame : Multiset Resource) :
    Bool × HeapList → Except Failure (List Bytes) → Multiset Resource → Prop :=
  Enlarges (fun _ => True) HeapList.blocks HeapList.texts (.outOfMemory "parsing row") frame

theorem endFieldHeap_safe (buffer : Bytes) {pointer : Pointer} {capacity : Nat}
    (values : HeapList) (hnull : pointer = none ↔ capacity = 0) :
    Safe undefined (ListEnlarges (values.texts ++ [buffer]) (.outOfMemory "parsing row") frame)
      (pointer.block + (values.blocks + frame)) (endFieldHeap buffer pointer capacity values)
      (endField buffer capacity values.texts values.capacity) := by
  have hisNone : (capacity == 0) = pointer.isNone := by
    cases pointer <;> simp_all
  rw [endField, hisNone]
  refine Safe.reserve (fun pointer _ => ?_) fun hnone => ?_
  · refine Safe.use (fun _ h => by simp [h]) ?_
    rw [← Alloc.bind_done (stringListAppend _ _ _ _), add_left_comm]
    refine Safe.enlarged (stringListAppendHeap_safe values buffer) (fun values hvalues => ?_)
      fun values => ?_
    · rw [add_left_comm]
      exact (Frees.free pointer).safe (.done ⟨hvalues, rfl, rfl⟩)
    · rw [add_left_comm]
      refine (Frees.free pointer).safe ((stringListFree_frees values).safe (.fail ⟨rfl, ?_⟩))
      exact (zero_add _).symm
  · obtain rfl := Option.isNone_iff_eq_none.mp hnone
    exact .fail ⟨rfl, zero_add _⟩

theorem splitPipeFromHeap_safe (hsource : source ⊆ frame) (buffer : Bytes) (pointer : Pointer)
    (capacity : Nat) (values : HeapList) (line : Bytes) (hnull : pointer = none ↔ capacity = 0) :
    Safe undefined (RowEnlarges frame) (pointer.block + (values.blocks + frame))
      (splitPipeFromHeap source buffer pointer capacity values line)
      (splitPipeFromAlloc buffer capacity values.texts values.capacity line) := by
  have huse : ∀ (pointer : Pointer) (values : HeapList),
      source ⊆ pointer.block + (values.blocks + frame) :=
    fun pointer values => lent (lent hsource values.blocks) pointer.block
  -- the last field
  have hlast : ∀ (buffer : Bytes) (pointer : Pointer) (capacity : Nat) (values : HeapList),
      (pointer = none ↔ capacity = 0) →
      Safe undefined (RowEnlarges frame) (pointer.block + (values.blocks + frame))
        (endFieldHeap buffer pointer capacity values)
        (endField buffer capacity values.texts values.capacity >>= fun r => Alloc.done r.1) := by
    intro buffer pointer capacity values hnull
    refine Safe.answers (endFieldHeap_safe buffer values hnull) ?_ ?_
    · rintro ⟨_ | _, list⟩ y held h
      · exact h.elim
      · obtain ⟨-, rfl, rfl⟩ := h
        exact ⟨trivial, rfl, rfl⟩
    · rintro ⟨_ | _, list⟩ e held h
      · exact h
      · exact h.elim
  have hrefused : ∀ (pointer : Pointer) (values : HeapList),
      Safe undefined (RowEnlarges frame) (pointer.block + (values.blocks + frame)) (do
          Heap.free pointer
          stringListFree values
          pure (false, .empty))
        (Alloc.fail (.outOfMemory "parsing row") : Allocating (List Bytes)) :=
    fun pointer values => (Frees.free pointer).safe
      ((stringListFree_frees values).safe (.fail ⟨rfl, (zero_add _).symm⟩))
  have hroom : ∀ (full : Bool) (items : Pointer) (capacity : Nat) (items' : Pointer),
      (items = none ↔ capacity = 0) → (if full then items' ≠ none else items' = items) →
      (items' = none ↔ (if full then doubled 16 capacity else capacity) = 0) :=
    fun _ _ _ _ hnull h => reserved_null_iff hnull (doubled_ne_zero (by decide) _) h
  fun_induction splitPipeFromHeap source buffer pointer capacity values line with
  | case1 buffer pointer capacity values =>
      rw [splitPipeFromAlloc]
      exact Safe.use (huse pointer values) (hlast _ _ _ _ hnull)
  | case2 buffer pointer capacity values ch rest ihCr ihPipe ihEscape ih =>
      rw [splitPipeFromAlloc]
      refine Safe.use (huse pointer values) ?_
      split_ifs with hnewline hcr hpipe hbackslash
      · exact hlast _ _ _ _ hnull
      · exact ihCr hnull
      · refine Safe.enlarged (endFieldHeap_safe buffer values hnull) (fun values _ => ?_)
          fun values => .fail ⟨rfl, rfl⟩
        exact (ihPipe values (by simp)).of_eq (zero_add _).symm
      · refine Safe.reserve (fun moved hmoved => ?_) fun _ => hrefused pointer values
        have hnull' := hroom _ _ _ moved hnull hmoved
        refine Safe.use (fun _ h => by simp [h]) ?_
        have hescape := ihEscape moved (if decide (buffer.length + 2 ≥ capacity) then
          doubled 16 capacity else capacity)
        cases rest with
        | nil => exact hescape hnull'
        | cons next rest =>
            dsimp only
            cases unescapeByte next with
            | none => exact hescape.2 hnull'
            | some b => exact hescape.1 b hnull'
      · refine Safe.reserve (fun moved hmoved => ?_) fun _ => hrefused pointer values
        refine Safe.use (fun _ h => by simp [h]) ?_
        exact ih _ _ (hroom _ _ _ moved hnull hmoved)

theorem splitPipeLineHeap_safe (hsource : source ⊆ frame) (line : Bytes) :
    Safe undefined (RowEnlarges frame) frame (splitPipeLineHeap source line)
      (splitPipeLineAlloc line) := by
  have hline := @splitPipeFromHeap_safe undefined _ _ hsource [] none 0 .empty line (by simp)
  rwa [Pointer.block_none, HeapList.blocks_empty, zero_add, zero_add] at hline

theorem escapeFromHeap_safe (value buffer : Bytes) (pointer : Pointer) (capacity : Nat) :
    Safe undefined (Owns HeapString.block (fun s y => s.text = y) frame frame)
      (pointer.block + frame) (escapeFromHeap value buffer pointer capacity)
      (escapeFrom value buffer capacity) := by
  induction value generalizing buffer pointer capacity with
  | nil => exact .value rfl rfl
  | cons ch value ih =>
      unfold escapeFromHeap escapeFrom
      refine Safe.reserve (fun moved _ => ?_) fun _ => Safe.exit (Frees.free pointer)
      exact Safe.use (fun _ h => by simp [h]) (ih _ moved _)

theorem escapeFieldHeap_safe (value : Bytes) :
    Safe undefined (Owns HeapString.block (fun s y => s.text = y) frame frame) frame
      (escapeFieldHeap value) (escapeFieldAlloc value) := by
  refine Safe.andThen Safe.demand (fun e => ⟨rfl, rfl⟩) fun address _ _ => ?_
  exact escapeFromHeap_safe value [] (some address) 16

/-- The fields escaped so far and the array are freed when a field fails. -/
theorem escapeFieldsHeap_safe (escaped : Pointer) (values : List Bytes)
    (fields : List HeapString) :
    Safe undefined
      (Owns stringBlocks (fun all y => all.map HeapString.text = fields.map HeapString.text ++ y)
        (escaped.block + frame) frame)
      (stringBlocks fields + escaped.block + frame) (escapeFieldsHeap escaped values fields)
      (escapeFields values) := by
  induction values generalizing fields with
  | nil => exact .value (List.append_nil _).symm (add_assoc _ _ _)
  | cons value values ih =>
      refine Safe.orReturn (escapeFieldHeap_safe value) (freeStrings_frees escaped fields)
        (fun e => ⟨rfl, rfl⟩) ?_
      rintro field _ rfl
      refine Safe.use (fun _ h => by simp [h]) ?_
      have hfields := ih (fields ++ [field])
      rw [stringBlocks_append] at hfields
      refine Safe.answers (Safe.of_eq hfields (by abel)) ?_ ?_
      · rintro (e | all) y held h
        · exact h.elim
        · exact ⟨h.1.trans (by simp), h.2⟩
      · rintro (e | all) e' held h
        · exact h
        · exact h.elim

theorem serializeRowHeap_safe (values : HeapList) (hvalues : values.blocks ⊆ frame) :
    Safe undefined (Owns HeapString.block (fun s y => s.text = y) frame frame) frame
      (serializeRowHeap values) (serializeRowAlloc values.texts) := by
  refine Safe.andThen Safe.demand (fun e => ⟨rfl, rfl⟩) fun escaped _ _ => ?_
  refine Safe.use (lent hvalues _) ?_
  have hfields := @escapeFieldsHeap_safe undefined frame (some escaped) values.texts []
  rw [show stringBlocks [] = 0 from rfl, zero_add] at hfields
  refine Safe.andThen hfields (fun e => ⟨rfl, rfl⟩) fun fields y hy => ?_
  have hcleanup := freeStrings_frees (some escaped) fields
  rw [← add_assoc]
  refine Safe.orReturn Safe.demand hcleanup (fun e => ⟨rfl, rfl⟩) fun output _ _ => ?_
  refine Safe.use (fun _ h => by simp at h; simp [h]) ?_
  refine Safe.of_eq (hcleanup.safe (.value ?_ rfl)) ?_
  · rw [hy]
    rfl
  · simp only [HeapString.block_mk, Pointer.block_some]
    abel

end Rows

/-! ## Tables are safe -/

section Tables

open Heap

variable {undefined : Failure → Prop} {lender frame : Multiset Resource}

theorem readTextFileHeap_safe (path : Bytes) (files : FileSystem) :
    Safe undefined (Owns HeapString.block (fun s y => s.text = y) frame frame) frame
      (readTextFileHeap path files) (readTextFileAlloc path files) := by
  unfold readTextFileHeap readTextFileAlloc
  cases readTextFile path files with
  | error e => exact .error
  | ok content =>
      refine Safe.openStream fun stream => ?_
      refine Safe.orReturn Safe.demand (Frees.fclose stream) (fun e => ⟨rfl, rfl⟩)
        fun address _ _ => ?_
      refine Safe.use (fun _ h => by simp at h; simp [h]) ?_
      refine Safe.of_eq (Safe.fclose (.value rfl rfl)) ?_
      simp only [HeapString.block_mk, Pointer.block_some]
      abel

theorem ensureParentDirectoryHeap_safe (path : Bytes) :
    Safe undefined (Owns (fun _ => 0) Eq frame frame) frame (ensureParentDirectoryHeap path)
      (ensureParentDirectory path) := by
  unfold ensureParentDirectoryHeap ensureParentDirectory
  cases parentPath path with
  | none => exact .value rfl (zero_add _).symm
  | some directory =>
      refine Safe.andThen Safe.demand (fun e => ⟨rfl, rfl⟩) fun parent _ _ => ?_
      split
      · refine Safe.use (fun _ h => by simp at h; simp [h]) ?_
        exact (Frees.free (some parent)).safe (.value rfl (zero_add _).symm)
      · rw [← Alloc.bind_done (Alloc.demand _ _)]
        refine Safe.orReturn Safe.demand (Frees.free (some parent)) (fun e => ⟨rfl, rfl⟩)
          fun buffer _ _ => ?_
        refine Safe.use (fun _ h => by simp at h; rcases h with h | h <;> simp [h]) ?_
        rw [add_assoc]
        exact (Frees.free (some buffer)).safe ((Frees.free (some parent)).safe
          (.value rfl (zero_add _).symm))

/-- The directory is prepared, the file opened and closed again. -/
theorem writeModeFileHeap_safe (path : Bytes) (files : FileSystem) :
    Safe undefined (Owns (fun _ => 0) (fun x _ => x = files) frame frame) frame
      (writeModeFileHeap path files) (ensureParentDirectory path) := by
  rw [← Alloc.bind_done (ensureParentDirectory path)]
  refine Safe.andThen (ensureParentDirectoryHeap_safe path) (fun e => ⟨rfl, rfl⟩) ?_
  rintro _ _ rfl
  rw [zero_add]
  exact Safe.openStream fun stream => Safe.fclose (.value rfl (zero_add _).symm)

theorem freeTableDefinition_frees (table : HeapTable) :
    Frees table.blocks (freeTableDefinition table) := by
  have hpaths := (stringListFree_frees table.columns).bind
    ((Frees.free table.schemaPath.pointer).bind (Frees.free table.dataPath.pointer))
  refine ((Frees.free table.schema.pointer).bind
    ((Frees.free table.table.pointer).bind hpaths)).of_eq ?_
  simp only [HeapTable.blocks, HeapString.block]
  abel

theorem buildTablePathsHeap_safe (hlender : lender ⊆ frame) (dbRoot : Bytes)
    (name : QualifiedName) {schemaPath dataPath : Bytes}
    (hpaths : buildTablePaths dbRoot name = .ok (schemaPath, dataPath)) :
    Safe undefined (Owns (fun paths : HeapString × HeapString => paths.1.block + paths.2.block)
        (fun paths _ => paths.1.text = schemaPath ∧ paths.2.text = dataPath) frame frame) frame
      (buildTablePathsHeap lender dbRoot name)
      (Alloc.demandBoth .path .path (.outOfMemory "building file paths") : Allocating Unit) := by
  unfold buildTablePathsHeap
  rw [hpaths]
  refine Safe.use hlender ?_
  refine Safe.malloc (fun schema => Safe.malloc (fun data => ?_) ?_)
    (Safe.malloc (fun data => ?_) ?_)
  · refine Safe.use (fun _ h => by simp at h; rcases h with h | h <;> simp [h]) ?_
    refine .value ⟨rfl, rfl⟩ ?_
    simp only [HeapString.block_mk, Pointer.block_some]
    abel
  · exact (Frees.free (some schema)).safe (Safe.of_eq ((Frees.free none).safe .error) (by simp))
  · exact Safe.of_eq ((Frees.free none).safe ((Frees.free (some data)).safe .error)) (by simp)
  · exact Safe.of_eq ((Frees.free none).safe ((Frees.free none).safe .error)) (by simp)

/-- A name whose paths can be built has a table. -/
theorem table_of_buildTablePaths {dbRoot : Bytes} {name : QualifiedName} {paths : Bytes × Bytes}
    (h : buildTablePaths dbRoot name = .ok paths) : ∃ table, name.table = some table := by
  cases htable : name.table with
  | some table => exact ⟨table, rfl⟩
  | none =>
      rw [buildTablePaths_error (by simp [htable])] at h
      simp at h

theorem copyNameHeap_safe (hlender : lender ⊆ frame) {name : QualifiedName} {table : Bytes}
    (htable : name.table = some table) (paths : HeapString × HeapString) :
    Safe undefined (Owns HeapTable.blocks
        (fun named _ => named.columns = .empty ∧ named.schemaPath = paths.1 ∧
          named.dataPath = paths.2) frame frame)
      (paths.1.block + paths.2.block + frame) (copyNameHeap lender name paths)
      (copyName name) := by
  obtain ⟨schema, _⟩ := name
  obtain rfl : _ = some table := htable
  have hexit : ∀ schema table : HeapString, Safe undefined (Owns HeapTable.blocks
        (fun named _ => named.columns = .empty ∧ named.schemaPath = paths.1 ∧
          named.dataPath = paths.2) frame frame)
      (table.block + (schema.block + (paths.1.block + paths.2.block + frame)))
      (do
        freeTableDefinition ⟨schema, table, .empty, paths.1, paths.2⟩
        pure (.error (.outOfMemory "loading table")))
      (Alloc.fail (.outOfMemory "loading table") : Allocating Unit) := by
    intro schema table
    refine Safe.of_eq (Safe.exit (freeTableDefinition_frees _)) ?_
    simp only [HeapTable.blocks, HeapList.blocks_empty]
    abel
  refine Safe.use (lent hlender _) ?_
  cases schema with
  | none =>
      refine Safe.malloc (fun address => .value ⟨rfl, rfl, rfl⟩ ?_) ?_
      · simp [HeapTable.blocks]
      · exact (hexit .null .null).of_eq (by simp)
  | some schema =>
      refine Safe.malloc (fun schema => Safe.malloc (fun table => .value ⟨rfl, rfl, rfl⟩ ?_) ?_)
        (Safe.malloc (fun table => ?_) ?_)
      · simp [HeapTable.blocks]
      · exact (hexit ⟨some schema, _⟩ .null).of_eq (by simp)
      · exact (hexit .null ⟨some table, _⟩).of_eq (by simp)
      · exact (hexit .null .null).of_eq (by simp)

theorem loadTableDefinitionHeap_safe (hlender : lender ⊆ frame) (dbRoot : Bytes)
    (name : QualifiedName) (files : FileSystem) :
    Safe undefined (Owns HeapTable.blocks HeapTable.Matches frame frame) frame
      (loadTableDefinitionHeap lender dbRoot name files)
      (loadTableDefinitionAlloc dbRoot name files) := by
  unfold loadTableDefinitionHeap loadTableDefinitionAlloc
  cases hbuild : buildTablePaths dbRoot name with
  | error e =>
      unfold buildTablePathsHeap
      rw [hbuild]
      exact Safe.touch hlender .error
  | ok paths =>
      obtain ⟨schemaPath, dataPath⟩ := paths
      obtain ⟨table, htable⟩ := table_of_buildTablePaths hbuild
      refine Safe.andThen (buildTablePathsHeap_safe hlender dbRoot name hbuild)
        (fun e => ⟨rfl, rfl⟩) ?_
      rintro paths _ ⟨rfl, rfl⟩
      refine Safe.andThen (copyNameHeap_safe hlender htable paths) (fun e => ⟨rfl, rfl⟩) ?_
      rintro ⟨schema, table, _, _, _⟩ _ ⟨rfl, rfl, rfl⟩
      refine Safe.use (fun _ h => by simp [HeapTable.blocks, h]) ?_
      refine Safe.orReturn (readTextFileHeap_safe _ files) (freeTableDefinition_frees _)
        (fun e => ⟨rfl, rfl⟩) ?_
      rintro content _ rfl
      have hsplit := @splitPipeLineHeap_safe undefined content.block
        (content.block + HeapTable.blocks ⟨schema, table, .empty, paths.1, paths.2⟩ + frame)
        (fun _ h => by simp [h]) content.text
      have hheld : ∀ columns : HeapList, columns.blocks + (content.block +
          HeapTable.blocks ⟨schema, table, .empty, paths.1, paths.2⟩ + frame) =
          content.block + (HeapTable.blocks ⟨schema, table, columns, paths.1, paths.2⟩ + frame) := by
        intro columns
        simp only [HeapTable.blocks, HeapList.blocks_empty]
        abel
      refine Safe.enlarged hsplit (fun columns _ => ?_) fun columns => ?_
      · refine Safe.use (fun _ h => by simp [h]) ?_
        rw [hheld]
        split_ifs with hempty
        · exact (Frees.free content.pointer).safe (Safe.exit (freeTableDefinition_frees _))
        · exact (Frees.free content.pointer).safe (.value ⟨rfl, rfl⟩ rfl)
      · rw [hheld]
        exact (Frees.free content.pointer).safe (Safe.exit (freeTableDefinition_frees _))

end Tables

/-! ## INSERT is safe -/

section Insert

open Heap

variable {undefined : Failure → Prop} {lender frame : Multiset Resource}

theorem dropInsert_frees (table : HeapTable) (ordered : HeapList) (assigned : Nat) :
    Frees (ordered.blocks + ({.block assigned} + table.blocks))
      (dropInsert table ordered assigned) := by
  refine ((freeTableDefinition_frees table).bind ((stringListFree_frees ordered).bind
    (Frees.free (some assigned)))).of_eq ?_
  simp only [Pointer.block_some]
  abel

theorem placeValuesHeap_safe (hlender : lender ⊆ frame) (table : HeapTable)
    (assignedColumns : Nat) (pairs : List (Bytes × Bytes)) (ordered : HeapList)
    (assigned : List Bool)
    (hlength : ordered.strings.length = table.columns.strings.length) :
    Safe undefined (Owns HeapList.blocks (fun ordered y => ordered.texts = y)
        ({.block assignedColumns} + table.blocks + frame) frame)
      (ordered.blocks + ({.block assignedColumns} + table.blocks + frame))
      (placeValuesHeap lender table assignedColumns pairs ordered assigned)
      (placeValuesAlloc table.columns.texts pairs ordered.texts assigned) := by
  induction pairs generalizing ordered assigned with
  | nil => exact .value rfl rfl
  | cons pair pairs ih =>
      obtain ⟨name, value⟩ := pair
      have hexit : ∀ (ordered : HeapList) (e : Failure), Safe undefined
          (Owns HeapList.blocks (fun ordered y => ordered.texts = y)
            ({.block assignedColumns} + table.blocks + frame) frame)
          (ordered.blocks + ({.block assignedColumns} + table.blocks + frame))
          (do
            dropInsert table ordered assignedColumns
            pure (.error e)) (Alloc.fail e : Allocating (List Bytes)) := fun ordered e =>
        Safe.of_eq (Safe.exit (dropInsert_frees table ordered assignedColumns))
          (by simp only [add_assoc])
      unfold placeValuesHeap placeValuesAlloc
      refine Safe.use (fun r hr => ?_) ?_
      · rcases Multiset.mem_add.mp hr with hr | hr
        · simp [hlender hr]
        · simp [HeapTable.blocks, hr]
      cases hfind : findColumnIndex table.columns.texts name with
      | none => exact hexit ordered _
      | some target =>
          refine Safe.use (fun r hr => by simp at hr; simp [hr]) ?_
          dsimp only
          split_ifs with hassigned
          · exact hexit ordered _
          · have htarget : target < ordered.strings.length := by
              rw [hlength, ← HeapList.length_texts]
              exact findColumnIndex_lt hfind
            obtain ⟨rest, hslot, hset⟩ := exists_stringBlocks_set htarget
            refine Safe.use (fun _ h => by simp [HeapList.blocks, h]) ?_
            have hheld : ordered.blocks + ({.block assignedColumns} + table.blocks + frame) =
                (ordered.strings.getD target .null).pointer.block + (rest + ordered.items.block +
                  ({.block assignedColumns} + table.blocks + frame)) := by
              rw [HeapList.blocks, hslot, HeapString.block]
              abel
            rw [hheld]
            refine (Frees.free _).safe (Safe.malloc (fun address => ?_) ?_)
            · have htexts : ordered.texts.set target value = HeapList.texts
                  { ordered with strings := ordered.strings.set target ⟨some address, value⟩ } := by
                simp [HeapList.texts, List.map_set]
              dsimp only
              rw [htexts]
              refine Safe.of_eq (ih { ordered with
                strings := ordered.strings.set target ⟨some address, value⟩ } _ ?_) ?_
              · simpa using hlength
              · rw [HeapList.blocks, hset, HeapString.block_mk, Pointer.block_some]
                abel
            · refine (hexit { ordered with strings := ordered.strings.set target .null } _).of_eq ?_
              rw [HeapList.blocks, hset, HeapString.block_null]
              abel

/-- `append_insert_row` owns nothing behind any of its exits, whatever is refused. -/
theorem appendInsertRowHeap_safe (hlender : lender ⊆ frame) (dbRoot : Bytes)
    (statement : InsertStatement) (files : FileSystem) :
    Safe undefined
      (Owns (fun _ => 0) (fun files' y => files' = appendTextFile y.1 y.2 files) frame frame) frame
      (appendInsertRowHeap lender dbRoot statement files)
      (prepareInsertAlloc dbRoot statement files) := by
  unfold appendInsertRowHeap prepareInsertAlloc
  split_ifs with hcount
  · exact .error
  · refine Safe.andThen (loadTableDefinitionHeap_safe hlender dbRoot statement.target files)
      (fun e => ⟨rfl, rfl⟩) ?_
    rintro table definition ⟨hcolumns, hdataPath⟩
    refine Safe.orReturn Safe.demand (freeTableDefinition_frees table) (fun e => ⟨rfl, rfl⟩)
      fun assigned _ _ => ?_
    have hlength : definition.columns.length = table.columns.strings.length := by
      rw [← hcolumns, HeapList.length_texts]
    have hslots := @appendAllHeap_safe undefined ({.block assigned} + table.blocks + frame)
      (.outOfMemory "building row") (List.replicate table.columns.strings.length []) .empty
      (fun h => absurd rfl h)
    rw [HeapList.blocks_empty, zero_add] at hslots
    rw [hlength]
    have hdrop : ∀ ordered : HeapList, Frees (ordered.blocks + ({.block assigned} + table.blocks))
        (dropInsert table ordered assigned) := fun ordered => dropInsert_frees table ordered assigned
    refine Safe.enlarged hslots (fun ordered hordered => ?_) fun ordered => ?_
    · have hplace := @placeValuesHeap_safe undefined _ _ hlender table assigned
        (statement.columns.zip statement.values) ordered
        (List.replicate table.columns.strings.length false) (by
          rw [← HeapList.length_texts, hordered.1]
          simp)
      rw [hcolumns] at hplace
      refine Safe.andThen hplace (fun e => ⟨rfl, rfl⟩) ?_
      rintro ordered _ rfl
      rw [← add_assoc]
      refine Safe.orReturn (serializeRowHeap_safe ordered fun _ h => by simp [h]) (hdrop ordered)
        (fun e => ⟨rfl, rfl⟩) ?_
      rintro row _ rfl
      refine Safe.use (fun r hr => ?_) ?_
      · rcases Multiset.mem_add.mp hr with hr | hr
        · simp [hr]
        · simp [HeapTable.blocks, hr]
      have hwritten : Frees (row.block + (ordered.blocks + ({.block assigned} + table.blocks)))
          (do
            Heap.free row.pointer
            dropInsert table ordered assigned) :=
        (Frees.free row.pointer).bind (hdrop ordered)
      rw [hdataPath]
      refine Safe.orReturn (writeModeFileHeap_safe _ _) hwritten (fun e => ⟨rfl, rfl⟩) ?_
      rintro _ _ rfl
      refine Safe.of_eq ((Frees.free row.pointer).safe ((stringListFree_frees ordered).safe
        ((freeTableDefinition_frees table).safe ((Frees.free (some assigned)).safe
          (.value rfl (zero_add _).symm))))) ?_
      simp only [HeapString.block, Pointer.block_some]
      abel
    · refine Safe.of_eq (Safe.exit (hdrop ordered)) ?_
      simp only [add_assoc]

/-- A run of `append_insert_row` uses and gives back only what it holds, and leaves nothing
behind, whatever is refused. -/
theorem appendInsertRowHeap_run (allocator : Heap.Allocator) (pattern : Nat → Bool)
    (lender held : Multiset Resource) (dbRoot : Bytes) (statement : InsertStatement)
    (files : FileSystem) :
    ∃ answer, (appendInsertRowHeap lender dbRoot statement files).run allocator pattern
        (lender + held) = .ok (answer, lender + held) ∧
      ∀ affectedRows, (appendInsertRowUnder pattern dbRoot statement affectedRows files).result =
          answer.map (fun _ => ()) ∧
        (appendInsertRowUnder pattern dbRoot statement affectedRows files).files =
          answer.toOption.getD files := by
  have hsafe := @appendInsertRowHeap_safe (fun _ => False) lender (lender + held)
    (Multiset.subset_of_le (Multiset.le_add_right lender held)) dbRoot statement files
  rcases hsafe.run allocator pattern with ⟨answer, held', hrun, howns⟩ | ⟨-, _, -, h⟩
  · have hunder : ∀ affectedRows,
        (appendInsertRowAlloc dbRoot statement affectedRows files).run pattern =
          (((prepareInsertAlloc dbRoot statement files).run pattern).mapError fun e =>
            ⟨.error e, affectedRows, files⟩).map fun row =>
              ⟨.ok (), 1, appendTextFile row.1 row.2 files⟩ := fun affectedRows => by
      rw [← Alloc.run_mapError, ← Alloc.run_bind_done]
      rfl
    unfold appendInsertRowUnder
    simp only [hunder]
    cases hprepare : (prepareInsertAlloc dbRoot statement files).run pattern with
    | error e =>
        rw [hprepare] at howns
        cases answer with
        | error e' =>
            obtain ⟨rfl, rfl⟩ := howns
            exact ⟨_, hrun, fun _ => ⟨rfl, rfl⟩⟩
        | ok files' => exact howns.elim
    | ok row =>
        rw [hprepare] at howns
        cases answer with
        | error e' => exact howns.elim
        | ok files' =>
            obtain ⟨rfl, hheld⟩ := howns
            rw [zero_add] at hheld
            subst hheld
            exact ⟨_, hrun, fun _ => ⟨rfl, rfl⟩⟩
  · exact h.elim

end Insert

end MiniSql
