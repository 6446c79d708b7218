import MiniSql.Parser.Memory
import MiniSql.Storage.Ownership

set_option autoImplicit false

/-!
# SELECT with what it owns

`run_select_query` and `free_query_result` with the blocks and streams they acquire, use
and give back.  Two exits of the query lose what they hold.  The statement is as the parser
builds it: the column of its WHERE clause may be NULL.
-/

namespace MiniSql

open Foundation

/-! ## Results -/

/-- `QueryResult`. -/
structure HeapResult where
  columns : HeapList
  rowItems : Pointer
  rows : List HeapList
  capacity : Nat

/-- The result after `memset` or `free_query_result`. -/
def HeapResult.empty : HeapResult := ⟨.empty, none, [], 0⟩

/-- The blocks of the values of the rows. -/
def rowBlocks : List HeapList → Multiset Resource
  | [] => 0
  | row :: rows => row.blocks + rowBlocks rows

def HeapResult.blocks (result : HeapResult) : Multiset Resource :=
  result.columns.blocks + (rowBlocks result.rows + result.rowItems.block)

/-- The result without addresses. -/
def HeapResult.query (result : HeapResult) : QueryResult :=
  ⟨result.columns.texts, result.rows.map HeapList.texts⟩

/-- The loop of `free_query_result`, and the `free` behind it. -/
def freeRows (items : Pointer) : List HeapList → Heap Unit
  | [] => Heap.free items
  | row :: rows => do
      Heap.use items.block
      stringListFree row
      freeRows items rows

/-- `free_query_result`. -/
def freeQueryResult (result : HeapResult) : Heap Unit := do
  stringListFree result.columns
  freeRows result.rowItems result.rows

/-- `query_result_append_row`. -/
def queryResultAppendRowHeap (result : HeapResult) (values : HeapList) :
    Heap (Bool × HeapResult) := do
  match ← Heap.reserve (result.rows.length == result.capacity) result.rowItems
      (doubled 4 result.capacity) result.capacity with
  | none => pure (false, result)
  | some (rowItems, capacity) => do
      Heap.use (rowItems.block + values.blocks)
      match ← appendAllHeap values.texts .empty with
      | (false, row) => do
          stringListFree row
          pure (false, { result with rowItems, capacity })
      | (true, row) =>
          pure (true, ⟨result.columns, rowItems, result.rows ++ [row], capacity⟩)

/-! ## The query up to the data file -/

/-- The loop over the requested columns, of a statement in the blocks `lender`.  When a name
is unknown the columns projected so far are not freed. -/
def selectColumnsHeap (lender : Multiset Resource) (table : HeapTable) (selected : Nat) :
    List Bytes → List Nat → HeapList → Heap (Except Failure (List Nat × HeapList))
  | [], indexes, projected => pure (.ok (indexes, projected))
  | name :: names, indexes, projected => do
      Heap.use (lender + table.columns.blocks)
      match findColumnIndex table.columns.texts name with
      | none => do
          Heap.free (some selected)
          freeTableDefinition table
          pure (.error (.sql (.unknownSelectColumn name)))
      | some index => do
          Heap.use {.block selected}
          match ← stringListAppendHeap projected (table.columns.texts.getD index []) with
          | (false, projected) => do
              Heap.free (some selected)
              freeTableDefinition table
              stringListFree projected
              pure (.error (.outOfMemory "preparing result columns"))
          | (true, projected) =>
              selectColumnsHeap lender table selected names (indexes ++ [index]) projected

/-- `selected_indexes` and the projected columns of a query. -/
structure HeapColumns where
  selected : Nat
  indexes : List Nat
  projected : HeapList

def HeapColumns.blocks (columns : HeapColumns) : Multiset Resource :=
  columns.projected.blocks + {.block columns.selected}

/-- The columns of the result. -/
def prepareColumnsHeap (lender : Multiset Resource) (table : HeapTable)
    (statement : BuiltSelect) : Heap (Except Failure HeapColumns) :=
  if statement.selectAll then do
    Heap.use table.columns.blocks
    match ← appendAllHeap table.columns.texts .empty with
    | (false, projected) => do
        freeTableDefinition table
        stringListFree projected
        pure (.error (.outOfMemory "preparing result columns"))
    | (true, projected) =>
        (Heap.demand (.outOfMemory "preparing result")).orReturn
          (do
            freeTableDefinition table
            stringListFree projected) fun selected => do
          Heap.use {.block selected}
          pure (.ok ⟨selected, List.range table.columns.strings.length, projected⟩)
  else
    (Heap.demand (.outOfMemory "preparing result")).orReturn (freeTableDefinition table)
      fun selected =>
      (selectColumnsHeap lender table selected statement.columns [] .empty).andThen
        fun (indexes, projected) => pure (.ok ⟨selected, indexes, projected⟩)

/-- The table and the columns of a query. -/
def prepareProjectionHeap (lender : Multiset Resource) (dbRoot : Bytes)
    (statement : BuiltSelect) (files : FileSystem) :
    Heap (Except Failure (HeapTable × HeapColumns)) :=
  (loadTableDefinitionHeap lender dbRoot statement.source files).andThen fun table =>
  (prepareColumnsHeap lender table statement).andThen fun columns =>
    pure (.ok (table, columns))

/-- The search for the column of the WHERE clause; `sql_stricmp` reads the name, which must
not be NULL. -/
def prepareWhereHeap (lender : Multiset Resource) (table : HeapTable) :
    Option BuiltWhere → Heap (Except SqlError (Option (Nat × Bytes)))
  | none => pure (.ok none)
  | some where_ => do
      Heap.use (lender + table.columns.blocks)
      match where_.column with
      | none => .fault
      | some column => pure (prepareWhere table.columns.texts (some ⟨column, where_.value⟩))

/-- The stream of the data file, which is created when there is none, and the files. -/
def openDataFileHeap (path : HeapString) (files : FileSystem) :
    Heap (Except Failure (Nat × FileSystem)) := do
  Heap.use path.block
  match files path.text with
  | some _ => do
      let stream ← Heap.openStream
      pure (.ok (stream, files))
  | none =>
      (ensureParentDirectoryHeap path.text).andThen fun _ =>
      (writeModeFileHeap path.text (writeTextFile path.text [] files)).andThen fun files => do
        let stream ← Heap.openStream
        pure (.ok (stream, files))

/-! ## The query -/

/-- The first calls of every exit behind the data file. -/
def closeQuery (stream selected : Nat) (table : HeapTable) : Heap Unit := do
  Heap.fclose stream
  Heap.free (some selected)
  freeTableDefinition table

/-- The loop of `run_select_query` over the records.  Where `split_pipe_line` fails, the
values it may have left behind are not freed. -/
def selectRowsHeap (lender : Multiset Resource) (stream selected : Nat) (table : HeapTable)
    (indexes : List Nat) (test : Option (Nat × Bytes)) :
    List Bytes → HeapResult → Heap (Except Failure HeapResult)
  | [], result => do
      Heap.use {.stream stream}
      pure (.ok result)
  | record :: records, result => do
      Heap.use {.stream stream}
      match ← splitPipeLineHeap 0 record with
      | (false, _) => do
          closeQuery stream selected table
          freeQueryResult result
          pure (.error (.outOfMemory "parsing row"))
      | (true, values) =>
          if values.strings.length ≠ table.columns.strings.length then do
            closeQuery stream selected table
            stringListFree values
            freeQueryResult result
            pure (.error (.sql .rowColumnCountMismatch))
          else do
            Heap.use (values.blocks + lender)
            if passesWhere test values.texts = false then do
              stringListFree values
              selectRowsHeap lender stream selected table indexes test records result
            else do
              Heap.use {.block selected}
              match ← appendAllHeap (indexes.map fun index => values.texts.getD index [])
                  .empty with
              | (false, projected) => do
                  closeQuery stream selected table
                  stringListFree values
                  stringListFree projected
                  freeQueryResult result
                  pure (.error (.outOfMemory "building result"))
              | (true, projected) => do
                  match ← queryResultAppendRowHeap result projected with
                  | (false, result) => do
                      closeQuery stream selected table
                      stringListFree values
                      stringListFree projected
                      freeQueryResult result
                      pure (.error (.outOfMemory "building result"))
                  | (true, result) => do
                      stringListFree values
                      stringListFree projected
                      selectRowsHeap lender stream selected table indexes test records result

/-- What `run_select_query` answers, and `*result` and the files after it. -/
structure HeapAttempt where
  result : Except Failure Unit
  query : HeapResult
  files : FileSystem

/-- The exits of `run_select_query` between the columns and the records. -/
def dropColumns (table : HeapTable) (columns : HeapColumns) : Heap Unit := do
  Heap.free (some columns.selected)
  freeTableDefinition table
  stringListFree columns.projected

/-- The part of `run_select_query` from the data file on. -/
def readDataFileHeap (lender : Multiset Resource) (table : HeapTable) (columns : HeapColumns)
    (test : Option (Nat × Bytes)) (files : FileSystem) : Heap HeapAttempt := do
  match ← openDataFileHeap table.dataPath files with
  | .error e => do
      dropColumns table columns
      pure ⟨.error e, .empty, files⟩
  | .ok (stream, files) => do
      match ← selectRowsHeap lender stream columns.selected table columns.indexes test
          (readRecords (files.content table.dataPath.text))
          ⟨columns.projected, none, [], 0⟩ with
      | .error e => pure ⟨.error e, .empty, files⟩
      | .ok query => do
          closeQuery stream columns.selected table
          pure ⟨.ok (), query, files⟩

/-- The part of `run_select_query` behind the columns. -/
def queryTableHeap (lender : Multiset Resource) (table : HeapTable) (columns : HeapColumns)
    (where_ : Option BuiltWhere) (files : FileSystem) : Heap HeapAttempt := do
  match ← prepareWhereHeap lender table where_ with
  | .error e => do
      dropColumns table columns
      pure ⟨.error (.sql e), .empty, files⟩
  | .ok test => readDataFileHeap lender table columns test files

/-- `run_select_query` of a statement in the blocks `lender`. -/
def runSelectQueryHeap (lender : Multiset Resource) (dbRoot : Bytes) (statement : BuiltSelect)
    (files : FileSystem) : Heap HeapAttempt := do
  match ← prepareProjectionHeap lender dbRoot statement files with
  | .error e => pure ⟨.error e, .empty, files⟩
  | .ok (table, columns) => queryTableHeap lender table columns statement.where_ files

/-! ## The query without addresses -/

/-- The statement without its WHERE clause. -/
def BuiltSelect.unfiltered (statement : BuiltSelect) : SelectStatement :=
  ⟨statement.source, statement.selectAll, statement.columns, none⟩

/-- The table and the columns of a query, with the requests for them. -/
def prepareProjectionAlloc (dbRoot : Bytes) (statement : BuiltSelect) (files : FileSystem) :
    Allocating (TableDefinition × List Nat × List Bytes) := do
  let table ← loadTableDefinitionAlloc dbRoot statement.source files
  let (indexes, projected) ← prepareColumnsAlloc table.columns statement.unfiltered
  pure (table, indexes, projected)

/-- The search for the column of the WHERE clause; `none` where it is NULL. -/
def prepareWhereBuilt (columns : List Bytes) :
    Option BuiltWhere → Option (Except SqlError (Option (Nat × Bytes)))
  | none => some (.ok none)
  | some where_ => where_.column.map fun column =>
      prepareWhere columns (some ⟨column, where_.value⟩)

/-- The part of `run_select_query` from the data file on. -/
def readDataFile (plan : SelectPlan) (files : FileSystem) : Alloc Request Unit SelectAttempt :=
  (prepareDataFile plan.table.dataPath files).test id fun
    | .error e => .done ⟨.error e, .empty, files⟩
    | .ok () =>
        let files := ensureDataFile plan.table.dataPath files
        (selectRowsAlloc plan (readRecords (files.content plan.table.dataPath)) [] 0).test id fun
          | .error e => .done ⟨.error e, .empty, files⟩
          | .ok rows => .done ⟨.ok (), ⟨plan.projected, rows⟩, files⟩

/-- The part of `run_select_query` behind the columns.  It fails where it dereferences
NULL. -/
def queryTable (table : TableDefinition) (indexes : List Nat) (projected : List Bytes)
    (where_ : Option BuiltWhere) (files : FileSystem) : Alloc Request Unit SelectAttempt :=
  match prepareWhereBuilt table.columns where_ with
  | none => .fail ()
  | some (.error e) => .done ⟨.error (.sql e), .empty, files⟩
  | some (.ok test) => readDataFile ⟨table, indexes, projected, test⟩ files

/-- `run_select_query` of a statement as it is built. -/
def runSelectQueryBuilt (dbRoot : Bytes) (statement : BuiltSelect) (files : FileSystem) :
    Alloc Request Unit SelectAttempt :=
  (prepareProjectionAlloc dbRoot statement files).test id fun
    | .error e => .done ⟨.error e, .empty, files⟩
    | .ok (table, indexes, projected) =>
        queryTable table indexes projected statement.where_ files

/-! ## Results are safe -/

section Results

open Heap

variable {undefined : Failure → Prop} {frame : Multiset Resource}

theorem rowBlocks_append (rows : List HeapList) (row : HeapList) :
    rowBlocks (rows ++ [row]) = row.blocks + rowBlocks rows := by
  induction rows with
  | nil => rfl
  | cons first rows ih =>
      rw [List.cons_append, rowBlocks, ih, rowBlocks]
      abel

theorem freeRows_frees (items : Pointer) (rows : List HeapList) :
    Frees (rowBlocks rows + items.block) (freeRows items rows) := by
  induction rows with
  | nil => exact (Frees.free items).of_eq (zero_add _)
  | cons row rows ih =>
      have hrest := (stringListFree_frees row).bind ih
      rw [← add_assoc] at hrest
      exact .touch (fun _ h => Multiset.mem_add.mpr (.inr h)) hrest

theorem freeQueryResult_frees (result : HeapResult) :
    Frees result.blocks (freeQueryResult result) :=
  (stringListFree_frees result.columns).bind (freeRows_frees result.rowItems result.rows)

/-- The rows of a result without addresses, with their capacity. -/
def HeapResult.value (result : HeapResult) : List (List Bytes) × Nat :=
  (result.rows.map HeapList.texts, result.capacity)

theorem queryResultAppendRowHeap_safe (result : HeapResult) {values : HeapList}
    (hvalues : values.blocks ⊆ frame) :
    Safe undefined
      (Enlarges (fun result' => result'.columns = result.columns) HeapResult.blocks
        HeapResult.value (.outOfMemory "building result") frame)
      (result.blocks + frame) (queryResultAppendRowHeap result values)
      (queryResultAppendRow (result.rows.map HeapList.texts) result.capacity values.texts) := by
  obtain ⟨columns, rowItems, rows, capacity⟩ := result
  have hheld : ∀ (rowItems : Pointer) (capacity : Nat),
      HeapResult.blocks ⟨columns, rowItems, rows, capacity⟩ + frame =
        rowItems.block + (columns.blocks + rowBlocks rows + frame) := by
    intro rowItems capacity
    simp only [HeapResult.blocks]
    abel
  rw [hheld, queryResultAppendRow, List.length_map]
  refine Safe.reserve (fun rowItems _ => ?_) fun _ => .fail ⟨rfl, (hheld _ _).symm⟩
  refine Safe.use (fun r hr => ?_) ?_
  · rcases Multiset.mem_add.mp hr with hr | hr
    · simp [hr]
    · simp [hvalues hr]
  have hrow := @appendAllHeap_safe undefined
    (rowItems.block + (columns.blocks + rowBlocks rows + frame))
    (.outOfMemory "building result") values.texts .empty (fun h => absurd rfl h)
  rw [HeapList.blocks_empty, zero_add] at hrow
  refine Safe.enlarged hrow (fun row hrow => ?_) fun row => ?_
  · refine .done ⟨rfl, ?_, ?_⟩
    · simp [HeapResult.value]
    · simp only [HeapResult.blocks, rowBlocks_append]
      abel
  · exact (stringListFree_frees row).safe (.fail ⟨rfl, (hheld _ _).symm⟩)

end Results

/-! ## The columns -/

section Columns

open Heap

variable {undefined : Failure → Prop} {lender frame : Multiset Resource}

/-- A requested column is unknown, and it is not the first one. -/
def LosesColumns (names : List Bytes) (e : Failure) : Prop :=
  ∃ name, e = .sql (.unknownSelectColumn name) ∧ names.head? ≠ some name

/-- What is left of the columns behind an error: something exactly where an unknown name
stands behind one that is known. -/
def ColumnsLost (names : List Bytes) (e : Failure) (remains : Multiset Resource) : Prop :=
  Closed remains ∧ (remains ≠ 0 ↔ LosesColumns names e)

/-- A failure that finds no unknown column. -/
def KnowsColumns (e : Failure) : Prop := ∀ name, e ≠ .sql (.unknownSelectColumn name)

theorem KnowsColumns.outOfMemory (task : String) : KnowsColumns (.outOfMemory task) := by
  simp [KnowsColumns]

theorem KnowsColumns.not_loses {names : List Bytes} {e : Failure} (h : KnowsColumns e) :
    ¬ LosesColumns names e := by
  rintro ⟨name, rfl, -⟩
  exact h name rfl

/-- Nothing is left behind a failure that finds no unknown column. -/
theorem ColumnsLost.zero {names : List Bytes} {e : Failure} (h : KnowsColumns e) :
    ColumnsLost names e 0 :=
  ⟨.zero, iff_of_false (fun hne => hne rfl) h.not_loses⟩

/-- The columns projected so far are lost when a name is unknown. -/
theorem selectColumnsHeap_safe (hlender : lender ⊆ frame) (table : HeapTable) (selected : Nat)
    (names : List Bytes) (indexes : List Nat) (projected : HeapList)
    (hprojected : projected.blocks ≠ 0 ↔ projected.texts ≠ []) :
    Safe undefined
      (Leaks (fun x : List Nat × HeapList => x.2.blocks)
        (fun x y => x.1 = y.1 ∧ x.2.texts = y.2) ({.block selected} + table.blocks + frame)
        (fun e remains => Closed remains ∧
          (remains ≠ 0 ↔ ∃ name, e = .sql (.unknownSelectColumn name) ∧
            (projected.texts ≠ [] ∨ names.head? ≠ some name)) ∧
          ∀ name, e = .sql (.unknownSelectColumn name) →
            findColumnIndex table.columns.texts name = none) frame)
      (projected.blocks + ({.block selected} + table.blocks + frame))
      (selectColumnsHeap lender table selected names indexes projected)
      (selectColumnsAlloc table.columns.texts names indexes projected.texts
        projected.capacity) := by
  induction names generalizing indexes projected with
  | nil => exact .done ⟨⟨rfl, rfl⟩, rfl⟩
  | cons name names ih =>
      unfold selectColumnsHeap selectColumnsAlloc
      refine Safe.use (fun r hr => ?_) ?_
      · rcases Multiset.mem_add.mp hr with hr | hr
        · simp [hlender hr]
        · simp [HeapTable.blocks, hr]
      have hheld : ∀ projected : HeapList,
          projected.blocks + ({.block selected} + table.blocks + frame) =
            {.block selected} + (table.blocks + (projected.blocks + frame)) := by
        intro projected
        abel
      cases hfind : findColumnIndex table.columns.texts name with
      | none =>
          rw [hheld]
          refine (Frees.free (some selected)).safe ((freeTableDefinition_frees table).safe ?_)
          refine .fail ⟨rfl, projected.blocks, ⟨projected.closed, ?_, ?_⟩, rfl⟩
          · rw [hprojected]
            constructor
            · exact fun h => ⟨name, rfl, .inl h⟩
            · rintro ⟨name', he, h⟩
              obtain rfl : name = name' := by simpa using he
              exact h.resolve_right fun h => h rfl
          · intro name' he
            obtain rfl : name = name' := by simpa using he
            exact hfind
      | some index =>
          refine Safe.use (fun r hr => by simp at hr; simp [hr]) ?_
          refine Safe.enlarged (stringListAppendHeap_safe projected _)
            (fun projected' hprojected' => ?_) fun projected' => ?_
          · have hne : projected'.texts ≠ [] := by simp [hprojected'.1]
            refine Safe.mono (ih _ projected' (iff_of_true (hprojected'.2 (by simp)) hne)) ?_
            rintro (e | x) (e' | y) held h
            · obtain ⟨rfl, remains, ⟨hclosed, hremains, hunknown⟩, rfl⟩ := h
              refine ⟨rfl, remains, ⟨hclosed, ?_, hunknown⟩, rfl⟩
              rw [hremains]
              -- the unknown name is another one than this
              refine exists_congr fun name' => and_congr_right fun he => iff_of_true (.inl hne) ?_
              refine .inr fun hhead => ?_
              obtain rfl : name = name' := by simpa using hhead
              simp [hunknown name he] at hfind
            · exact h
            · exact h
            · exact h
          · rw [hheld]
            refine (Frees.free (some selected)).safe ((freeTableDefinition_frees table).safe
              ((stringListFree_frees projected').safe (.fail ⟨rfl, 0, ?_, (zero_add _).symm⟩)))
            exact ⟨.zero, by simp, by simp⟩

theorem prepareColumnsHeap_safe (hlender : lender ⊆ frame) {table : HeapTable}
    {columns : List Bytes} (hcolumns : table.columns.texts = columns)
    (statement : BuiltSelect) :
    Safe undefined
      (Leaks HeapColumns.blocks (fun x y => x.indexes = y.1 ∧ x.projected.texts = y.2)
        (table.blocks + frame) (ColumnsLost statement.columns) frame)
      (table.blocks + frame) (prepareColumnsHeap lender table statement)
      (prepareColumnsAlloc columns statement.unfiltered) := by
  subst hcolumns
  unfold prepareColumnsHeap prepareColumnsAlloc
  have hrefused : ∀ task, ColumnsLost statement.columns (.outOfMemory task) 0 :=
    fun task => .zero (.outOfMemory task)
  have hheld : ∀ projected : HeapList,
      projected.blocks + (table.blocks + frame) = table.blocks + (projected.blocks + frame) := by
    intro projected
    abel
  by_cases hall : statement.selectAll = true
  · rw [if_pos hall, if_pos (show statement.unfiltered.selectAll = true from hall)]
    refine Safe.use (fun _ h => by simp [HeapTable.blocks, h]) ?_
    have hprojected := @appendAllHeap_safe undefined (table.blocks + frame)
      (.outOfMemory "preparing result columns") table.columns.texts .empty
      (fun h => absurd rfl h)
    rw [HeapList.blocks_empty, zero_add] at hprojected
    refine Safe.enlarged hprojected (fun projected hprojected => ?_) fun projected => ?_
    · have hcleanup : Frees (table.blocks + projected.blocks) (do
          freeTableDefinition table
          stringListFree projected) :=
        (freeTableDefinition_frees table).bind (stringListFree_frees projected)
      rw [hheld, ← add_assoc]
      refine Safe.demanded hcleanup ⟨rfl, 0, hrefused _, (zero_add _).symm⟩ fun selected => ?_
      refine Safe.use (fun r hr => by simp at hr; simp [hr]) (.done ⟨⟨?_, rfl⟩, ?_⟩)
      · simp
      · rw [HeapColumns.blocks]
        abel
    · rw [hheld]
      exact (freeTableDefinition_frees table).safe ((stringListFree_frees projected).safe
        (.fail ⟨rfl, 0, hrefused _, (zero_add _).symm⟩))
  · rw [if_neg hall, if_neg (show ¬ statement.unfiltered.selectAll = true from hall)]
    rw [← Alloc.bind_done (selectColumnsAlloc _ _ _ _ _)]
    refine Safe.demanded (freeTableDefinition_frees table)
      ⟨rfl, 0, hrefused _, (zero_add _).symm⟩ fun selected => ?_
    have hselect := @selectColumnsHeap_safe undefined _ _ hlender table selected
      statement.columns [] .empty (by simp)
    rw [HeapList.blocks_empty, zero_add] at hselect
    refine Safe.leaking hselect (fun e remains hlost => ⟨rfl, remains, ⟨hlost.1, ?_⟩, rfl⟩) ?_
    · simpa [LosesColumns] using hlost.2.1
    · rintro ⟨indexes, projected⟩ ⟨_, _⟩ ⟨rfl, rfl⟩
      refine .done ⟨⟨rfl, rfl⟩, ?_⟩
      rw [HeapColumns.blocks]
      abel

end Columns

/-! ## What the other parts fail with -/

section Failing

open Alloc

variable {P : Failure → Prop}

theorem stringListAppend_failsWith {e : Failure} (he : P e)
    (list : List Bytes) (capacity : Nat) (value : Bytes) :
    (stringListAppend e list capacity value).FailsWith P :=
  (FailsWith.reserve he _ _ _ _).bind fun _ => (FailsWith.demand he _).bind fun _ => trivial

theorem splitPipeFromAlloc_failsWith (hP : P (.outOfMemory "parsing row")) (buffer line : Bytes)
    (capacity : Nat) (values : List Bytes) (valuesCapacity : Nat) :
    (splitPipeFromAlloc buffer capacity values valuesCapacity line).FailsWith P := by
  have hfield : ∀ (buffer : Bytes) (capacity : Nat) (values : List Bytes) (valuesCapacity : Nat),
      (endField buffer capacity values valuesCapacity).FailsWith P := fun _ _ _ _ =>
    (FailsWith.reserve hP _ _ _ _).bind fun _ => stringListAppend_failsWith hP _ _ _
  fun_induction splitPipeFromAlloc buffer capacity values valuesCapacity line with
  | case1 buffer capacity values valuesCapacity => exact (hfield _ _ _ _).bind fun _ => trivial
  | case2 buffer capacity values valuesCapacity rest =>
      exact (hfield _ _ _ _).bind fun _ => trivial
  | case3 buffer capacity values valuesCapacity rest hnewline ih => exact ih
  | case4 buffer capacity values valuesCapacity rest hnewline hcr ih =>
      exact (hfield _ _ _ _).bind fun r => ih r.1 r.2
  | case5 buffer capacity values valuesCapacity ch rest hnewline hcr hpipe ihEscape ih =>
      refine (FailsWith.reserve hP _ _ _ _).bind fun capacity => ?_
      split
      · have hescape := ihEscape capacity
        cases rest with
        | nil => exact hescape
        | cons next rest =>
            dsimp only
            cases hnext : unescapeByte next with
            | none => exact hescape.2
            | some b => exact hescape.1 b
      · exact ih capacity

theorem ensureParentDirectory_failsWith (path : Bytes) :
    (ensureParentDirectory path).FailsWith KnowsColumns := by
  unfold ensureParentDirectory
  cases parentPath path with
  | none => trivial
  | some parent =>
      refine (FailsWith.demand (.outOfMemory _) _).bind fun _ => ?_
      split
      · trivial
      · exact FailsWith.demand (.outOfMemory _) _

theorem prepareDataFile_failsWith (path : Bytes) (files : FileSystem) :
    (prepareDataFile path files).FailsWith KnowsColumns := by
  unfold prepareDataFile
  split
  · exact (ensureParentDirectory_failsWith path).bind fun _ => ensureParentDirectory_failsWith path
  · trivial

theorem loadTableDefinitionAlloc_failsWith (dbRoot : Bytes) (name : QualifiedName)
    (files : FileSystem) :
    (loadTableDefinitionAlloc dbRoot name files).FailsWith KnowsColumns := by
  unfold loadTableDefinitionAlloc
  cases hbuild : buildTablePaths dbRoot name with
  | error e =>
      rintro name' ⟨⟩
      by_cases htable : name.table.getD [] = []
      · rw [buildTablePaths_error htable] at hbuild
        simp at hbuild
      · rw [buildTablePaths_eq htable] at hbuild
        simp at hbuild
  | ok paths =>
      obtain ⟨schemaPath, dataPath⟩ := paths
      refine (FailsWith.demandBoth (.outOfMemory _) _ _).bind fun _ => ?_
      refine FailsWith.bind ?_ fun _ => FailsWith.bind ?_ fun content =>
        (splitPipeFromAlloc_failsWith (.outOfMemory _) _ _ _ _ _).bind fun columns => ?_
      · unfold copyName
        split
        · exact FailsWith.demandBoth (.outOfMemory _) _ _
        · exact FailsWith.demand (.outOfMemory _) _
      · unfold readTextFileAlloc readTextFile
        cases files schemaPath with
        | none => simp [FailsWith, KnowsColumns]
        | some content =>
            exact (FailsWith.demand (by simp [KnowsColumns]) _).bind fun _ => trivial
      · split
        · simp [FailsWith, KnowsColumns]
        · trivial

end Failing

/-! ## The query is safe -/

section Query

open Heap

variable {undefined : Failure → Prop} {lender frame : Multiset Resource}

theorem prepareProjectionHeap_safe (hlender : lender ⊆ frame) (dbRoot : Bytes)
    (statement : BuiltSelect) (files : FileSystem) :
    Safe undefined
      (Leaks (fun x => x.2.blocks + x.1.blocks)
        (fun x y => HeapTable.Matches x.1 y.1 ∧ x.2.indexes = y.2.1 ∧
          x.2.projected.texts = y.2.2) frame (ColumnsLost statement.columns) frame) frame
      (prepareProjectionHeap lender dbRoot statement files)
      (prepareProjectionAlloc dbRoot statement files) := by
  have hload := (@loadTableDefinitionHeap_safe undefined _ _ hlender dbRoot statement.source
    files).failing (loadTableDefinitionAlloc_failsWith dbRoot statement.source files)
  refine Safe.bind hload ?_ ?_
  · rintro (e | table) definition held ⟨h, -⟩
    · exact h.elim
    · obtain ⟨hmatches, rfl⟩ := h
      refine Safe.leaking (prepareColumnsHeap_safe hlender hmatches.1 statement)
        (fun e remains hlost => ⟨rfl, remains, hlost, rfl⟩) ?_
      rintro columns ⟨_, _⟩ ⟨rfl, rfl⟩
      exact .done ⟨⟨hmatches, rfl, rfl⟩, (add_assoc _ _ _).symm⟩
  · rintro (e' | table) e held ⟨h, hknows⟩
    · obtain ⟨rfl, rfl⟩ := h
      exact .fail ⟨rfl, 0, .zero (hknows _ rfl), (zero_add _).symm⟩
    · exact h.elim

/-- The stream of the data file is opened, behind what has to be written first. -/
theorem openDataFileHeap_safe {path : HeapString} (hpath : path.block ⊆ frame)
    (files : FileSystem) :
    Safe undefined
      (Owns (fun x : Nat × FileSystem => {.stream x.1})
        (fun x _ => x.2 = ensureDataFile path.text files) frame frame) frame
      (openDataFileHeap path files) (prepareDataFile path.text files) := by
  unfold openDataFileHeap prepareDataFile
  refine Safe.use hpath ?_
  cases hfile : files path.text with
  | some content =>
      refine Safe.openStream fun stream => .value ?_ rfl
      simp [ensureDataFile, hfile]
  | none =>
      refine Safe.andThen (ensureParentDirectoryHeap_safe path.text) (fun e => ⟨rfl, rfl⟩) ?_
      rintro _ _ rfl
      rw [zero_add, ← Alloc.bind_done (ensureParentDirectory path.text)]
      refine Safe.andThen (writeModeFileHeap_safe path.text _) (fun e => ⟨rfl, rfl⟩) ?_
      rintro _ _ rfl
      rw [zero_add]
      refine Safe.openStream fun stream => .value ?_ rfl
      simp [ensureDataFile, hfile]

theorem closeQuery_frees (stream selected : Nat) (table : HeapTable) :
    Frees ({.stream stream} + ({.block selected} + table.blocks))
      (closeQuery stream selected table) :=
  (Frees.fclose stream).bind ((Frees.free (some selected)).bind (freeTableDefinition_frees table))

/-- What is left behind a failure among the records: at most the values of the record that
could not be split. -/
def RowLost (e : Failure) (remains : Multiset Resource) : Prop :=
  Closed remains ∧ (remains ≠ 0 → e = .outOfMemory "parsing row") ∧ KnowsColumns e

theorem RowLost.zero {e : Failure} (h : KnowsColumns e) : RowLost e 0 :=
  ⟨.zero, fun hne => absurd rfl hne, h⟩

theorem selectRowsHeap_safe (hlender : lender ⊆ frame) (stream selected : Nat)
    {table : HeapTable} (plan : SelectPlan)
    (hcolumns : table.columns.texts = plan.table.columns) (records : List Bytes)
    (result : HeapResult) :
    Safe undefined
      (Leaks HeapResult.blocks
        (fun x y => x.columns = result.columns ∧ x.rows.map HeapList.texts = y)
        ({.stream stream} + ({.block selected} + table.blocks) + frame) RowLost frame)
      (result.blocks + ({.stream stream} + ({.block selected} + table.blocks) + frame))
      (selectRowsHeap lender stream selected table plan.indexes plan.test records result)
      (selectRowsAlloc plan records (result.rows.map HeapList.texts) result.capacity) := by
  have hclose := closeQuery_frees stream selected table
  generalize hopen : {Resource.stream stream} + ({.block selected} + table.blocks) = opened at *
  have hstream : {.stream stream} ⊆ opened := fun r hr => by simp at hr; simp [hr, ← hopen]
  have hselected : {.block selected} ⊆ opened := fun r hr => by simp at hr; simp [hr, ← hopen]
  have hlength : plan.table.columns.length = table.columns.strings.length := by
    rw [← hcolumns, HeapList.length_texts]
  induction records generalizing result with
  | nil =>
      unfold selectRowsHeap selectRowsAlloc
      refine Safe.use (fun r hr => ?_) (.done ⟨⟨rfl, rfl⟩, rfl⟩)
      simp [hstream hr]
  | cons record records ih =>
      unfold selectRowsHeap selectRowsAlloc
      refine Safe.use (fun r hr => by simp [hstream hr]) ?_
      refine Safe.enlarged (splitPipeLineHeap_safe (Multiset.zero_subset _) record)
        (fun values _ => ?_) fun values => ?_
      · dsimp only
        rw [hlength, HeapList.length_texts]
        split_ifs with hwidth hpasses
        · have hheld : values.blocks + (result.blocks + (opened + frame)) =
              opened + (values.blocks + (result.blocks + frame)) := by abel
          rw [hheld]
          refine hclose.safe ((stringListFree_frees values).safe
            ((freeQueryResult_frees result).safe (.fail ⟨rfl, 0, ?_, (zero_add _).symm⟩)))
          exact .zero (by simp [KnowsColumns])
        · refine Safe.use (fun r hr => ?_) ?_
          · rcases Multiset.mem_add.mp hr with hr | hr
            · simp [hr]
            · simp [hlender hr]
          exact (stringListFree_frees values).safe (ih result)
        · refine Safe.use (fun r hr => ?_) ?_
          · rcases Multiset.mem_add.mp hr with hr | hr
            · simp [hr]
            · simp [hlender hr]
          refine Safe.use (fun r hr => by simp [hselected hr]) ?_
          have hexit : ∀ (result' : HeapResult) (projected : HeapList), Safe undefined
              (Leaks HeapResult.blocks
                (fun x y => x.columns = result.columns ∧ x.rows.map HeapList.texts = y)
                (opened + frame) RowLost frame)
              (opened + (values.blocks + (projected.blocks + (result'.blocks + frame))))
              (do
                closeQuery stream selected table
                stringListFree values
                stringListFree projected
                freeQueryResult result'
                pure (.error (.outOfMemory "building result")))
              (Alloc.fail (.outOfMemory "building result") : Allocating (List (List Bytes))) :=
            fun result' projected => hclose.safe ((stringListFree_frees values).safe
              ((stringListFree_frees projected).safe ((freeQueryResult_frees result').safe
                (.fail ⟨rfl, 0, .zero (.outOfMemory _), (zero_add _).symm⟩))))
          have hproject := @appendAllHeap_safe undefined
            (values.blocks + (result.blocks + (opened + frame)))
            (.outOfMemory "building result")
            (plan.indexes.map fun index => values.texts.getD index []) .empty
            (fun h => absurd rfl h)
          rw [HeapList.blocks_empty, zero_add] at hproject
          refine Safe.enlarged hproject (fun projected _ => ?_)
            fun projected => (hexit result projected).of_eq (by abel)
          have hheld : projected.blocks + (values.blocks + (result.blocks + (opened + frame))) =
              result.blocks + (projected.blocks + (values.blocks + (opened + frame))) := by abel
          rw [hheld]
          have hrow := @queryResultAppendRowHeap_safe undefined
            (projected.blocks + (values.blocks + (opened + frame))) result projected
            fun r hr => by simp [hr]
          refine Safe.enlarged hrow (fun result' hresult' => ?_)
            fun result' => (hexit result' projected).of_eq (by abel)
          have hfreed : result'.blocks + (projected.blocks + (values.blocks + (opened + frame))) =
              values.blocks + (projected.blocks + (result'.blocks + (opened + frame))) := by abel
          rw [hfreed]
          refine (stringListFree_frees values).safe ((stringListFree_frees projected).safe ?_)
          rw [← hresult']
          exact ih result'
      · have hheld : values.blocks + (result.blocks + (opened + frame)) =
            opened + (result.blocks + (values.blocks + frame)) := by abel
        rw [hheld]
        refine hclose.safe ((freeQueryResult_frees result).safe (.fail ⟨rfl, values.blocks, ?_, rfl⟩))
        exact ⟨values.closed, fun _ => rfl, .outOfMemory _⟩

/-- What is left behind an answer: nothing, but where a failure `loses` something, and for the
values of a record that could not be split. -/
def AnswerLost (loses : Failure → Prop) (answer : Except Failure Unit)
    (remains : Multiset Resource) : Prop :=
  Closed remains ∧
    (remains ≠ 0 → ∃ e, answer = .error e ∧ (loses e ∨ e = .outOfMemory "parsing row")) ∧
    ∀ e, answer = .error e → loses e → remains ≠ 0

theorem AnswerLost.zero {loses : Failure → Prop} {answer : Except Failure Unit}
    (h : ∀ e, answer = .error e → ¬ loses e) : AnswerLost loses answer 0 :=
  ⟨.zero, fun hne => absurd rfl hne, fun e he hloses => absurd hloses (h e he)⟩

/-- Nothing is left behind a success. -/
theorem AnswerLost.eq_zero {loses : Failure → Prop} {remains : Multiset Resource}
    (h : AnswerLost loses (.ok ()) remains) : remains = 0 := by
  by_contra hne
  obtain ⟨e, he, -⟩ := h.2.1 hne
  simp at he

/-- The result and the files are those of the other query, and the caller holds the result
and what the query has lost. -/
def QueryLeaves (loses : Failure → Prop) (frame : Multiset Resource) :
    HeapAttempt → Except Unit SelectAttempt → Multiset Resource → Prop
  | x, .ok y, held =>
      y = ⟨x.result, x.query.query, x.files⟩ ∧
        ∃ remains, AnswerLost loses x.result remains ∧
          held = x.query.blocks + (remains + frame)
  | _, .error _, _ => False

theorem dropColumns_frees (table : HeapTable) (columns : HeapColumns) :
    Frees (columns.blocks + table.blocks) (dropColumns table columns) := by
  refine ((Frees.free (some columns.selected)).bind ((freeTableDefinition_frees table).bind
    (stringListFree_frees columns.projected))).of_eq ?_
  rw [HeapColumns.blocks, Pointer.block_some]
  abel

section Answers

variable {loses : Failure → Prop} {files : FileSystem}

/-- An exit with what a query has lost. -/
theorem QueryLeaves.lost {e : Failure} {remains : Multiset Resource}
    (hlost : AnswerLost loses (.error e) remains) :
    QueryLeaves loses frame ⟨.error e, .empty, files⟩ (.ok ⟨.error e, .empty, files⟩)
      (remains + frame) :=
  ⟨rfl, remains, hlost, (zero_add _).symm⟩

/-- An exit that loses nothing. -/
theorem QueryLeaves.freed {e : Failure} (h : ¬ loses e) :
    QueryLeaves loses frame ⟨.error e, .empty, files⟩ (.ok ⟨.error e, .empty, files⟩) frame := by
  refine ⟨rfl, 0, .zero ?_, by simp [HeapResult.empty, HeapResult.blocks, rowBlocks]⟩
  rintro _ ⟨⟩
  exact h

variable (hloses : ∀ e, KnowsColumns e → ¬ loses e)
include hloses

theorem readDataFileHeap_safe (hlender : lender ⊆ frame) {table : HeapTable}
    {columns : HeapColumns} {plan : SelectPlan} (hmatches : table.Matches plan.table)
    (hindexes : columns.indexes = plan.indexes)
    (hprojected : columns.projected.texts = plan.projected) (files : FileSystem) :
    Safe (fun _ => True) (QueryLeaves loses frame) (columns.blocks + table.blocks + frame)
      (readDataFileHeap lender table columns plan.test files) (readDataFile plan files) := by
  unfold readDataFileHeap readDataFile
  rw [← hmatches.2, hindexes]
  have hopen := (@openDataFileHeap_safe (fun _ => False)
    (columns.blocks + table.blocks + frame) table.dataPath
    (fun r hr => by simp [HeapTable.blocks, hr]) files).failing
    (prepareDataFile_failsWith table.dataPath.text files)
  refine Safe.test hopen (fun _ h => h.elim) ?_
  rintro (e | ⟨stream, files'⟩) (e' | ⟨⟩) held ⟨h, hknows⟩
  · obtain ⟨rfl, rfl⟩ := h
    exact (dropColumns_frees table columns).safe (.done (.freed (hloses e (hknows e rfl))))
  · exact h.elim
  · exact h.elim
  · obtain ⟨rfl, rfl⟩ := h
    have hrows := @selectRowsHeap_safe (fun _ => False) lender frame hlender stream
      columns.selected table plan hmatches.1
      (readRecords ((ensureDataFile table.dataPath.text files).content table.dataPath.text))
      ⟨columns.projected, none, [], 0⟩
    refine Safe.test (Safe.of_eq hrows ?_) (fun _ h => h.elim) ?_
    · simp only [HeapColumns.blocks, HeapResult.blocks, rowBlocks, Pointer.block_none]
      abel
    rintro (e | query) (e' | rows) held h
    · obtain ⟨rfl, remains, ⟨hclosed, hremains, hknows⟩, rfl⟩ := h
      refine .done (.lost ⟨hclosed, fun hne => ⟨e, rfl, .inr (hremains hne)⟩, ?_⟩)
      rintro _ ⟨⟩ hlost
      exact absurd hlost (hloses e hknows)
    · exact h.elim
    · exact h.elim
    · obtain ⟨⟨hquery, rfl⟩, rfl⟩ := h
      have hheld : query.blocks +
          ({.stream stream} + ({.block columns.selected} + table.blocks) + frame) =
            {.stream stream} + ({.block columns.selected} + table.blocks) +
              (query.blocks + frame) := by abel
      rw [hheld]
      refine (closeQuery_frees stream columns.selected table).safe (.done ⟨?_, 0, .zero ?_, ?_⟩)
      · rw [HeapResult.query, hquery, ← hprojected]
      · simp
      · rw [zero_add]

/-- Behind its columns a query loses nothing but the values of a record.  It dereferences
NULL only where the name of the WHERE column was not copied. -/
theorem queryTableHeap_safe (hlender : lender ⊆ frame) {table : HeapTable}
    {columns : HeapColumns} {definition : TableDefinition} (hmatches : table.Matches definition)
    (where_ : Option BuiltWhere) (files : FileSystem) :
    Safe (fun _ => True) (QueryLeaves loses frame) (columns.blocks + table.blocks + frame)
      (queryTableHeap lender table columns where_ files)
      (queryTable definition columns.indexes columns.projected.texts where_ files) := by
  have hrest : ∀ test, Safe (fun _ => True) (QueryLeaves loses frame)
      (columns.blocks + table.blocks + frame)
      (readDataFileHeap lender table columns test files)
      (readDataFile ⟨definition, columns.indexes, columns.projected.texts, test⟩ files) :=
    fun test => @readDataFileHeap_safe _ _ _ hloses hlender _ _
      ⟨definition, columns.indexes, columns.projected.texts, test⟩ hmatches rfl rfl _
  have hread : lender + table.columns.blocks ⊆ columns.blocks + table.blocks + frame := by
    intro r hr
    rcases Multiset.mem_add.mp hr with hr | hr
    · simp [hlender hr]
    · simp [HeapTable.blocks, hr]
  rcases where_ with _ | ⟨_ | column, value⟩
  · exact hrest none
  · exact .touch hread (.fault trivial)
  · refine .touch hread ?_
    rw [hmatches.1]
    show Safe _ _ _ (Heap.done (prepareWhere definition.columns (some ⟨column, value⟩)) >>= _)
      (match some (prepareWhere definition.columns (some ⟨column, value⟩)) with
        | none => _
        | some (.error e) => _
        | some (.ok test) => _)
    cases hwhere : prepareWhere definition.columns (some ⟨column, value⟩) with
    | error e =>
        refine (dropColumns_frees table columns).safe (.done (.freed (hloses _ ?_)))
        rintro name ⟨⟩
        unfold prepareWhere at hwhere
        cases hfind : findColumnIndex definition.columns column with
        | none => simp [hfind] at hwhere
        | some index => simp [hfind] at hwhere
    | ok test => exact hrest test

end Answers

/-- The query gives back all it acquired but its result, whatever is refused, except at the
two exits that lose something. -/
theorem runSelectQueryHeap_safe (hlender : lender ⊆ frame) (dbRoot : Bytes)
    (statement : BuiltSelect) (files : FileSystem) :
    Safe (fun _ => True) (QueryLeaves (LosesColumns statement.columns) frame) frame
      (runSelectQueryHeap lender dbRoot statement files)
      (runSelectQueryBuilt dbRoot statement files) := by
  refine Safe.test (@prepareProjectionHeap_safe (fun _ => False) _ _ hlender dbRoot statement
    files) (fun _ h => h.elim) ?_
  rintro (e | ⟨table, columns⟩) (e' | ⟨definition, indexes, projected⟩) held h
  · obtain ⟨rfl, remains, ⟨hclosed, hremains⟩, rfl⟩ := h
    refine .done (.lost ⟨hclosed, fun hne => ⟨e, rfl, .inl (hremains.mp hne)⟩, ?_⟩)
    rintro _ ⟨⟩ hloses
    exact hremains.mpr hloses
  · exact h.elim
  · exact h.elim
  · obtain ⟨⟨hmatches, rfl, rfl⟩, rfl⟩ := h
    exact queryTableHeap_safe (fun _ hknows => hknows.not_loses) hlender hmatches _ _

end Query

/-! ## Runs of the query -/

section Runs

variable (dbRoot : Bytes) (statement : SelectStatement) (files : FileSystem)

/-- What a query answers, whether it succeeds or fails. -/
def SelectAttempt.settled : Except SelectAttempt SelectAttempt → SelectAttempt
  | .error attempt => attempt
  | .ok attempt => attempt

/-- A statement whose WHERE column is not NULL is queried as ever. -/
theorem runSelectQueryBuilt_built :
    runSelectQueryBuilt dbRoot statement.built files =
      (runSelectQueryAlloc dbRoot statement files).test id fun r => .done (.settled r) := by
  unfold runSelectQueryBuilt runSelectQueryAlloc prepareSelectAlloc prepareProjectionAlloc
  simp only [Alloc.bind_test, Alloc.mapError_test]
  refine congrArg _ (funext fun loaded => ?_)
  rcases loaded with e | table
  · rfl
  refine congrArg (Alloc.test id (prepareColumnsAlloc table.columns statement))
    (funext fun prepared => ?_)
  rcases prepared with e | ⟨indexes, projected⟩
  · rfl
  -- the search for the WHERE column asks for nothing
  have hwhere : prepareWhereBuilt table.columns statement.built.where_ =
      some (prepareWhere table.columns statement.where_) := by
    unfold SelectStatement.built
    cases statement.where_ <;> rfl
  show (match prepareWhereBuilt table.columns statement.built.where_ with
    | none => _
    | some (.error e) => _
    | some (.ok test) => _) = _
  rw [hwhere]
  cases prepareWhere table.columns statement.where_ with
  | error e => rfl
  | ok test =>
      refine congrArg (Alloc.test id (prepareDataFile table.dataPath files))
        (funext fun opened => ?_)
      rcases opened with e | ⟨⟩
      · rfl
      refine congrArg (Alloc.test id (selectRowsAlloc _ _ [] 0)) (funext fun rows => ?_)
      rcases rows with e | rows
      · rfl
      · rfl

/-- The name of the WHERE column, if there is one, has been copied. -/
def BuiltSelect.Whole (statement : BuiltSelect) : Prop :=
  ∀ where_, statement.where_ = some where_ → where_.column ≠ none

theorem readDataFile_failsWith (plan : SelectPlan) (files : FileSystem) :
    (readDataFile plan files).FailsWith fun _ => False :=
  (Alloc.FailsWith.trivial _).test (fun _ _ => True.intro) fun _ =>
    (Alloc.FailsWith.trivial _).test (fun _ _ => True.intro) fun _ => True.intro

theorem queryTable_failsWith {statement : BuiltSelect} (h : statement.Whole)
    (table : TableDefinition) (indexes : List Nat) (projected : List Bytes)
    (files : FileSystem) :
    (queryTable table indexes projected statement.where_ files).FailsWith fun _ => False := by
  unfold queryTable
  cases hwhere : statement.where_ with
  | none => exact readDataFile_failsWith _ _
  | some where_ =>
      obtain ⟨_ | column, value⟩ := where_
      · exact absurd rfl (h _ hwhere)
      · have hbuilt : prepareWhereBuilt table.columns (some ⟨some column, value⟩) =
            some (prepareWhere table.columns (some ⟨column, value⟩)) := rfl
        rw [hbuilt]
        cases prepareWhere table.columns (some ⟨column, value⟩) with
        | error e => exact True.intro
        | ok test => exact readDataFile_failsWith _ _

theorem queryTable_of_not_whole {statement : BuiltSelect} (h : ¬ statement.Whole)
    (table : TableDefinition) (indexes : List Nat) (projected : List Bytes)
    (files : FileSystem) :
    queryTable table indexes projected statement.where_ files = .fail () := by
  unfold BuiltSelect.Whole at h
  push Not at h
  obtain ⟨⟨column, value⟩, hwhere, rfl⟩ := h
  rw [hwhere]
  rfl

/-- The query comes to its WHERE clause, and the name of the column is NULL there. -/
def ReadsNull (pattern : Nat → Bool) (dbRoot : Bytes) (statement : BuiltSelect)
    (files : FileSystem) : Prop :=
  ¬ statement.Whole ∧
    ∃ prepared, (prepareProjectionAlloc dbRoot statement files).run pattern = .ok prepared

/-- What a query has lost that answers so.  Where the columns could not be prepared, it is
something exactly behind an unknown name that stands behind a known one; else it is at most
the values of a record that could not be split. -/
def QueryLost (names : List Bytes)
    (prepared : Except Failure (TableDefinition × List Nat × List Bytes))
    (answer : Except Failure Unit) (remains : Multiset Resource) : Prop :=
  Closed remains ∧
    (∀ e, prepared = .error e → answer = .error e ∧ (remains ≠ 0 ↔ LosesColumns names e)) ∧
    ∀ columns, prepared = .ok columns → remains ≠ 0 →
      answer = .error (.outOfMemory "parsing row")

theorem runSelectQueryUnder_of_built {pattern : Nat → Bool} {attempt : SelectAttempt}
    (h : (runSelectQueryBuilt dbRoot statement.built files).run pattern = .ok attempt) :
    runSelectQueryUnder pattern dbRoot statement files = attempt := by
  rw [runSelectQueryBuilt_built, Alloc.run_test_done] at h
  exact Except.ok.inj h

/-- Behind the columns the query dereferences NULL exactly where the WHERE column was not
copied, and else it loses nothing but the values of a record. -/
theorem queryTableHeap_run {lender frame : Multiset Resource} (hlender : lender ⊆ frame)
    {table : HeapTable} {columns : HeapColumns} {definition : TableDefinition}
    (hmatches : table.Matches definition) (statement : BuiltSelect) (files : FileSystem)
    (allocator : Heap.Allocator) (pattern : Nat → Bool) :
    (¬ statement.Whole ∧
      (queryTableHeap lender table columns statement.where_ files).run allocator pattern
        (columns.blocks + table.blocks + frame) = .error .null) ∨
    (statement.Whole ∧ ∃ attempt remains,
      (queryTableHeap lender table columns statement.where_ files).run allocator pattern
          (columns.blocks + table.blocks + frame) =
        .ok (attempt, attempt.query.blocks + (remains + frame)) ∧
      (queryTable definition columns.indexes columns.projected.texts statement.where_
          files).run pattern = .ok ⟨attempt.result, attempt.query.query, attempt.files⟩ ∧
      Closed remains ∧
      (remains ≠ 0 → attempt.result = .error (.outOfMemory "parsing row"))) := by
  have hsafe := @queryTableHeap_safe lender frame (fun _ => False) (fun _ _ h => h) hlender
    table columns definition hmatches statement.where_ files
  rcases hsafe.run allocator pattern with
    ⟨attempt, held, hrun, hleaves⟩ | ⟨hrun, e, herror, -⟩
  · cases hanswer : (queryTable definition columns.indexes columns.projected.texts
        statement.where_ files).run pattern with
    | error e =>
        rw [hanswer] at hleaves
        exact hleaves.elim
    | ok outcome =>
        rw [hanswer] at hleaves
        obtain ⟨rfl, remains, ⟨hclosed, hremains, -⟩, rfl⟩ := hleaves
        refine .inr ⟨?_, attempt, remains, hrun, rfl, hclosed, fun hne => ?_⟩
        · by_contra hnot
          rw [queryTable_of_not_whole hnot] at hanswer
          cases hanswer
        · obtain ⟨e, he, hrow⟩ := hremains hne
          rw [he, hrow.resolve_left id]
  · refine .inl ⟨fun hwhole => ?_, hrun⟩
    exact (queryTable_failsWith hwhole _ _ _ _).run herror

/-- A run of `run_select_query`, whatever is refused.  It dereferences NULL exactly where it
comes to a WHERE column that was not copied.  Else it uses and gives back only what it
holds; in the end its result is held, which `free_query_result` frees, and what has been
lost. -/
theorem runSelectQueryHeap_run (allocator : Heap.Allocator) (pattern : Nat → Bool)
    (lender held : Multiset Resource) (dbRoot : Bytes) (statement : BuiltSelect)
    (files : FileSystem) :
    (ReadsNull pattern dbRoot statement files ∧
      (runSelectQueryHeap lender dbRoot statement files).run allocator pattern
        (lender + held) = .error .null) ∨
    (¬ ReadsNull pattern dbRoot statement files ∧ ∃ attempt remains,
      (runSelectQueryHeap lender dbRoot statement files).run allocator pattern
          (lender + held) = .ok (attempt, attempt.query.blocks + (remains + (lender + held))) ∧
        (∀ plain : SelectStatement, statement = plain.built →
          runSelectQueryUnder pattern dbRoot plain files =
            ⟨attempt.result, attempt.query.query, attempt.files⟩) ∧
        QueryLost statement.columns ((prepareProjectionAlloc dbRoot statement files).run pattern)
          attempt.result remains ∧
        ∀ pattern', (freeQueryResult attempt.query).run allocator pattern'
            (attempt.query.blocks + (remains + (lender + held))) =
          .ok ((), remains + (lender + held))) := by
  have hlender : lender ⊆ lender + held :=
    Multiset.subset_of_le (Multiset.le_add_right lender held)
  have hfree : ∀ (query : HeapResult) (remains : Multiset Resource) pattern',
      (freeQueryResult query).run allocator pattern'
        (query.blocks + (remains + (lender + held))) = .ok ((), remains + (lender + held)) :=
    fun query remains pattern' => (freeQueryResult_frees query).run allocator pattern'
  have hbuilt : (runSelectQueryBuilt dbRoot statement files).run pattern = _ :=
    Alloc.run_test id _ _ pattern
  rcases (@prepareProjectionHeap_safe (fun _ => False) _ _ hlender dbRoot statement
    files).run_bind allocator pattern with ⟨prepared, held', hleaks, hbind⟩ | ⟨_, _, h, _⟩
  swap
  · exact h.elim
  have hrun : (runSelectQueryHeap lender dbRoot statement files).run allocator pattern
      (lender + held) = _ := hbind _
  rw [hrun]
  cases hprepare : (prepareProjectionAlloc dbRoot statement files).run pattern with
  | error e =>
      -- the query ends before its WHERE clause
      rw [hprepare] at hleaks hbuilt
      rcases prepared with e' | prepared
      · obtain ⟨rfl, remains, ⟨hclosed, hremains⟩, rfl⟩ := hleaks
        refine .inr ⟨?_, ⟨.error e', .empty, files⟩, remains, ?_, ?_, ?_, hfree _ _⟩
        · rintro ⟨-, prepared, hok⟩
          rw [hprepare] at hok
          cases hok
        · simp [Heap.run, HeapResult.empty, HeapResult.blocks, rowBlocks]
        · rintro plain rfl
          exact runSelectQueryUnder_of_built _ _ _ hbuilt
        · refine ⟨hclosed, fun e he => ?_, fun columns hok => ?_⟩
          · obtain rfl : e' = e := Except.error.inj he
            exact ⟨rfl, hremains⟩
          · cases hok
      · exact hleaks.elim
  | ok definition =>
      rw [hprepare] at hleaks hbuilt
      obtain ⟨definition, indexes, projected⟩ := definition
      rcases prepared with e' | ⟨table, columns⟩
      · exact hleaks.elim
      obtain ⟨⟨hmatches, rfl, rfl⟩, rfl⟩ := hleaks
      rcases queryTableHeap_run hlender hmatches statement files allocator fun n => pattern (n +
        (prepareProjectionAlloc dbRoot statement files).requests pattern) with
        ⟨hnot, hrun⟩ | ⟨hwhole, attempt, remains, hrun, hanswer, hclosed, hremains⟩
      · exact .inl ⟨⟨hnot, _, hprepare⟩, hrun⟩
      · refine .inr ⟨fun hnull => hnull.1 hwhole, attempt, remains, hrun, ?_, ?_, hfree _ _⟩
        · rintro plain rfl
          exact runSelectQueryUnder_of_built _ _ _ (hbuilt.trans hanswer)
        · refine ⟨hclosed, fun e he => ?_, fun _ _ hne => hremains hne⟩
          cases he

end Runs

end MiniSql
