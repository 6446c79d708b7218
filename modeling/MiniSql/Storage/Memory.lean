import MiniSql.Memory
import MiniSql.Storage.Failures
import MiniSql.Storage.Interleaving

set_option autoImplicit false

/-!
# The storage layer and its memory

`append_insert_row` and `run_select_query` with every request for memory they make, in
the order they make them.  The calls on files succeed.
-/

namespace MiniSql

open Foundation

/-! ## Rows -/

/-- The end of a field in `split_pipe_line`: a buffer that is still NULL is given its
terminator first, and the field is copied into the list. -/
def endField (buffer : Bytes) (capacity : Nat) (values : List Bytes) (valuesCapacity : Nat) :
    Allocating (List Bytes × Nat) := do
  let _ ← Alloc.reserve .field (.outOfMemory "parsing row") (capacity == 0) 1 capacity
  stringListAppend (.outOfMemory "parsing row") values valuesCapacity buffer

/-- The loop of `split_pipe_line`, with the capacities of the buffer and of the list. -/
def splitPipeFromAlloc (buffer : Bytes) (capacity : Nat) (values : List Bytes)
    (valuesCapacity : Nat) : Bytes → Allocating (List Bytes)
  | [] => do
      let (values, _) ← endField buffer capacity values valuesCapacity
      pure values
  | ch :: rest =>
      if ch = newline then do
        let (values, _) ← endField buffer capacity values valuesCapacity
        pure values
      else if ch = carriageReturn then
        splitPipeFromAlloc buffer capacity values valuesCapacity rest
      else if ch = pipe then do
        let (values, valuesCapacity) ← endField buffer capacity values valuesCapacity
        splitPipeFromAlloc [] 0 values valuesCapacity rest
      else do
        let capacity ← Alloc.reserve .field (.outOfMemory "parsing row")
          (buffer.length + 2 ≥ capacity) (doubled 16 capacity) capacity
        if ch = backslash then
          match rest with
          | [] => splitPipeFromAlloc (buffer ++ [ch]) capacity values valuesCapacity []
          | next :: rest' =>
              match unescapeByte next with
              | some b => splitPipeFromAlloc (buffer ++ [b]) capacity values valuesCapacity rest'
              | none =>
                  splitPipeFromAlloc (buffer ++ [ch]) capacity values valuesCapacity
                    (next :: rest')
        else splitPipeFromAlloc (buffer ++ [ch]) capacity values valuesCapacity rest
  termination_by line => line.length

/-- `split_pipe_line`. -/
def splitPipeLineAlloc (line : Bytes) : Allocating (List Bytes) :=
  splitPipeFromAlloc [] 0 [] 0 line

/-- The loop of `escape_field`. -/
def escapeFrom : Bytes → Bytes → Nat → Allocating Bytes
  | [], buffer, _ => pure buffer
  | ch :: rest, buffer, capacity => do
      let extra :=
        if ch = backslash ∨ ch = pipe ∨ ch = newline ∨ ch = carriageReturn then 2 else 1
      let capacity ← Alloc.reserve .escaped (.outOfMemory "serializing row")
        (buffer.length + extra + 1 ≥ capacity) (capacity * 2 + extra + 1) capacity
      escapeFrom rest (buffer ++ escapeByte ch) capacity

/-- `escape_field`. -/
def escapeFieldAlloc (value : Bytes) : Allocating Bytes := do
  Alloc.demand .escaped (.outOfMemory "serializing row")
  escapeFrom value [] 16

/-- The first loop of `serialize_row`. -/
def escapeFields : List Bytes → Allocating (List Bytes)
  | [] => pure []
  | value :: values => do
      let field ← escapeFieldAlloc value
      let fields ← escapeFields values
      pure (field :: fields)

/-- `serialize_row`. -/
def serializeRowAlloc (values : List Bytes) : Allocating Bytes := do
  Alloc.demand .escapedItems (.outOfMemory "serializing row")
  let escaped ← escapeFields values
  Alloc.demand .line (.outOfMemory "serializing row")
  pure (joinFields escaped ++ [newline])

/-! ## Files and tables -/

/-- `read_text_file`. -/
def readTextFileAlloc (path : Bytes) (files : FileSystem) : Allocating Bytes :=
  match readTextFile path files with
  | .error e => .fail (.sql e)
  | .ok content => do
      Alloc.demand .fileContent (.outOfMemoryReading path)
      pure content

/-- The path in front of the last slash or backslash. -/
def parentPath (path : Bytes) : Option Bytes :=
  match path.reverse.dropWhile fun ch => ch != slash && ch != backslash with
  | [] => none
  | _ :: parent => some parent.reverse

/-- `ensure_parent_directory`, and `ensure_directory_recursive` on a path that is not
empty. -/
def ensureParentDirectory (path : Bytes) : Allocating Unit :=
  match parentPath path with
  | none => pure ()
  | some parent => do
      Alloc.demand .directory (.outOfMemory "preparing parent directory")
      if parent = [] then pure ()
      else Alloc.demand .directory (.outOfMemory "creating directory")

/-- The copies of the name in `load_table_definition`, both made before either is looked
at.  `sql_strdup` asks for nothing when it is given NULL, and the table is not NULL where
the paths have been built. -/
def copyName (name : QualifiedName) : Allocating Unit :=
  if name.schema.isSome then
    Alloc.demandBoth .schemaName .tableName (.outOfMemory "loading table")
  else Alloc.demand .tableName (.outOfMemory "loading table")

/-- `load_table_definition`. -/
def loadTableDefinitionAlloc (dbRoot : Bytes) (name : QualifiedName) (files : FileSystem) :
    Allocating TableDefinition :=
  match buildTablePaths dbRoot name with
  | .error e => .fail (.sql e)
  | .ok (schemaPath, dataPath) => do
      Alloc.demandBoth .path .path (.outOfMemory "building file paths")
      copyName name
      let schemaContent ← readTextFileAlloc schemaPath files
      let columns ← splitPipeLineAlloc schemaContent
      if h : columns = [] ∨ columns = [[]] then .fail (.sql (.schemaFileEmpty none))
      else pure ⟨name, columns, schemaPath, dataPath, not_or.mp h⟩

/-! ## INSERT -/

/-- The loop of `append_insert_row` over the columns and their values.  The slot is freed
before its value is copied. -/
def placeValuesAlloc (columns : List Bytes) :
    List (Bytes × Bytes) → List Bytes → List Bool → Allocating (List Bytes)
  | [], ordered, _ => pure ordered
  | (name, value) :: pairs, ordered, assigned =>
      match findColumnIndex columns name with
      | none => .fail (.sql (.unknownInsertColumn name))
      | some target =>
          if assigned.getD target false then .fail (.sql (.duplicateInsertColumn name))
          else do
            Alloc.demand .value (.outOfMemory "building row")
            placeValuesAlloc columns pairs (ordered.set target value) (assigned.set target true)

/-- `append_insert_row` up to the file: the data path and the line. -/
def prepareInsert (dbRoot : Bytes) (statement : InsertStatement) (files : FileSystem) :
    Except SqlError (Bytes × Bytes) :=
  if statement.columns.length ≠ statement.values.length then .error .insertCountMismatch
  else
    match loadTableDefinition dbRoot statement.target files with
    | .error e => .error e
    | .ok table =>
        match placeValues table.columns (statement.columns.zip statement.values)
            (List.replicate table.columns.length [])
            (List.replicate table.columns.length false) with
        | .error e => .error e
        | .ok ordered => .ok (table.dataPath, serializeRow ordered)

theorem appendInsertRow_eq (dbRoot : Bytes) (statement : InsertStatement) (affectedRows : Nat)
    (files : FileSystem) :
    appendInsertRow dbRoot statement affectedRows files =
      match prepareInsert dbRoot statement files with
      | .error e => ⟨.error e, affectedRows, files⟩
      | .ok (dataPath, line) => ⟨.ok (), 1, appendTextFile dataPath line files⟩ := by
  unfold appendInsertRow prepareInsert
  split
  · rfl
  · cases loadTableDefinition dbRoot statement.target files with
    | error e => rfl
    | ok table =>
        dsimp only
        cases placeValues table.columns (statement.columns.zip statement.values)
            (List.replicate table.columns.length [])
            (List.replicate table.columns.length false) with
        | error e => rfl
        | ok ordered => rfl

theorem prepareInsert_congr {dbRoot : Bytes} {statement : InsertStatement}
    {files files' : FileSystem} (h : files' (statement.target.schemaPath dbRoot) =
      files (statement.target.schemaPath dbRoot)) :
    prepareInsert dbRoot statement files' = prepareInsert dbRoot statement files := by
  unfold prepareInsert
  rw [loadTableDefinition_congr h]

/-- What an INSERT has prepared is the line of the intended row. -/
theorem prepareInsert_eq_ok_iff {dbRoot path line : Bytes} {statement : InsertStatement}
    {files : FileSystem} :
    prepareInsert dbRoot statement files = .ok (path, line) ↔
      ∃ table, loadTableDefinition dbRoot statement.target files = .ok table ∧
        Insertable table.columns statement ∧ path = table.dataPath ∧
        line = serializeRow (intendedRow table.columns statement) := by
  unfold prepareInsert
  constructor
  · intro h
    split at h
    · simp at h
    · rename_i hcount
      cases hload : loadTableDefinition dbRoot statement.target files with
      | error e => simp [hload] at h
      | ok table =>
          simp only [hload] at h
          split at h
          · simp at h
          · rename_i ordered hplace
            obtain ⟨rfl, rfl⟩ := Prod.mk.inj (Except.ok.inj h)
            obtain ⟨hplaceable, hrow⟩ := (placeValues_replicate statement).mp hplace
            exact ⟨table, rfl, ⟨not_not.mp hcount, hplaceable⟩, rfl, by rw [hrow]⟩
  · intro h
    obtain ⟨table, hload, hinsertable, rfl, rfl⟩ := h
    rw [if_neg (not_not.mpr hinsertable.1), hload]
    simp only [(placeValues_replicate statement).mpr ⟨hinsertable.2, rfl⟩]

theorem prepareInsert_path {dbRoot path line : Bytes} {statement : InsertStatement}
    {files : FileSystem} (h : prepareInsert dbRoot statement files = .ok (path, line)) :
    path = statement.target.dataPath dbRoot := by
  obtain ⟨table, hload, -, rfl, -⟩ := prepareInsert_eq_ok_iff.mp h
  exact (loadTableDefinition_paths hload).2

/-- The same with its requests for memory, those of `append_text_file` included. -/
def prepareInsertAlloc (dbRoot : Bytes) (statement : InsertStatement) (files : FileSystem) :
    Allocating (Bytes × Bytes) :=
  if statement.columns.length ≠ statement.values.length then .fail (.sql .insertCountMismatch)
  else do
    let table ← loadTableDefinitionAlloc dbRoot statement.target files
    Alloc.demand .assigned (.outOfMemory "preparing INSERT")
    let (ordered, _) ← appendAll (.outOfMemory "building row")
      (List.replicate table.columns.length []) [] 0
    let ordered ← placeValuesAlloc table.columns (statement.columns.zip statement.values)
      ordered (List.replicate table.columns.length false)
    let line ← serializeRowAlloc ordered
    ensureParentDirectory table.dataPath
    pure (table.dataPath, line)

/-- `append_insert_row`: nothing is asked for behind the write. -/
def appendInsertRowAlloc (dbRoot : Bytes) (statement : InsertStatement) (affectedRows : Nat)
    (files : FileSystem) : Alloc Request InsertAttempt InsertAttempt := do
  let (dataPath, line) ← (prepareInsertAlloc dbRoot statement files).mapError fun e =>
    ⟨.error e, affectedRows, files⟩
  pure ⟨.ok (), 1, appendTextFile dataPath line files⟩

/-! ## SELECT -/

/-- The loop over the requested columns. -/
def selectColumnsAlloc (columns : List Bytes) :
    List Bytes → List Nat → List Bytes → Nat → Allocating (List Nat × List Bytes)
  | [], indexes, projected, _ => pure (indexes, projected)
  | name :: names, indexes, projected, capacity =>
      match findColumnIndex columns name with
      | none => .fail (.sql (.unknownSelectColumn name))
      | some index => do
          let (projected, capacity) ← stringListAppend (.outOfMemory "preparing result columns")
            projected capacity (columns.getD index [])
          selectColumnsAlloc columns names (indexes ++ [index]) projected capacity

/-- The columns of the result. -/
def prepareColumnsAlloc (columns : List Bytes) (statement : SelectStatement) :
    Allocating (List Nat × List Bytes) :=
  if statement.selectAll then do
    let (projected, _) ← appendAll (.outOfMemory "preparing result columns") columns [] 0
    Alloc.demand .selected (.outOfMemory "preparing result")
    pure (List.range columns.length, projected)
  else do
    Alloc.demand .selected (.outOfMemory "preparing result")
    selectColumnsAlloc columns statement.columns [] [] 0

/-- The part of `run_select_query` before the data file. -/
def prepareSelectAlloc (dbRoot : Bytes) (statement : SelectStatement) (files : FileSystem) :
    Allocating SelectPlan := do
  let table ← loadTableDefinitionAlloc dbRoot statement.source files
  let (indexes, projected) ← prepareColumnsAlloc table.columns statement
  match prepareWhere table.columns statement.where_ with
  | .error e => .fail (.sql e)
  | .ok test => pure ⟨table, indexes, projected, test⟩

/-- `query_result_append_row`; the second value is `result->row_capacity`. -/
def queryResultAppendRow (rows : List (List Bytes)) (capacity : Nat) (values : List Bytes) :
    Allocating (List (List Bytes) × Nat) := do
  let capacity ← Alloc.reserve .rows (.outOfMemory "building result") (rows.length == capacity)
    (doubled 4 capacity) capacity
  let (row, _) ← appendAll (.outOfMemory "building result") values [] 0
  pure (rows ++ [row], capacity)

/-- The loop of `run_select_query` over the records. -/
def selectRowsAlloc (plan : SelectPlan) :
    List Bytes → List (List Bytes) → Nat → Allocating (List (List Bytes))
  | [], rows, _ => pure rows
  | record :: records, rows, capacity => do
      let values ← splitPipeLineAlloc record
      if values.length ≠ plan.table.columns.length then .fail (.sql .rowColumnCountMismatch)
      else if passesWhere plan.test values = false then
        selectRowsAlloc plan records rows capacity
      else do
        let (projected, _) ← appendAll (.outOfMemory "building result")
          (plan.indexes.map fun index => values.getD index []) [] 0
        let (rows, capacity) ← queryResultAppendRow rows capacity projected
        selectRowsAlloc plan records rows capacity

/-- What `run_select_query` answers and leaves when it may be refused memory. -/
structure SelectAttempt where
  result : Except Failure Unit
  query : QueryResult
  files : FileSystem

/-- The requests for a missing data file: its parent directory is prepared by the query,
and once more by `write_text_file`. -/
def prepareDataFile (path : Bytes) (files : FileSystem) : Allocating Unit :=
  match files path with
  | none => do
      ensureParentDirectory path
      ensureParentDirectory path
  | some _ => pure ()

/-- `run_select_query`.  Up to the data file an exit leaves the result of `memset`, and
behind it `free_query_result` frees the rows built so far. -/
def runSelectQueryAlloc (dbRoot : Bytes) (statement : SelectStatement) (files : FileSystem) :
    Alloc Request SelectAttempt SelectAttempt := do
  let plan ← (prepareSelectAlloc dbRoot statement files).mapError fun e =>
    ⟨.error e, .empty, files⟩
  let path := plan.table.dataPath
  (prepareDataFile path files).mapError fun e => ⟨.error e, .empty, files⟩
  let files' := ensureDataFile path files
  let rows ← (selectRowsAlloc plan (readRecords (files'.content path)) [] 0).mapError fun e =>
    ⟨.error e, .empty, files'⟩
  pure ⟨.ok (), ⟨plan.projected, rows⟩, files'⟩

/-! ## Under a pattern -/

/-- `append_insert_row` when the pattern answers its requests. -/
def appendInsertRowUnder (pattern : Nat → Bool) (dbRoot : Bytes) (statement : InsertStatement)
    (affectedRows : Nat) (files : FileSystem) : InsertAttempt :=
  match (appendInsertRowAlloc dbRoot statement affectedRows files).run pattern with
  | .error attempt => attempt
  | .ok attempt => attempt

/-- `run_select_query` when the pattern answers its requests. -/
def runSelectQueryUnder (pattern : Nat → Bool) (dbRoot : Bytes) (statement : SelectStatement)
    (files : FileSystem) : SelectAttempt :=
  match (runSelectQueryAlloc dbRoot statement files).run pattern with
  | .error attempt => attempt
  | .ok attempt => attempt

/-! ## With every request granted: rows -/

section Granted

open Alloc

theorem endField_granted (buffer : Bytes) (capacity : Nat) (values : List Bytes)
    (valuesCapacity : Nat) :
    ∃ capacity', (endField buffer capacity values valuesCapacity).granted =
      .ok (values ++ [buffer], capacity') := by
  unfold endField
  rw [granted_after _ (granted_reserve _ _ _ _ _)]
  exact stringListAppend_granted _ values valuesCapacity buffer

theorem splitPipeFromAlloc_granted (buffer line : Bytes) (capacity : Nat) (values : List Bytes)
    (valuesCapacity : Nat) :
    (splitPipeFromAlloc buffer capacity values valuesCapacity line).granted =
      .ok (values ++ splitPipeFrom buffer line) := by
  fun_induction splitPipeFromAlloc buffer capacity values valuesCapacity line with
  | case1 buffer capacity values valuesCapacity =>
      obtain ⟨capacity', hfield⟩ := endField_granted buffer capacity values valuesCapacity
      rw [granted_after _ hfield, splitPipeFrom_nil]
      rfl
  | case2 buffer capacity values valuesCapacity rest =>
      obtain ⟨capacity', hfield⟩ := endField_granted buffer capacity values valuesCapacity
      rw [granted_after _ hfield, splitPipeFrom_newline]
      rfl
  | case3 buffer capacity values valuesCapacity rest hnewline ih =>
      rw [ih, splitPipeFrom_carriageReturn]
  | case4 buffer capacity values valuesCapacity rest hnewline hcr ih =>
      obtain ⟨capacity', hfield⟩ := endField_granted buffer capacity values valuesCapacity
      rw [granted_after _ hfield, splitPipeFrom_pipe]
      simpa using ih (values ++ [buffer]) capacity'
  | case5 buffer capacity values valuesCapacity ch rest hnewline hcr hpipe ihEscape ih =>
      rw [granted_after _ (granted_reserve _ _ _ _ _)]
      by_cases hbackslash : ch = backslash
      · subst hbackslash
        have hescape := ihEscape
          (if decide (buffer.length + 2 ≥ capacity) then doubled 16 capacity else capacity)
        cases rest with
        | nil => simpa using hescape
        | cons next rest =>
            rw [splitPipeFrom_backslash]
            cases hnext : unescapeByte next with
            | none => simpa [hnext] using hescape.2
            | some b => simpa [hnext] using hescape.1 b
      · rw [splitPipeFrom_plain ⟨hnewline, hcr, hpipe, hbackslash⟩]
        simpa [hbackslash] using ih _

theorem splitPipeLineAlloc_granted (line : Bytes) :
    (splitPipeLineAlloc line).granted = .ok (splitPipeLine line) :=
  splitPipeFromAlloc_granted [] line 0 [] 0

theorem escapeFrom_granted (value buffer : Bytes) (capacity : Nat) :
    (escapeFrom value buffer capacity).granted = .ok (buffer ++ escapeField value) := by
  induction value generalizing buffer capacity with
  | nil => simp [escapeFrom, escapeField, granted]
  | cons ch value ih =>
      unfold escapeFrom
      rw [granted_after _ (granted_reserve _ _ _ _ _), ih, List.append_assoc]
      rfl

theorem escapeFields_granted (values : List Bytes) :
    (escapeFields values).granted = .ok (values.map escapeField) := by
  induction values with
  | nil => rfl
  | cons value values ih =>
      have hfield : (escapeFieldAlloc value).granted = .ok (escapeField value) := by
        unfold escapeFieldAlloc
        rw [granted_after _ (granted_demand _ _)]
        exact escapeFrom_granted value [] 16
      unfold escapeFields
      rw [granted_after _ hfield, granted_after _ ih]
      rfl

theorem serializeRowAlloc_granted (values : List Bytes) :
    (serializeRowAlloc values).granted = .ok (serializeRow values) := by
  unfold serializeRowAlloc
  rw [granted_after _ (granted_demand _ _), granted_after _ (escapeFields_granted values),
    granted_after _ (granted_demand _ _)]
  rfl

/-! ## With every request granted: tables and statements -/

theorem readTextFileAlloc_grants (path : Bytes) (files : FileSystem) :
    Grants .sql Eq (readTextFileAlloc path files) (readTextFile path files) := by
  unfold readTextFileAlloc
  cases readTextFile path files with
  | error e => exact rfl
  | ok content => exact ⟨_, rfl, rfl⟩

theorem ensureParentDirectory_granted (path : Bytes) :
    (ensureParentDirectory path).granted = .ok () := by
  unfold ensureParentDirectory
  cases parentPath path with
  | none => rfl
  | some parent =>
      simp only
      rw [granted_after _ (granted_demand _ _)]
      split
      · rfl
      · rfl

theorem copyName_granted (name : QualifiedName) : (copyName name).granted = .ok () := by
  unfold copyName
  split
  · rfl
  · rfl

theorem loadTableDefinitionAlloc_grants (dbRoot : Bytes) (name : QualifiedName)
    (files : FileSystem) :
    Grants .sql Eq (loadTableDefinitionAlloc dbRoot name files)
      (loadTableDefinition dbRoot name files) := by
  unfold loadTableDefinitionAlloc loadTableDefinition
  cases buildTablePaths dbRoot name with
  | error e => exact rfl
  | ok paths =>
      obtain ⟨schemaPath, dataPath⟩ := paths
      refine Grants.after (granted_demandBoth _ _ _) ?_
      refine Grants.after (copyName_granted name) ?_
      dsimp only
      refine (readTextFileAlloc_grants schemaPath files).split (fun e hread => by rw [hread]) ?_
      rintro content _ hread rfl
      rw [hread]
      refine Grants.after (splitPipeLineAlloc_granted content) ?_
      dsimp only
      split
      · exact rfl
      · exact ⟨_, rfl, rfl⟩

theorem placeValuesAlloc_grants (columns : List Bytes) (pairs : List (Bytes × Bytes))
    (ordered : List Bytes) (assigned : List Bool) :
    Grants .sql Eq (placeValuesAlloc columns pairs ordered assigned)
      (placeValues columns pairs ordered assigned) := by
  induction pairs generalizing ordered assigned with
  | nil => exact ⟨_, rfl, rfl⟩
  | cons p pairs ih =>
      obtain ⟨name, value⟩ := p
      unfold placeValuesAlloc placeValues
      cases findColumnIndex columns name with
      | none => exact rfl
      | some target =>
          simp only
          split
          · exact rfl
          · exact Grants.after (granted_demand _ _) (ih _ _)

theorem selectColumnsAlloc_grants (columns names : List Bytes) (indexes : List Nat)
    (projected : List Bytes) (capacity : Nat) :
    Grants .sql Eq (selectColumnsAlloc columns names indexes projected capacity)
      (selectColumns columns names indexes projected) := by
  induction names generalizing indexes projected capacity with
  | nil => exact ⟨_, rfl, rfl⟩
  | cons name names ih =>
      unfold selectColumnsAlloc selectColumns
      cases findColumnIndex columns name with
      | none => exact rfl
      | some index =>
          obtain ⟨capacity', happend⟩ := stringListAppend_granted
            (.outOfMemory "preparing result columns") projected capacity (columns.getD index [])
          exact Grants.after happend (ih _ _ _)

theorem prepareColumnsAlloc_grants (columns : List Bytes) (statement : SelectStatement) :
    Grants .sql Eq (prepareColumnsAlloc columns statement)
      (prepareColumns columns statement) := by
  unfold prepareColumnsAlloc prepareColumns
  split
  · obtain ⟨capacity', happend⟩ :=
      appendAll_granted (.outOfMemory "preparing result columns") columns [] 0
    exact Grants.after happend (Grants.after (granted_demand _ _) ⟨_, rfl, rfl⟩)
  · exact Grants.after (granted_demand _ _)
      (selectColumnsAlloc_grants columns statement.columns [] [] 0)

theorem prepareSelectAlloc_grants (dbRoot : Bytes) (statement : SelectStatement)
    (files : FileSystem) :
    Grants .sql Eq (prepareSelectAlloc dbRoot statement files)
      (prepareSelect dbRoot statement files) := by
  unfold prepareSelectAlloc prepareSelect
  refine (loadTableDefinitionAlloc_grants dbRoot statement.source files).split
    (fun e hload => by rw [hload]) ?_
  rintro table _ hload rfl
  rw [hload]
  dsimp only
  refine (prepareColumnsAlloc_grants table.columns statement).split
    (fun e hprepare => by rw [hprepare]) ?_
  rintro columns _ hprepare rfl
  rw [hprepare]
  dsimp only
  cases prepareWhere table.columns statement.where_ with
  | error e => exact rfl
  | ok test => exact ⟨_, rfl, rfl⟩

theorem queryResultAppendRow_granted (rows : List (List Bytes)) (capacity : Nat)
    (values : List Bytes) :
    ∃ capacity', (queryResultAppendRow rows capacity values).granted =
      .ok (rows ++ [values], capacity') := by
  obtain ⟨rowCapacity, happend⟩ := appendAll_granted (.outOfMemory "building result") values [] 0
  unfold queryResultAppendRow
  rw [granted_after _ (granted_reserve _ _ _ _ _), granted_after _ happend]
  exact ⟨_, rfl⟩

theorem selectRowsAlloc_grants (plan : SelectPlan) (records : List Bytes)
    (rows : List (List Bytes)) (capacity : Nat) :
    Grants .sql Eq (selectRowsAlloc plan records rows capacity)
      (selectRows plan.table.columns.length plan.indexes plan.test records rows) := by
  induction records generalizing rows capacity with
  | nil => exact ⟨_, rfl, rfl⟩
  | cons record records ih =>
      unfold selectRowsAlloc selectRows
      refine Grants.after (splitPipeLineAlloc_granted record) ?_
      dsimp only
      split
      · exact rfl
      · split
        · exact ih rows capacity
        · obtain ⟨rowCapacity, hproject⟩ := appendAll_granted (.outOfMemory "building result")
            (plan.indexes.map fun index => (splitPipeLine record).getD index []) [] 0
          obtain ⟨capacity', hrow⟩ := queryResultAppendRow_granted rows capacity
            (plan.indexes.map fun index => (splitPipeLine record).getD index [])
          exact Grants.after hproject (Grants.after hrow (ih _ _))

theorem prepareInsertAlloc_grants (dbRoot : Bytes) (statement : InsertStatement)
    (files : FileSystem) :
    Grants .sql Eq (prepareInsertAlloc dbRoot statement files)
      (prepareInsert dbRoot statement files) := by
  unfold prepareInsertAlloc prepareInsert
  split
  · exact rfl
  · refine (loadTableDefinitionAlloc_grants dbRoot statement.target files).split
      (fun e hload => by rw [hload]) ?_
    rintro table _ hload rfl
    rw [hload]
    obtain ⟨capacity, hslots⟩ := appendAll_granted (.outOfMemory "building row")
      (List.replicate table.columns.length []) [] 0
    refine Grants.after (granted_demand _ _) (Grants.after hslots ?_)
    dsimp only [List.nil_append]
    refine (placeValuesAlloc_grants table.columns (statement.columns.zip statement.values)
      (List.replicate table.columns.length [])
      (List.replicate table.columns.length false)).split (fun e hvalues => by rw [hvalues]) ?_
    rintro row _ hvalues rfl
    rw [hvalues]
    exact Grants.after (serializeRowAlloc_granted row)
      (Grants.after (ensureParentDirectory_granted _) ⟨_, rfl, rfl⟩)

/-- With every request granted INSERT is what it is without memory. -/
theorem appendInsertRowAlloc_granted (dbRoot : Bytes) (statement : InsertStatement)
    (affectedRows : Nat) (files : FileSystem) :
    let outcome := appendInsertRow dbRoot statement affectedRows files
    (appendInsertRowAlloc dbRoot statement affectedRows files).granted =
      match outcome.result with
      | .error e => .error ⟨.error (.sql e), outcome.affectedRows, outcome.files⟩
      | .ok () => .ok ⟨.ok (), outcome.affectedRows, outcome.files⟩ := by
  intro outcome
  have houtcome : outcome = _ := appendInsertRow_eq dbRoot statement affectedRows files
  have hgranted : (prepareInsertAlloc dbRoot statement files).granted = _ :=
    (prepareInsertAlloc_grants dbRoot statement files).granted_eq
  rw [houtcome, appendInsertRowAlloc, granted_bind, granted_mapError, hgranted]
  cases prepareInsert dbRoot statement files with
  | error e => rfl
  | ok row => rfl

theorem prepareDataFile_granted (path : Bytes) (files : FileSystem) :
    (prepareDataFile path files).granted = .ok () := by
  unfold prepareDataFile
  split
  · rw [granted_after _ (ensureParentDirectory_granted _)]
    exact ensureParentDirectory_granted _
  · rfl

/-- With every request granted SELECT is what it is without memory. -/
theorem runSelectQueryAlloc_granted (dbRoot : Bytes) (statement : SelectStatement)
    (files : FileSystem) :
    let outcome := runSelectQuery dbRoot statement files
    (runSelectQueryAlloc dbRoot statement files).granted =
      match outcome.result with
      | .error e => .error ⟨.error (.sql e), outcome.query, outcome.files⟩
      | .ok () => .ok ⟨.ok (), outcome.query, outcome.files⟩ := by
  intro outcome
  have houtcome : outcome = _ := runSelectQuery_eq dbRoot statement files
  have hgranted : (prepareSelectAlloc dbRoot statement files).granted = _ :=
    (prepareSelectAlloc_grants dbRoot statement files).granted_eq
  rw [houtcome, runSelectQueryAlloc, granted_bind, granted_mapError, hgranted]
  cases prepareSelect dbRoot statement files with
  | error e => rfl
  | ok plan =>
      have hfile : ((prepareDataFile plan.table.dataPath files).mapError fun e =>
          (⟨.error e, .empty, files⟩ : SelectAttempt)).granted = .ok () := by
        rw [granted_mapError, prepareDataFile_granted]
        rfl
      have hrows : (selectRowsAlloc plan (readRecords ((ensureDataFile
          plan.table.dataPath files).content plan.table.dataPath)) [] 0).granted = _ :=
        (selectRowsAlloc_grants plan _ [] 0).granted_eq
      dsimp only [Except.map, Except.mapError, Except.bind]
      rw [granted_after _ hfile, granted_bind, granted_mapError, hrows]
      cases selectRows plan.table.columns.length plan.indexes plan.test
          (readRecords ((ensureDataFile plan.table.dataPath files).content
            plan.table.dataPath)) [] with
      | error e => rfl
      | ok rows => rfl

end Granted

/-- An INSERT that is granted every request is the INSERT without memory. -/
theorem appendInsertRowUnder_granted (dbRoot : Bytes) (statement : InsertStatement)
    (affectedRows : Nat) (files : FileSystem) :
    appendInsertRowUnder (fun _ => true) dbRoot statement affectedRows files =
      ⟨(appendInsertRow dbRoot statement affectedRows files).result.mapError .sql,
        (appendInsertRow dbRoot statement affectedRows files).affectedRows,
        (appendInsertRow dbRoot statement affectedRows files).files⟩ := by
  unfold appendInsertRowUnder
  rw [Alloc.run_true, appendInsertRowAlloc_granted]
  cases (appendInsertRow dbRoot statement affectedRows files).result with
  | error e => rfl
  | ok => rfl

/-- A SELECT that is granted every request is the SELECT without memory. -/
theorem runSelectQueryUnder_granted (dbRoot : Bytes) (statement : SelectStatement)
    (files : FileSystem) :
    runSelectQueryUnder (fun _ => true) dbRoot statement files =
      ⟨(runSelectQuery dbRoot statement files).result.mapError .sql,
        (runSelectQuery dbRoot statement files).query,
        (runSelectQuery dbRoot statement files).files⟩ := by
  unfold runSelectQueryUnder
  rw [Alloc.run_true, runSelectQueryAlloc_granted]
  cases (runSelectQuery dbRoot statement files).result with
  | error e => rfl
  | ok => rfl

end MiniSql
