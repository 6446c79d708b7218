import MiniSql.Foundation.Interleave
import MiniSql.Storage.Insert
import MiniSql.Storage.Select

set_option autoImplicit false

/-!
# SELECT beside other processes (`run_select_query`, call by call)

Between any two file calls of a SELECT another process may run a complete INSERT,
and every call may fail for a reason of its own.  A first `fopen` that fails is
taken for a missing file, which is then created with the mode that truncates.
-/

namespace MiniSql

open Foundation

/-- What `run_select_query` has prepared when it comes to the data file. -/
structure SelectPlan where
  table : TableDefinition
  indexes : List Nat
  projected : List Bytes
  test : Option (Nat × Bytes)

/-- The part of `run_select_query` before the data file. -/
def prepareSelect (dbRoot : Bytes) (statement : SelectStatement) (files : FileSystem) :
    Except SqlError SelectPlan :=
  match loadTableDefinition dbRoot statement.source files with
  | .error e => .error e
  | .ok table =>
      match prepareColumns table.columns statement with
      | .error e => .error e
      | .ok (indexes, projected) =>
          match prepareWhere table.columns statement.where_ with
          | .error e => .error e
          | .ok test => .ok ⟨table, indexes, projected, test⟩

theorem prepareSelect_congr {dbRoot : Bytes} {statement : SelectStatement}
    {files files' : FileSystem} (h : files' (statement.source.schemaPath dbRoot) =
      files (statement.source.schemaPath dbRoot)) :
    prepareSelect dbRoot statement files' = prepareSelect dbRoot statement files := by
  unfold prepareSelect
  rw [loadTableDefinition_congr h]

theorem prepareSelect_load {dbRoot : Bytes} {files : FileSystem} {statement : SelectStatement}
    {plan : SelectPlan} (h : prepareSelect dbRoot statement files = .ok plan) :
    loadTableDefinition dbRoot statement.source files = .ok plan.table := by
  unfold prepareSelect at h
  cases hload : loadTableDefinition dbRoot statement.source files with
  | error e => simp [hload] at h
  | ok table =>
      simp only [hload] at h
      split at h
      · simp at h
      · split at h
        · simp at h
        · rw [← Except.ok.inj h]

/-- One round of the loop of `run_select_query`, on a record. -/
def SelectPlan.row (plan : SelectPlan) (record : Bytes) (rows : List (List Bytes)) :
    Except SqlError (List (List Bytes)) :=
  selectRows plan.table.columns.length plan.indexes plan.test [cString record] rows

/-- The file call `run_select_query` comes to next. -/
inductive SelectPhase where
  | loading
  /-- the first `fopen` of the data file -/
  | opening (plan : SelectPlan)
  /-- `write_text_file`, after the first `fopen` has failed -/
  | creating (plan : SelectPlan)
  /-- the second `fopen` -/
  | reopening (plan : SelectPlan)
  /-- `fgets`, behind the bytes already read -/
  | reading (plan : SelectPlan) (offset : Nat) (rows : List (List Bytes))
  | done (result : Except Failure Unit) (query : QueryResult)

/-- A SELECT under way and the files around it. -/
structure SelectState where
  phase : SelectPhase
  files : FileSystem

/-- The file calls of a SELECT, and what other processes do. -/
inductive FileCall where
  | otherInsert (dbRoot : Bytes) (statement : InsertStatement)
  | readSchema
  | openData
  | createData
  | reopenData
  | readRecord

/-- One step: a file call of the SELECT, or an INSERT of another process. -/
inductive SelectStep (dbRoot : Bytes) (statement : SelectStatement) :
    SelectState → FileCall → SelectState → Prop
  | otherInsert (phase : SelectPhase) (files : FileSystem) (root : Bytes)
      (insert : InsertStatement) :
      SelectStep dbRoot statement ⟨phase, files⟩ (.otherInsert root insert)
        ⟨phase, (appendInsertRow root insert 0 files).files⟩
  | prepares {files : FileSystem} {plan : SelectPlan}
      (hplan : prepareSelect dbRoot statement files = .ok plan) :
      SelectStep dbRoot statement ⟨.loading, files⟩ .readSchema ⟨.opening plan, files⟩
  /-- an unknown name, or the schema file cannot be read -/
  | refuses (files : FileSystem) (e : Failure) :
      SelectStep dbRoot statement ⟨.loading, files⟩ .readSchema
        ⟨.done (.error e) .empty, files⟩
  | opens {files : FileSystem} {plan : SelectPlan}
      (hexists : (files plan.table.dataPath).isSome = true) :
      SelectStep dbRoot statement ⟨.opening plan, files⟩ .openData
        ⟨.reading plan 0 [], files⟩
  /-- for whatever reason -/
  | openFails (files : FileSystem) (plan : SelectPlan) :
      SelectStep dbRoot statement ⟨.opening plan, files⟩ .openData ⟨.creating plan, files⟩
  | creates (files : FileSystem) (plan : SelectPlan) :
      SelectStep dbRoot statement ⟨.creating plan, files⟩ .createData
        ⟨.reopening plan, writeTextFile plan.table.dataPath [] files⟩
  | createFails (files : FileSystem) (plan : SelectPlan) (e : Failure) :
      SelectStep dbRoot statement ⟨.creating plan, files⟩ .createData
        ⟨.done (.error e) .empty, files⟩
  | reopens {files : FileSystem} {plan : SelectPlan}
      (hexists : (files plan.table.dataPath).isSome = true) :
      SelectStep dbRoot statement ⟨.reopening plan, files⟩ .reopenData
        ⟨.reading plan 0 [], files⟩
  | reopenFails (files : FileSystem) (plan : SelectPlan) :
      SelectStep dbRoot statement ⟨.reopening plan, files⟩ .reopenData
        ⟨.done (.error (.openDataFailed plan.table.dataPath)) .empty, files⟩
  /-- a record of the file as it is, or as it was when its bytes were buffered -/
  | reads {files : FileSystem} {plan : SelectPlan} {offset : Nat}
      {rows rows' : List (List Bytes)} {buffered record : Bytes} {records : List Bytes}
      (hbuffered : buffered <+: files.content plan.table.dataPath)
      (hrecord : cut recordFull (buffered.drop offset) = record :: records)
      (hrow : plan.row record rows = .ok rows') :
      SelectStep dbRoot statement ⟨.reading plan offset rows, files⟩ .readRecord
        ⟨.reading plan (offset + record.length) rows', files⟩
  | rejects {files : FileSystem} {plan : SelectPlan} {offset : Nat}
      {rows : List (List Bytes)} {buffered record : Bytes} {records : List Bytes}
      {e : SqlError} (hbuffered : buffered <+: files.content plan.table.dataPath)
      (hrecord : cut recordFull (buffered.drop offset) = record :: records)
      (hrow : plan.row record rows = .error e) :
      SelectStep dbRoot statement ⟨.reading plan offset rows, files⟩ .readRecord
        ⟨.done (.error (.sql e)) .empty, files⟩
  /-- at the end of the file, or on a read error -/
  | ends (files : FileSystem) (plan : SelectPlan) (offset : Nat)
      (rows : List (List Bytes)) :
      SelectStep dbRoot statement ⟨.reading plan offset rows, files⟩ .readRecord
        ⟨.done (.ok ()) ⟨plan.projected, rows⟩, files⟩

/-- The runs of one SELECT beside other processes. -/
abbrev SelectRun (dbRoot : Bytes) (statement : SelectStatement) :
    SelectState → List (Event SelectState FileCall) → SelectState → Prop :=
  Run (SelectStep dbRoot statement)

/-! ## A run by itself -/

section Alone

variable (dbRoot : Bytes) (statement : SelectStatement)

theorem runSelectQuery_eq (files : FileSystem) :
    runSelectQuery dbRoot statement files =
      match prepareSelect dbRoot statement files with
      | .error e => ⟨.error e, .empty, files⟩
      | .ok plan =>
          let files' := ensureDataFile plan.table.dataPath files
          match selectRows plan.table.columns.length plan.indexes plan.test
              (readRecords (files'.content plan.table.dataPath)) [] with
          | .error e => ⟨.error e, .empty, files'⟩
          | .ok rows => ⟨.ok (), ⟨plan.projected, rows⟩, files'⟩ := by
  unfold runSelectQuery prepareSelect
  cases loadTableDefinition dbRoot statement.source files with
  | error e => rfl
  | ok table =>
      simp only
      cases prepareColumns table.columns statement with
      | error e => rfl
      | ok prepared =>
          simp only
          cases prepareWhere table.columns statement.where_ with
          | error e => rfl
          | ok test => rfl

/-- The loop record by record is the loop over the records. -/
theorem selectRows_cons (plan : SelectPlan) (record : Bytes) (records : List Bytes)
    (rows : List (List Bytes)) :
    selectRows plan.table.columns.length plan.indexes plan.test
        ((record :: records).map cString) rows =
      match plan.row record rows with
      | .error e => .error e
      | .ok rows' => selectRows plan.table.columns.length plan.indexes plan.test
          (records.map cString) rows' := by
  unfold SelectPlan.row
  rw [List.map_cons, selectRows, selectRows]
  simp only [selectRows]
  split
  · rfl
  · split
    · rfl
    · rfl

/-- What the loop answers. -/
def readingOutcome (plan : SelectPlan) (rows : Except SqlError (List (List Bytes))) :
    SelectPhase :=
  match rows with
  | .error e => .done (.error (.sql e)) .empty
  | .ok rows => .done (.ok ()) ⟨plan.projected, rows⟩

theorem exists_run_reading (plan : SelectPlan) (files : FileSystem) (records : List Bytes)
    (offset : Nat) (rows : List (List Bytes))
    (hrecords : cut recordFull ((files.content plan.table.dataPath).drop offset) = records) :
    ∃ events, SelectRun dbRoot statement ⟨.reading plan offset rows, files⟩ events
      ⟨readingOutcome plan (selectRows plan.table.columns.length plan.indexes plan.test
        (records.map cString) rows), files⟩ := by
  induction records generalizing offset rows with
  | nil => exact ⟨_, .single (.ends files plan offset rows)⟩
  | cons record records ih =>
      have hnext := cut_drop_first hrecords
      rw [List.drop_drop] at hnext
      rw [selectRows_cons]
      cases hrow : plan.row record rows with
      | error e => exact ⟨_, .single (.rejects List.prefix_rfl hrecords hrow)⟩
      | ok rows' =>
          obtain ⟨events, hrun⟩ := ih (offset + record.length) rows' hnext
          exact ⟨_, .step (.reads List.prefix_rfl hrecords hrow) hrun⟩

/-- A data file that is there is opened, one that is not is created and opened. -/
theorem exists_run_opening (plan : SelectPlan) (files : FileSystem) :
    ∃ events, SelectRun dbRoot statement ⟨.opening plan, files⟩ events
      ⟨.reading plan 0 [], ensureDataFile plan.table.dataPath files⟩ := by
  unfold ensureDataFile
  cases hfile : files plan.table.dataPath with
  | some content => exact ⟨_, .single (.opens (by simp [hfile]))⟩
  | none =>
      have hcreated : (writeTextFile plan.table.dataPath [] files
          plan.table.dataPath).isSome = true := by simp
      exact ⟨_, .step (.openFails files plan)
        (.step (.creates files plan) (.single (.reopens hcreated)))⟩

/-- Without other processes and failures the calls make up `run_select_query`. -/
theorem exists_run_alone (files : FileSystem) :
    let outcome := runSelectQuery dbRoot statement files
    ∃ events, SelectRun dbRoot statement ⟨.loading, files⟩ events
      ⟨.done (outcome.result.mapError .sql) outcome.query, outcome.files⟩ := by
  intro outcome
  have houtcome : outcome = runSelectQuery dbRoot statement files := rfl
  rw [houtcome, runSelectQuery_eq]
  cases hplan : prepareSelect dbRoot statement files with
  | error e => exact ⟨_, .single (.refuses files (.sql e))⟩
  | ok plan =>
      obtain ⟨opening, hopening⟩ := exists_run_opening dbRoot statement plan files
      obtain ⟨reading, hreading⟩ := exists_run_reading dbRoot statement plan
        (ensureDataFile plan.table.dataPath files) _ 0 [] rfl
      have hrun := Run.step (.prepares hplan) (hopening.append hreading)
      rw [List.drop_zero] at hrun
      simp only
      unfold readRecords
      cases hrows : selectRows plan.table.columns.length plan.indexes plan.test
          ((cut recordFull ((ensureDataFile plan.table.dataPath files).content
            plan.table.dataPath)).map cString) [] with
      | error e =>
          rw [hrows] at hrun
          exact ⟨_, hrun⟩
      | ok rows =>
          rw [hrows] at hrun
          exact ⟨_, hrun⟩

end Alone

/-! ## What the run keeps -/

/-- Every file still begins with what it held. -/
def Extends (files files' : FileSystem) : Prop :=
  ∀ path, files.content path <+: files'.content path

theorem Extends.refl (files : FileSystem) : Extends files files := fun _ => List.prefix_rfl

theorem Extends.trans {files files' files'' : FileSystem} (h : Extends files files')
    (h' : Extends files' files'') : Extends files files'' :=
  fun path => (h path).trans (h' path)

theorem extends_appendTextFile (path content : Bytes) (files : FileSystem) :
    Extends files (appendTextFile path content files) := by
  intro other
  by_cases h : other = path
  · rw [h, content_appendTextFile]
    exact List.prefix_append _ _
  · have hother : (appendTextFile path content files).content other = files.content other :=
      content_appendTextFile_of_ne h
    exact hother ▸ List.prefix_rfl

/-- Truncating an empty or missing file is the only way to truncate and to keep every
byte. -/
theorem extends_writeTextFile_iff {path : Bytes} {files : FileSystem} :
    Extends files (writeTextFile path [] files) ↔ files.content path = [] := by
  constructor
  · intro h
    have hpath := h path
    rw [content_writeTextFile] at hpath
    exact List.prefix_nil.mp hpath
  · intro h other
    have hsame : (writeTextFile path [] files).content other = files.content other :=
      content_writeTextFile_empty h
    exact hsame ▸ List.prefix_rfl

/-- What statements do to the files at most: no schema file changes, and every file still
begins with what it held. -/
structure GrowsTo (dbRoot : Bytes) (files files' : FileSystem) : Prop where
  schema : ∀ name : QualifiedName,
    files' (name.schemaPath dbRoot) = files (name.schemaPath dbRoot)
  content : Extends files files'
  present : ∀ path, (files path).isSome = true → (files' path).isSome = true

section Growing

variable {dbRoot otherRoot : Bytes} {files files' files'' : FileSystem}

theorem GrowsTo.refl (dbRoot : Bytes) (files : FileSystem) : GrowsTo dbRoot files files :=
  ⟨fun _ => rfl, .refl files, fun _ h => h⟩

theorem GrowsTo.trans (h : GrowsTo dbRoot files files') (h' : GrowsTo dbRoot files' files'') :
    GrowsTo dbRoot files files'' :=
  ⟨fun name => (h'.schema name).trans (h.schema name), h.content.trans h'.content,
    fun path hpath => h'.present path (h.present path hpath)⟩

/-- A data file that is appended to, under whatever root. -/
theorem growsTo_appendTextFile (name : QualifiedName) (content : Bytes) :
    GrowsTo dbRoot files (appendTextFile (name.dataPath otherRoot) content files) := by
  refine ⟨fun other => ?_, extends_appendTextFile _ _ _, fun path h => ?_⟩
  · exact appendTextFile_of_ne (dataPath_ne_schemaPath other dbRoot).symm
  · by_cases hpath : path = name.dataPath otherRoot
    · simp [hpath]
    · rwa [appendTextFile_of_ne hpath]

/-- A data file that is emptied, and held nothing. -/
theorem growsTo_writeTextFile_empty (name : QualifiedName)
    (hempty : files.content (name.dataPath otherRoot) = []) :
    GrowsTo dbRoot files (writeTextFile (name.dataPath otherRoot) [] files) := by
  refine ⟨fun other => ?_, extends_writeTextFile_iff.mpr hempty, fun path h => ?_⟩
  · exact writeTextFile_of_ne (dataPath_ne_schemaPath other dbRoot).symm
  · by_cases hpath : path = name.dataPath otherRoot
    · simp [hpath]
    · rwa [writeTextFile_of_ne hpath]

/-- A data file that is there then. -/
theorem growsTo_ensureDataFile (name : QualifiedName) :
    GrowsTo dbRoot files (ensureDataFile (name.dataPath otherRoot) files) := by
  unfold ensureDataFile
  cases hfile : files (name.dataPath otherRoot) with
  | none => exact growsTo_writeTextFile_empty name (by simp [FileSystem.content, hfile])
  | some content => exact .refl dbRoot files

end Growing

/-- An INSERT only extends its data file. -/
theorem extends_appendInsertRow (dbRoot : Bytes) (statement : InsertStatement)
    (affectedRows : Nat) (files : FileSystem) :
    Extends files (appendInsertRow dbRoot statement affectedRows files).files := by
  rcases appendInsertRow_cases dbRoot statement affectedRows files with
    ⟨table, _, _, hout⟩ | ⟨_, e, hout⟩
  · rw [hout]
    exact extends_appendTextFile _ _ _
  · rw [hout]
    exact .refl _

/-- The file a step opens with the mode that truncates. -/
def truncated (e : Event SelectState FileCall) : Option Bytes :=
  match e.before.phase, e.after.phase with
  | .creating plan, .reopening _ => some plan.table.dataPath
  | _, _ => none

section Keeps

variable {dbRoot : Bytes} {statement : SelectStatement} {start final : SelectState}
  {events : List (Event SelectState FileCall)}

/-- A step keeps every byte, unless it truncates a file that is not empty. -/
theorem SelectStep.extends_iff {s t : SelectState} {call : FileCall}
    (h : SelectStep dbRoot statement s call t) :
    Extends s.files t.files ↔
      ∀ path ∈ truncated ⟨s, call, t⟩, s.files.content path = [] := by
  cases h with
  | otherInsert phase files root insert =>
      refine iff_of_true (extends_appendInsertRow root insert 0 files) ?_
      cases phase with
      | creating plan => simp [truncated]
      | loading => simp [truncated]
      | opening plan => simp [truncated]
      | reopening plan => simp [truncated]
      | reading plan offset rows => simp [truncated]
      | done result query => simp [truncated]
  | creates files plan => simpa [truncated] using extends_writeTextFile_iff
  | prepares => exact iff_of_true (.refl _) (by simp [truncated])
  | refuses => exact iff_of_true (.refl _) (by simp [truncated])
  | opens => exact iff_of_true (.refl _) (by simp [truncated])
  | openFails => exact iff_of_true (.refl _) (by simp [truncated])
  | createFails => exact iff_of_true (.refl _) (by simp [truncated])
  | reopens => exact iff_of_true (.refl _) (by simp [truncated])
  | reopenFails => exact iff_of_true (.refl _) (by simp [truncated])
  | reads => exact iff_of_true (.refl _) (by simp [truncated])
  | rejects => exact iff_of_true (.refl _) (by simp [truncated])
  | ends => exact iff_of_true (.refl _) (by simp [truncated])

/-- No byte of a file is lost: not in a step, not over the run, and the rows of every
INSERT that answered true are in their file at the end. -/
structure KeepsData (start final : SelectState) (events : List (Event SelectState FileCall)) :
    Prop where
  step : ∀ e ∈ events, Extends e.before.files e.after.files
  run : Extends start.files final.files
  rows : ∀ e ∈ events, ∀ root insert table, e.label = .otherInsert root insert →
    loadTableDefinition root insert.target e.before.files = .ok table →
    (appendInsertRow root insert 0 e.before.files).result = .ok () →
      e.before.files.content table.dataPath ++
        serializeRow (intendedRow table.columns insert) <+: final.files.content table.dataPath

/-- A run keeps all data exactly when, each time the data file is opened with the mode
that truncates, it is missing or empty. -/
theorem selectRun_keepsData_iff (h : SelectRun dbRoot statement start events final) :
    KeepsData start final events ↔
      ∀ e ∈ events, ∀ path ∈ truncated e, e.before.files.content path = [] := by
  have hsteps := h.step_of_mem
  constructor
  · intro hkeeps e he
    exact (hsteps e he).extends_iff.mp (hkeeps.step e he)
  · intro htruncated
    have hextends : ∀ e ∈ events, Extends e.before.files e.after.files :=
      fun e he => (hsteps e he).extends_iff.mpr (htruncated e he)
    have hrefl : ∀ s : SelectState, Extends s.files s.files := fun s => .refl s.files
    have htrans : ∀ {s t u : SelectState}, Extends s.files t.files →
        Extends t.files u.files → Extends s.files u.files := fun hst htu => hst.trans htu
    refine ⟨hextends, h.extends_start (R := fun s t => Extends s.files t.files) hrefl htrans
      hextends, ?_⟩
    intro e he root insert table hlabel hload hok
    have hafter := h.extends_of_mem (R := fun s t => Extends s.files t.files) hrefl htrans
      hextends e he table.dataPath
    have hinsert : e.after.files.content table.dataPath =
        e.before.files.content table.dataPath ++
          serializeRow (intendedRow table.columns insert) := by
      have hstep := hsteps e he
      rw [hlabel] at hstep
      obtain ⟨before, label, after⟩ := e
      cases hstep with
      | otherInsert phase files root insert =>
          simp only [appendInsertRow_of_ok hload hok, content_appendTextFile]
    rwa [hinsert] at hafter

end Keeps

theorem prepareSelect_star {dbRoot : Bytes} {name : QualifiedName} {files : FileSystem}
    {table : TableDefinition} (hload : loadTableDefinition dbRoot name files = .ok table) :
    prepareSelect dbRoot ⟨name, true, [], none⟩ files =
      .ok ⟨table, List.range table.columns.length, table.columns, none⟩ := by
  simp [prepareSelect, hload, prepareColumns, prepareWhere]

/-- A run that opens a file which is there, with an INSERT in between. -/
theorem selectRun_keepsData_opened :
    let name : QualifiedName := ⟨none, some (ascii "t")⟩
    let files : FileSystem := fun path =>
      if path = ascii "db/t.schema" then some (ascii "c")
      else if path = ascii "db/t.data" then some (ascii "a\n") else none
    let insert : InsertStatement := ⟨name, [ascii "c"], [ascii "b"]⟩
    ∃ events final, SelectRun (ascii "db") ⟨name, true, [], none⟩ ⟨.loading, files⟩ events final ∧
      (∃ e ∈ events, e.label = .otherInsert (ascii "db") insert) ∧
      KeepsData ⟨.loading, files⟩ final events := by
  intro name files insert
  obtain ⟨table, hload, -, hpath⟩ : ∃ table,
      loadTableDefinition (ascii "db") name files = .ok table ∧ _ :=
    loadTableDefinition_of_file (ascii "c") (by decide) (by decide) (by decide +kernel)
  have hexists : (files table.dataPath).isSome = true := by
    rw [hpath]
    decide
  have hrun : SelectRun (ascii "db") ⟨name, true, [], none⟩ ⟨.loading, files⟩ _ _ :=
    .step (.prepares (prepareSelect_star hload)) (.step (.opens hexists)
      (.step (.otherInsert _ _ (ascii "db") insert) (.single (.ends _ _ _ _))))
  refine ⟨_, _, hrun, ⟨_, .tail _ (.tail _ (.head _)), rfl⟩, ?_⟩
  apply (selectRun_keepsData_iff hrun).mpr
  simp [truncated]

/-- The data file is missing, another process inserts the first row after `fopen` has
failed, and the file is truncated: the row is gone. -/
theorem selectRun_loses_row :
    let name : QualifiedName := ⟨none, some (ascii "t")⟩
    let files : FileSystem := fun path =>
      if path = ascii "db/t.schema" then some (ascii "c") else none
    let insert : InsertStatement := ⟨name, [ascii "c"], [ascii "b"]⟩
    (appendInsertRow (ascii "db") insert 0 files).result = .ok () ∧
      (appendInsertRow (ascii "db") insert 0 files).files (ascii "db/t.data") =
        some (ascii "b\n") ∧
      ∃ events final, SelectRun (ascii "db") ⟨name, true, [], none⟩ ⟨.loading, files⟩ events
          final ∧
        (∃ e ∈ events, e.label = .otherInsert (ascii "db") insert ∧ e.before.files = files) ∧
        final.files (ascii "db/t.data") = some [] ∧
        ¬ KeepsData ⟨.loading, files⟩ final events := by
  intro name files insert
  have hok : (appendInsertRow (ascii "db") insert 0 files).result = .ok () := by
    decide +kernel
  refine ⟨hok, by decide +kernel, ?_⟩
  obtain ⟨table, hload, -, hpath⟩ : ∃ table,
      loadTableDefinition (ascii "db") name files = .ok table ∧ _ :=
    loadTableDefinition_of_file (ascii "c") (by decide) (by decide) (by decide +kernel)
  have hdata : table.dataPath = ascii "db/t.data" := by
    rw [hpath]
    decide +kernel
  have hcreated : ∀ files' : FileSystem,
      (writeTextFile table.dataPath [] files' table.dataPath).isSome = true := by simp
  have hrun : SelectRun (ascii "db") ⟨name, true, [], none⟩ ⟨.loading, files⟩ _ _ :=
    .step (.prepares (prepareSelect_star hload)) (.step (.openFails _ _)
      (.step (.otherInsert _ _ (ascii "db") insert) (.step (.creates _ _)
        (.step (.reopens (hcreated _)) (.single (.ends _ _ _ _))))))
  refine ⟨_, _, hrun, ⟨_, .tail _ (.tail _ (.head _)), rfl, rfl⟩, ?_, ?_⟩
  · simp only [← hdata, writeTextFile_same]
  · intro hkeeps
    have hrow := hkeeps.rows _ (.tail _ (.tail _ (.head _))) (ascii "db") insert table rfl hload
      hok
    simp only [FileSystem.content, writeTextFile_same, Option.getD_some, List.prefix_nil,
      List.append_eq_nil_iff] at hrow
    exact serializeRow_ne_nil _ hrow.2

end MiniSql
