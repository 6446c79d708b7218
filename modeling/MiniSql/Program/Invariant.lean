import MiniSql.Program.Isolation
import MiniSql.Storage.Lines

set_option autoImplicit false

/-!
# The invariant of the store

Every data file is made of lines that decode to as many values as the schema has
columns.  One statement keeps this (`executeStatement_table`), and so does a run,
wherever it stops; the decoded lines only ever grow by the rows that were
inserted.
-/

namespace MiniSql

open Foundation

/-- The data file of every table with an accepted schema is well formed. -/
def WellFormed (dbRoot : Bytes) (files : FileSystem) : Prop :=
  ∀ name table, loadTableDefinition dbRoot name files = .ok table →
    WellFormedData table.columns.length (files table.dataPath)

/-- The rows a statement that succeeds adds to a table.  Names are compared by
their data files; for names made of words this is equality
(`TableName.dataPath_injective`). -/
def insertedRows (dbRoot : Bytes) (name : QualifiedName) (columns : List Bytes) :
    Statement → List (List Bytes)
  | .insert statement =>
      if statement.target.dataPath dbRoot = name.dataPath dbRoot then
        [intendedRow columns statement]
      else []
  | .select _ => []

section Step

variable {dbRoot : Bytes} {name : QualifiedName} {files : FileSystem}
  {table : TableDefinition}

/-- What one table has: its definition and well-formed data. -/
def TableInvariant (dbRoot : Bytes) (name : QualifiedName) (table : TableDefinition)
    (files : FileSystem) : Prop :=
  loadTableDefinition dbRoot name files = .ok table ∧
    WellFormedData table.columns.length (files table.dataPath)

/-- Two names with one data file have the same columns. -/
theorem columns_eq_of_dataPath_eq {other : QualifiedName} {table' : TableDefinition}
    (h : loadTableDefinition dbRoot name files = .ok table)
    (h' : loadTableDefinition dbRoot other files = .ok table')
    (hpath : name.dataPath dbRoot = other.dataPath dbRoot) :
    table.columns = table'.columns := by
  obtain ⟨content, hfile, hcolumns⟩ := loadTableDefinition_columns h
  obtain ⟨content', hfile', hcolumns'⟩ := loadTableDefinition_columns h'
  rw [schemaPath_eq_of_dataPath_eq hpath, hfile'] at hfile
  rw [hcolumns, hcolumns', Option.some.inj hfile]

/-- A data file that is created is well formed. -/
theorem WellFormedData.ensureDataFile {width : Nat} {path : Bytes}
    (h : WellFormedData width (files path)) :
    WellFormedData width (ensureDataFile path files path) := by
  unfold MiniSql.ensureDataFile
  cases hfile : files path with
  | none =>
      simp only [writeTextFile_same]
      exact .of_empty
  | some content =>
      simp only [hfile]
      rwa [hfile] at h

theorem loadTableDefinition_execute (statement : Statement) :
    loadTableDefinition dbRoot name (executeStatement dbRoot statement files).2 =
      loadTableDefinition dbRoot name files :=
  loadTableDefinition_congr (executeStatement_schema statement name)

/-- One statement keeps a table well formed.  It adds its rows when it succeeds and
none when it fails. -/
theorem executeStatement_table {statement : Statement} (hwritten : statement.Written)
    (h : TableInvariant dbRoot name table files) :
    TableInvariant dbRoot name table (executeStatement dbRoot statement files).2 ∧
      decodedLines ((executeStatement dbRoot statement files).2.content table.dataPath) =
        decodedLines (files.content table.dataPath) ++
          (if (executeStatement dbRoot statement files).1.isOk then
            insertedRows dbRoot name table.columns statement else []) := by
  obtain ⟨hload, hdata⟩ := h
  have hload' : loadTableDefinition dbRoot name
      (executeStatement dbRoot statement files).2 = .ok table := by
    rw [loadTableDefinition_execute, hload]
  have hpath := (loadTableDefinition_paths hload).2
  refine and_assoc.mpr ⟨hload', ?_⟩
  have heffect := executeStatement_effect dbRoot statement files
  revert heffect
  generalize executeStatement dbRoot statement files = outcome
  intro heffect
  cases heffect with
  | failed => simp [Except.isOk, Except.toBool, hdata]
  | @inserted statement target hloadTarget hinsertable =>
      simp only [Except.isOk, Except.toBool, if_true, insertedRows]
      have htarget := (loadTableDefinition_paths hloadTarget).2
      by_cases hsame : statement.target.dataPath dbRoot = name.dataPath dbRoot
      · have hcolumns := columns_eq_of_dataPath_eq hloadTarget hload hsame
        have hfile : target.dataPath = table.dataPath := by rw [htarget, hsame, hpath]
        rw [if_pos hsame, hcolumns, hfile]
        have happend := hdata.append_row (length_intendedRow table.columns statement)
          (intendedRow_ne_nil table statement)
          (intendedRow_nulFree (hwritten.values statement rfl))
        exact happend
      · have hfile : table.dataPath ≠ target.dataPath := by
          rw [htarget, hpath]
          exact fun heq => hsame heq.symm
        rw [if_neg hsame, List.append_nil, content_appendTextFile_of_ne hfile,
          appendTextFile_of_ne hfile]
        exact ⟨hdata, rfl⟩
  | @selected statement target query hloadTarget =>
      simp only [insertedRows, ite_self, List.append_nil, content_ensureDataFile, and_true]
      by_cases hfile : table.dataPath = target.dataPath
      · rw [← hfile]
        exact hdata.ensureDataFile
      · rw [ensureDataFile_of_ne hfile]
        exact hdata

end Step

/-! ## Runs -/

/-- The statements of a source that succeed in a run over it. -/
def succeeded (dbRoot source : Bytes) (files : FileSystem) : List Statement :=
  completed (executeStatement dbRoot) (parseSqlScript source).script files

/-- A run keeps a table well formed and extends it by the rows of its statements
that succeeded. -/
theorem runScript_table {dbRoot : Bytes} {name : QualifiedName} {table : TableDefinition}
    {files : FileSystem} {script : List Statement}
    (hwritten : ∀ statement ∈ script, statement.Written)
    (h : TableInvariant dbRoot name table files) :
    TableInvariant dbRoot name table (runScript dbRoot script files).state ∧
      decodedLines ((runScript dbRoot script files).state.content table.dataPath) =
        decodedLines (files.content table.dataPath) ++
          (completed (executeStatement dbRoot) script files).flatMap
            (insertedRows dbRoot name table.columns) := by
  have hstep : ∀ statement ∈ script, ∀ files, TableInvariant dbRoot name table files →
      TableInvariant dbRoot name table (executeStatement dbRoot statement files).2 :=
    fun statement hmem files hinv => (executeStatement_table (hwritten statement hmem) hinv).1
  refine ⟨runAll_invariant script hstep h, ?_⟩
  apply runAll_view (fun s : FileSystem => decodedLines (s.content table.dataPath))
    (insertedRows dbRoot name table.columns) script hstep
  · intro statement hmem s answer s' hinv hout
    have htable := (executeStatement_table (hwritten statement hmem) hinv).2
    rw [hout] at htable
    exact htable
  · intro statement hmem s e s' hinv hout
    have htable := (executeStatement_table (hwritten statement hmem) hinv).2
    rw [hout] at htable
    simpa [Except.isOk, Except.toBool] using htable
  · exact h

/-- After a run over any text the store is well formed again, whether the text was
rejected or the run stopped at a failing statement.  The schema of every table is
as before, and its decoded lines are the old ones followed by the rows of its
INSERTs that succeeded, in order. -/
theorem runSource_wellFormed (dbRoot text : Bytes) (files : FileSystem)
    (h : WellFormed dbRoot files) :
    WellFormed dbRoot (runSource dbRoot (cString text) files).files ∧
      ∀ name table, loadTableDefinition dbRoot name files = .ok table →
        loadTableDefinition dbRoot name (runSource dbRoot (cString text) files).files =
            .ok table ∧
          decodedLines
              ((runSource dbRoot (cString text) files).files.content table.dataPath) =
            decodedLines (files.content table.dataPath) ++
              (succeeded dbRoot (cString text) files).flatMap
                (insertedRows dbRoot name table.columns) := by
  have hwritten : ∀ statement ∈ (parseSqlScript (cString text)).script,
      statement.Written := by
    intro statement hmem
    by_cases hparse : (parseSqlScript (cString text)).result = .ok ()
    · exact parseSqlScript_written (cString_nulFree text) hparse statement hmem
    · rw [parseSqlScript_failed hparse] at hmem
      simp at hmem
  have hfiles : (runSource dbRoot (cString text) files).files =
      (runScript dbRoot (parseSqlScript (cString text)).script files).state := by
    cases hparse : (parseSqlScript (cString text)).result with
    | ok => exact (runSource_of_ok dbRoot files hparse).1
    | error e =>
        rw [runSource_of_error dbRoot files hparse, parseSqlScript_failed (by simp [hparse])]
        rfl
  rw [hfiles]
  refine ⟨?_, ?_⟩
  · intro name table hload
    have hbefore : loadTableDefinition dbRoot name files = .ok table := by
      rw [← hload]
      apply loadTableDefinition_congr
      exact (runAll_invariant (I := fun s : FileSystem => s (name.schemaPath dbRoot) =
        files (name.schemaPath dbRoot)) _
        (fun statement _ s hs => (executeStatement_schema statement name).trans hs) rfl).symm
    exact (runScript_table hwritten ⟨hbefore, h name table hbefore⟩).1.2
  · intro name table hload
    have hrun := runScript_table hwritten ⟨hload, h name table hload⟩
    exact ⟨hrun.1.1, hrun.2⟩

/-- A value that holds a pipe is one line of the new data file, which decodes to it. -/
theorem runSource_wellFormed_pipe :
    let files : FileSystem :=
      fun path => if path = ascii "db/t.schema" then some (ascii "c") else none
    let text := ascii "INSERT INTO t (c) VALUES ('a|b')"
    decodedLines ((runSource (ascii "db") (cString text) files).files.content
      (ascii "db/t.data")) = [[ascii "a|b"]] := by
  intro files text
  have hschema : (⟨none, some (ascii "t")⟩ : QualifiedName).schemaPath (ascii "db") =
      ascii "db/t.schema" := by decide
  have hwellFormed : WellFormed (ascii "db") files := by
    intro name table hload
    have hpath : table.dataPath ≠ ascii "db/t.schema" := by
      rw [(loadTableDefinition_paths hload).2, ← hschema]
      exact dataPath_ne_schemaPath _ _
    simp only [files, hpath, if_false]
    exact .of_missing
  obtain ⟨table, hload, hcolumns, hpath⟩ : ∃ table,
      loadTableDefinition (ascii "db") ⟨none, some (ascii "t")⟩ files = .ok table ∧ _ :=
    loadTableDefinition_of_file (ascii "c") (by decide) (by decide) (by decide +kernel)
  have hrun := ((runSource_wellFormed (ascii "db") text files hwellFormed).2 _ table hload).2
  rw [hpath, hcolumns] at hrun
  exact hrun.trans (by decide +kernel)

end MiniSql
