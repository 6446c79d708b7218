import MiniSql.Program.Executor
import MiniSql.Storage.Directories
import MiniSql.Storage.Failures
import MiniSql.Storage.Interleaving

set_option autoImplicit false

/-!
# When any file call fails

`read_text_file`, `write_mode_file` and what calls them, with every call of the system they
make: each of them may fail by itself.  A failure is reported but for three: the flush of
`fclose`, the end of the file that `fgets` answers on a read error, and the first `fopen`
of a SELECT, which is taken for a missing file.
-/

namespace MiniSql

open Foundation

/-! ## The calls -/

/-- The call of `read_text_file` that fails. -/
inductive ReadCall where
  | fopen
  /-- `fseek` to the end -/
  | seekEnd
  | ftell
  /-- `fseek` back to the start -/
  | rewind
  | fread
  deriving DecidableEq, Repr

/-- What is reported when the calls may fail. -/
inductive CallError where
  | known (e : Failure)
  | readFailed (call : ReadCall) (path : Bytes)
  | directoryFailed (directory : Bytes)
  deriving DecidableEq, Repr

/-- The text `snprintf` formats. -/
def CallError.text : CallError → Bytes
  | .known e => e.text
  | .readFailed .fopen path => ascii "failed to open file: " ++ path
  | .readFailed .seekEnd path => ascii "failed to seek file: " ++ path
  | .readFailed .ftell path => ascii "failed to determine file size: " ++ path
  | .readFailed .rewind path => ascii "failed to rewind file: " ++ path
  | .readFailed .fread path => ascii "failed to read complete file: " ++ path
  | .directoryFailed directory => ascii "failed to create directory: " ++ directory

/-- An error the program finds by itself. -/
def CallError.ofSql (e : SqlError) : CallError := .known (.sql e)

/-- How the calls of `write_mode_file` go. -/
structure WriteCalls (size : Nat) where
  /-- where `mkdir` fails, the length of the path it fails for -/
  mkdir : Option Nat
  fopenFails : Bool
  write : BufferedWrite size

/-- How the calls of one statement go. -/
structure StatementCalls where
  /-- the call that fails when the schema file is read -/
  schema : Option ReadCall
  append : (size : Nat) → WriteCalls size
  /-- the first `fopen` of a SELECT fails, though the file may be there -/
  openFails : Bool
  /-- `ensure_parent_directory` in front of `write_text_file` -/
  mkdir : Option Nat
  create : WriteCalls 0
  reopenFails : Bool
  /-- where reading breaks off -/
  fgets : Option Nat

/-! ## The functions that make them -/

/-- `read_text_file`. -/
def readTextFileOn (failing : Option ReadCall) (path : Bytes) (files : FileSystem) :
    Except CallError Bytes :=
  match files path with
  | none => .error (.ofSql (.openFailed path))
  | some content =>
      match failing with
      | some call => .error (.readFailed call path)
      | none => .ok (cString content)

/-- `ensure_parent_directory`; no directory is made for a path without one. -/
def ensureParentDirectoryCalls (mkdir : Option Nat) (path : Bytes) : Except CallError Unit :=
  match parentPath path, mkdir with
  | some parent, some length =>
      if parent = [] then .ok ()
      else .error (.directoryFailed ((unifySeparators parent).take length))
  | _, _ => .ok ()

/-- `append_text_file`. -/
def appendTextFileOn (path content : Bytes) (calls : WriteCalls content.length)
    (files : FileSystem) : Except CallError Unit × FileSystem :=
  match ensureParentDirectoryCalls calls.mkdir path with
  | .error e => (.error e, files)
  | .ok () =>
      if calls.fopenFails then (.error (.known (.openForWritingFailed path)), files)
      else
        let (answer, files') := appendTextFileWriting path content calls.write files
        (answer.mapError .known, files')

/-- `write_text_file` of the empty text, which leaves `fputs` nothing to fail at. -/
def createTextFileOn (path : Bytes) (calls : WriteCalls 0) (files : FileSystem) :
    Except CallError Unit × FileSystem :=
  match ensureParentDirectoryCalls calls.mkdir path with
  | .error e => (.error e, files)
  | .ok () =>
      if calls.fopenFails then (.error (.known (.openForWritingFailed path)), files)
      else (.ok (), writeTextFile path [] files)

/-- `load_table_definition`. -/
def loadTableDefinitionOn (failing : Option ReadCall) (dbRoot : Bytes) (name : QualifiedName)
    (files : FileSystem) : Except CallError TableDefinition :=
  match buildTablePaths dbRoot name with
  | .error e => .error (.ofSql e)
  | .ok (schemaPath, dataPath) =>
      match readTextFileOn failing schemaPath files with
      | .error e => .error e
      | .ok schemaContent =>
          let columns := splitPipeLine schemaContent
          if h : columns ≠ [] ∧ columns ≠ [[]] then .ok ⟨name, columns, schemaPath, dataPath, h⟩
          else .error (.ofSql (.schemaFileEmpty none))

/-- `append_insert_row`: what it answers, with the affected rows, and the files it leaves. -/
def appendInsertRowOn (calls : StatementCalls) (dbRoot : Bytes) (statement : InsertStatement)
    (files : FileSystem) : Except CallError Nat × FileSystem :=
  if statement.columns.length ≠ statement.values.length then
    (.error (.ofSql .insertCountMismatch), files)
  else
    match loadTableDefinitionOn calls.schema dbRoot statement.target files with
    | .error e => (.error e, files)
    | .ok table =>
        match placeValues table.columns (statement.columns.zip statement.values)
            (List.replicate table.columns.length [])
            (List.replicate table.columns.length false) with
        | .error e => (.error (.ofSql e), files)
        | .ok ordered =>
            let line := serializeRow ordered
            match appendTextFileOn table.dataPath line (calls.append line.length) files with
            | (.error e, files') => (.error e, files')
            | (.ok (), files') => (.ok 1, files')

/-- The part of `run_select_query` that opens the data file. -/
def openDataFileOn (calls : StatementCalls) (path : Bytes) (files : FileSystem) :
    Except CallError Unit × FileSystem :=
  if (files path).isSome && !calls.openFails then (.ok (), files)
  else
    match ensureParentDirectoryCalls calls.mkdir path with
    | .error e => (.error e, files)
    | .ok () =>
        match createTextFileOn path calls.create files with
        | (.error e, files') => (.error e, files')
        | (.ok (), files') =>
            if calls.reopenFails then (.error (.known (.openDataFailed path)), files')
            else (.ok (), files')

/-- The part of `run_select_query` from the data file on. -/
def readRowsOn (calls : StatementCalls) (plan : SelectPlan) (files : FileSystem) :
    Except CallError QueryResult × FileSystem :=
  match openDataFileOn calls plan.table.dataPath files with
  | (.error e, files') => (.error e, files')
  | (.ok (), files') =>
      match selectRows plan.table.columns.length plan.indexes plan.test
          (fgetsRecords (files'.content plan.table.dataPath) calls.fgets) [] with
      | .error e => (.error (.ofSql e), files')
      | .ok rows => (.ok ⟨plan.projected, rows⟩, files')

/-- `run_select_query`. -/
def runSelectQueryOn (calls : StatementCalls) (dbRoot : Bytes) (statement : SelectStatement)
    (files : FileSystem) : Except CallError QueryResult × FileSystem :=
  match loadTableDefinitionOn calls.schema dbRoot statement.source files with
  | .error e => (.error e, files)
  | .ok table =>
      match prepareColumns table.columns statement with
      | .error e => (.error (.ofSql e), files)
      | .ok (indexes, projected) =>
          match prepareWhere table.columns statement.where_ with
          | .error e => (.error (.ofSql e), files)
          | .ok where_ => readRowsOn calls ⟨table, indexes, projected, where_⟩ files

/-- `execute_statement`. -/
def executeStatementOn (calls : StatementCalls) (dbRoot : Bytes) (files : FileSystem) :
    Statement → Except CallError ExecutionResult × FileSystem
  | .insert statement =>
      let (answer, files') := appendInsertRowOn calls dbRoot statement files
      (answer.map .insert, files')
  | .select statement =>
      let (answer, files') := runSelectQueryOn calls dbRoot statement files
      (answer.map .select, files')

/-! ## What they leave -/

/-- The failures that are not reported do not happen. -/
structure StatementCalls.Reported (calls : StatementCalls) : Prop where
  fclose : ∀ size, (calls.append size).write.fputsFails = false →
    (calls.append size).write.byFputs + (calls.append size).write.byFclose = size
  fopen : calls.openFails = false
  fgets : calls.fgets = none

/-- One file has a piece more at its end, and no other file has changed. -/
structure GrowsBy (path piece : Bytes) (files files' : FileSystem) : Prop where
  content : files'.content path = files.content path ++ piece
  present : (files path).isSome = true → (files' path).isSome = true
  frame : ∀ other, other ≠ path → files' other = files other

/-- The line that a statement has to write, if there is one. -/
def lineOf (dbRoot : Bytes) (files : FileSystem) : Statement → Bytes
  | .insert statement =>
      match prepareInsert dbRoot statement files with
      | .error _ => []
      | .ok (_, line) => line
  | .select _ => []

/-- `mkdir` fails for a directory above a file, and this is what is reported. -/
inductive DirectoryFails (mkdir : Option Nat) (path : Bytes) : CallError → Prop
  | mkdir {length : Nat} {parent : Bytes} (h : mkdir = some length)
      (hparent : parentPath path = some parent) :
      DirectoryFails mkdir path (.directoryFailed ((unifySeparators parent).take length))

/-- A call of `write_mode_file` fails, and this is what is reported. -/
inductive WriteCalls.Fails {size : Nat} (calls : WriteCalls size) (path : Bytes) :
    CallError → Prop
  | mkdir {e : CallError} (h : DirectoryFails calls.mkdir path e) : Fails calls path e
  | fopen (h : calls.fopenFails = true) : Fails calls path (.known (.openForWritingFailed path))
  | fputs (h : calls.write.fputsFails = true) : Fails calls path (.known (.writeFailed path))

/-- A call fails with which a SELECT makes its data file, and this is what is reported. -/
inductive StatementCalls.OpenFails (calls : StatementCalls) (path : Bytes) : CallError → Prop
  | mkdir {e : CallError} (h : DirectoryFails calls.mkdir path e) : OpenFails calls path e
  | create {e : CallError} (h : calls.create.Fails path e) : OpenFails calls path e
  | reopen (h : calls.reopenFails = true) : OpenFails calls path (.known (.openDataFailed path))

/-- A call of a statement fails, and this is what is reported. -/
inductive StatementCalls.Fails (calls : StatementCalls) (dbRoot : Bytes) (files : FileSystem) :
    Statement → CallError → Prop
  | schema {statement : Statement} {call : ReadCall} (h : calls.schema = some call) :
      Fails calls dbRoot files statement
        (.readFailed call (statement.target.schemaPath dbRoot))
  | append {statement : InsertStatement} {e : CallError}
      (h : (calls.append (lineOf dbRoot files (.insert statement)).length).Fails
        (statement.target.dataPath dbRoot) e) :
      Fails calls dbRoot files (.insert statement) e
  | openData {statement : SelectStatement} {e : CallError}
      (h : calls.OpenFails (statement.source.dataPath dbRoot) e) :
      Fails calls dbRoot files (.select statement) e

section Pieces

variable {dbRoot path content : Bytes} {files files' : FileSystem}

theorem GrowsBy.refl (path : Bytes) (files : FileSystem) : GrowsBy path [] files files :=
  ⟨(List.append_nil _).symm, id, fun _ _ => rfl⟩

theorem GrowsBy.content_eq {piece : Bytes} (h : GrowsBy path piece files files')
    (other : Bytes) :
    files'.content other = files.content other ++ if other = path then piece else [] := by
  by_cases hpath : other = path
  · rw [if_pos hpath, hpath, h.content]
  · rw [if_neg hpath, List.append_nil, FileSystem.content, h.frame other hpath]
    rfl

/-- A file that is there stays there. -/
theorem GrowsBy.isSome {piece : Bytes} (h : GrowsBy path piece files files') {other : Bytes}
    (hother : (files other).isSome = true) : (files' other).isSome = true := by
  by_cases hpath : other = path
  · subst hpath
    exact h.present hother
  · rwa [h.frame other hpath]

theorem growsBy_appendTextFile (path content : Bytes) (files : FileSystem) :
    GrowsBy path content files (appendTextFile path content files) :=
  ⟨content_appendTextFile, fun _ => by simp, fun _ h => appendTextFile_of_ne h⟩

theorem growsBy_ensureDataFile (path : Bytes) (files : FileSystem) :
    GrowsBy path [] files (ensureDataFile path files) :=
  ⟨by rw [content_ensureDataFile, List.append_nil],
    fun h => by rwa [ensureDataFile_of_isSome h], fun _ h => ensureDataFile_of_ne h⟩

/-- The line depends on the schema file alone. -/
theorem lineOf_congr {statement : Statement}
    (h : files' (statement.target.schemaPath dbRoot) =
      files (statement.target.schemaPath dbRoot)) :
    lineOf dbRoot files' statement = lineOf dbRoot files statement := by
  cases statement with
  | insert statement =>
      simp only [lineOf, prepareInsert_congr h]
  | select statement => rfl

theorem ensureParentDirectoryCalls_error {mkdir : Option Nat} {e : CallError}
    (h : ensureParentDirectoryCalls mkdir path = .error e) : DirectoryFails mkdir path e := by
  unfold ensureParentDirectoryCalls at h
  split at h
  · rename_i parent length hparent
    split at h
    · simp at h
    · rw [← Except.error.inj h]
      exact .mkdir rfl hparent
  · simp at h

theorem appendTextFileWriting_error {write : BufferedWrite content.length} {e : Failure}
    (h : (appendTextFileWriting path content write files).1 = .error e) :
    write.fputsFails = true ∧ e = .writeFailed path := by
  unfold appendTextFileWriting at h
  split at h
  · rename_i hfails
    exact ⟨hfails, (Except.error.inj h).symm⟩
  · simp at h

/-- Whatever fails, a part of the text from its start reaches the file. -/
theorem appendTextFileOn_grows (calls : WriteCalls content.length) :
    ∃ piece, piece <+: content ∧
      GrowsBy path piece files (appendTextFileOn path content calls files).2 := by
  unfold appendTextFileOn
  split
  · exact ⟨[], List.nil_prefix, .refl path files⟩
  · split
    · exact ⟨[], List.nil_prefix, .refl path files⟩
    · rw [appendTextFileWriting_snd]
      exact ⟨_, List.take_prefix _ _, growsBy_appendTextFile _ _ _⟩

/-- Where the flush of `fclose` does not fail, an answer of true stands for the whole
text. -/
theorem appendTextFileOn_reported {calls : WriteCalls content.length}
    (h : calls.write.fputsFails = false →
      calls.write.byFputs + calls.write.byFclose = content.length) :
    appendTextFileOn path content calls files = (.ok (), appendTextFile path content files) ∨
      ∃ e, calls.Fails path e ∧ (appendTextFileOn path content calls files).1 = .error e := by
  unfold appendTextFileOn
  split
  · rename_i e hparent
    exact .inr ⟨e, .mkdir (ensureParentDirectoryCalls_error hparent), rfl⟩
  · split
    · rename_i hfopen
      exact .inr ⟨_, .fopen hfopen, rfl⟩
    · have hsecond := @appendTextFileWriting_snd path content files calls.write
      cases hfirst : (appendTextFileWriting path content calls.write files).1 with
      | error e =>
          obtain ⟨hfputs, rfl⟩ := appendTextFileWriting_error hfirst
          exact .inr ⟨_, .fputs hfputs, by simp [hfirst, Except.mapError]⟩
      | ok =>
          rw [h (appendTextFileWriting_fst_eq_ok_iff calls.write |>.mp hfirst),
            List.take_length] at hsecond
          exact .inl (by simp [hfirst, hsecond, Except.mapError])

theorem loadTableDefinitionOn_cases (failing : Option ReadCall) (dbRoot : Bytes)
    (name : QualifiedName) (files : FileSystem) :
    loadTableDefinitionOn failing dbRoot name files =
        (loadTableDefinition dbRoot name files).mapError .ofSql ∨
      ∃ call, failing = some call ∧ loadTableDefinitionOn failing dbRoot name files =
        .error (.readFailed call (name.schemaPath dbRoot)) := by
  unfold loadTableDefinitionOn loadTableDefinition readTextFileOn readTextFile
  by_cases htable : name.table.getD [] = []
  · rw [buildTablePaths_error htable]
    exact .inl rfl
  rw [buildTablePaths_eq htable]
  cases hfile : files (name.schemaPath dbRoot) with
  | none => exact .inl (by simp [hfile, Except.mapError])
  | some content =>
      cases failing with
      | some call => exact .inr ⟨call, rfl, by simp [hfile]⟩
      | none =>
          refine .inl ?_
          simp only [hfile]
          by_cases h : splitPipeLine (cString content) ≠ [] ∧
              splitPipeLine (cString content) ≠ [[]]
          · rw [dif_pos h, dif_neg (not_or.mpr h)]
            rfl
          · rw [dif_neg h, dif_pos (by grind)]
            rfl

/-- A data file that is there is left as it is, and a missing one is created empty. -/
theorem openDataFileOn_cases {calls : StatementCalls} (hopen : calls.openFails = false)
    (path : Bytes) (files : FileSystem) :
    openDataFileOn calls path files = (.ok (), ensureDataFile path files) ∨
      ∃ e, calls.OpenFails path e ∧ (openDataFileOn calls path files = (.error e, files) ∨
        openDataFileOn calls path files = (.error e, ensureDataFile path files)) := by
  unfold openDataFileOn ensureDataFile
  cases hfile : files path with
  | some content => exact .inl (by simp [hopen])
  | none =>
      simp only [Option.isSome_none, Bool.false_and, Bool.false_eq_true, if_false]
      cases hparent : ensureParentDirectoryCalls calls.mkdir path with
      | error e => exact .inr ⟨e, .mkdir (ensureParentDirectoryCalls_error hparent), .inl rfl⟩
      | ok =>
          unfold createTextFileOn
          cases hcreate : ensureParentDirectoryCalls calls.create.mkdir path with
          | error e =>
              exact .inr ⟨e, .create (.mkdir (ensureParentDirectoryCalls_error hcreate)),
                .inl rfl⟩
          | ok =>
              simp only
              by_cases hfopen : calls.create.fopenFails = true
              · exact .inr ⟨_, .create (.fopen hfopen), .inl (by simp [hfopen])⟩
              · by_cases hreopen : calls.reopenFails = true
                · exact .inr ⟨_, .reopen hreopen, .inr (by simp [hfopen, hreopen])⟩
                · exact .inl (by simp [hfopen, hreopen])

end Pieces

/-! ## Statements -/

section Statements

variable {dbRoot : Bytes} {calls : StatementCalls} {files : FileSystem}

theorem appendInsertRowOn_cases (calls : StatementCalls) (dbRoot : Bytes)
    (statement : InsertStatement) (files : FileSystem) :
    (∃ call, calls.schema = some call ∧ appendInsertRowOn calls dbRoot statement files =
        (.error (.readFailed call (statement.target.schemaPath dbRoot)), files)) ∨
      (∃ e, prepareInsert dbRoot statement files = .error e ∧
        appendInsertRowOn calls dbRoot statement files = (.error (.ofSql e), files)) ∨
      ∃ path line, prepareInsert dbRoot statement files = .ok (path, line) ∧
        appendInsertRowOn calls dbRoot statement files =
          ((appendTextFileOn path line (calls.append line.length) files).1.map fun _ => 1,
            (appendTextFileOn path line (calls.append line.length) files).2) := by
  unfold appendInsertRowOn prepareInsert
  split
  · exact .inr (.inl ⟨_, rfl, rfl⟩)
  · rcases loadTableDefinitionOn_cases calls.schema dbRoot statement.target files with
      hload | ⟨call, hcall, hload⟩
    · rw [hload]
      cases loadTableDefinition dbRoot statement.target files with
      | error e => exact .inr (.inl ⟨e, rfl, rfl⟩)
      | ok table =>
          simp only [Except.mapError]
          cases placeValues table.columns (statement.columns.zip statement.values)
              (List.replicate table.columns.length [])
              (List.replicate table.columns.length false) with
          | error e => exact .inr (.inl ⟨e, rfl, rfl⟩)
          | ok ordered =>
              refine .inr (.inr ⟨table.dataPath, serializeRow ordered, rfl, ?_⟩)
              simp only
              cases appendTextFileOn table.dataPath (serializeRow ordered)
                  (calls.append (serializeRow ordered).length) files with
              | mk answer files' =>
                  cases answer with
                  | error e => rfl
                  | ok => rfl
    · rw [hload]
      exact .inl ⟨call, hcall, rfl⟩

theorem runSelectQueryOn_cases (calls : StatementCalls) (dbRoot : Bytes)
    (statement : SelectStatement) (files : FileSystem) :
    (∃ call, calls.schema = some call ∧ runSelectQueryOn calls dbRoot statement files =
        (.error (.readFailed call (statement.source.schemaPath dbRoot)), files)) ∨
      (∃ e, prepareSelect dbRoot statement files = .error e ∧
        runSelectQueryOn calls dbRoot statement files = (.error (.ofSql e), files)) ∨
      ∃ plan, prepareSelect dbRoot statement files = .ok plan ∧
        runSelectQueryOn calls dbRoot statement files = readRowsOn calls plan files := by
  unfold runSelectQueryOn prepareSelect
  rcases loadTableDefinitionOn_cases calls.schema dbRoot statement.source files with
    hload | ⟨call, hcall, hload⟩
  · rw [hload]
    cases loadTableDefinition dbRoot statement.source files with
    | error e => exact .inr (.inl ⟨e, rfl, rfl⟩)
    | ok table =>
        simp only [Except.mapError]
        cases prepareColumns table.columns statement with
        | error e => exact .inr (.inl ⟨e, rfl, rfl⟩)
        | ok prepared =>
            obtain ⟨indexes, projected⟩ := prepared
            simp only
            cases prepareWhere table.columns statement.where_ with
            | error e => exact .inr (.inl ⟨e, rfl, rfl⟩)
            | ok test => exact .inr (.inr ⟨_, rfl, rfl⟩)
  · rw [hload]
    exact .inl ⟨call, hcall, rfl⟩

/-- A SELECT leaves at most an empty file that was missing. -/
theorem readRowsOn_grows (hopen : calls.openFails = false) (plan : SelectPlan) :
    GrowsBy plan.table.dataPath [] files (readRowsOn calls plan files).2 := by
  unfold readRowsOn
  rcases openDataFileOn_cases hopen plan.table.dataPath files with hout | ⟨e, -, hout | hout⟩
  · rw [hout]
    simp only
    split
    · exact growsBy_ensureDataFile _ _
    · exact growsBy_ensureDataFile _ _
  · rw [hout]
    exact .refl _ _
  · rw [hout]
    exact growsBy_ensureDataFile _ _

/-- Whatever fails, a statement leaves at most a part of its line from the start of it, at
the end of the data file of its table. -/
theorem executeStatementOn_grows (hopen : calls.openFails = false) (statement : Statement) :
    ∃ piece, piece <+: lineOf dbRoot files statement ∧
      GrowsBy (statement.target.dataPath dbRoot) piece files
        (executeStatementOn calls dbRoot files statement).2 := by
  cases statement with
  | insert statement =>
      simp only [executeStatementOn, lineOf]
      rcases appendInsertRowOn_cases calls dbRoot statement files with
        ⟨call, -, hout⟩ | ⟨e, -, hout⟩ | ⟨path, line, hprepared, hout⟩
      · rw [hout]
        exact ⟨[], List.nil_prefix, .refl _ _⟩
      · rw [hout]
        exact ⟨[], List.nil_prefix, .refl _ _⟩
      · obtain ⟨piece, hpiece, hgrows⟩ :=
          @appendTextFileOn_grows path line files (calls.append line.length)
        rw [hprepared, hout]
        rw [prepareInsert_path hprepared] at hgrows ⊢
        exact ⟨piece, hpiece, hgrows⟩
  | select statement =>
      simp only [executeStatementOn]
      rcases runSelectQueryOn_cases calls dbRoot statement files with
        ⟨call, -, hout⟩ | ⟨e, -, hout⟩ | ⟨plan, hprepared, hout⟩
      · rw [hout]
        exact ⟨[], List.nil_prefix, .refl _ _⟩
      · rw [hout]
        exact ⟨[], List.nil_prefix, .refl _ _⟩
      · have hgrows := @readRowsOn_grows calls files hopen plan
        rw [(loadTableDefinition_paths (prepareSelect_load hprepared)).2] at hgrows
        rw [hout]
        exact ⟨[], List.nil_prefix, hgrows⟩

/-- Where failures are reported, a statement answers and leaves what it does without any,
or answers what is reported of a call that fails. -/
theorem executeStatementOn_reported (h : calls.Reported) (statement : Statement) :
    executeStatementOn calls dbRoot files statement =
        ((executeStatement dbRoot statement files).1.mapError .ofSql,
          (executeStatement dbRoot statement files).2) ∨
      ∃ e, calls.Fails dbRoot files statement e ∧
        (executeStatementOn calls dbRoot files statement).1 = .error e := by
  cases statement with
  | insert statement =>
      simp only [executeStatementOn, executeStatement, appendInsertRow_eq]
      rcases appendInsertRowOn_cases calls dbRoot statement files with
        ⟨call, hcall, hout⟩ | ⟨e, hprepared, hout⟩ | ⟨path, line, hprepared, hout⟩
      · rw [hout]
        exact .inr ⟨_, .schema hcall, rfl⟩
      · rw [hout, hprepared]
        exact .inl rfl
      · rw [hout, hprepared]
        have hline : lineOf dbRoot files (.insert statement) = line := by
          simp only [lineOf, hprepared]
        obtain rfl := prepareInsert_path hprepared
        rcases @appendTextFileOn_reported _ line files _ (h.fclose line.length) with
          happend | ⟨e, he, happend⟩
        · rw [happend]
          exact .inl rfl
        · rw [happend]
          exact .inr ⟨e, .append (by rwa [hline]), rfl⟩
  | select statement =>
      simp only [executeStatementOn, executeStatement, runSelectQuery_eq]
      rcases runSelectQueryOn_cases calls dbRoot statement files with
        ⟨call, hcall, hout⟩ | ⟨e, hprepared, hout⟩ | ⟨plan, hprepared, hout⟩
      · rw [hout]
        exact .inr ⟨_, .schema hcall, rfl⟩
      · rw [hout, hprepared]
        exact .inl rfl
      · rw [hout, hprepared]
        unfold readRowsOn
        rcases openDataFileOn_cases h.fopen plan.table.dataPath files with
          hopened | ⟨e, he, hopened⟩
        · rw [hopened, h.fgets]
          simp only [fgetsRecords]
          cases selectRows plan.table.columns.length plan.indexes plan.test (readRecords
              ((ensureDataFile plan.table.dataPath files).content plan.table.dataPath)) [] with
          | error e => exact .inl rfl
          | ok rows => exact .inl rfl
        · rw [(loadTableDefinition_paths (prepareSelect_load hprepared)).2] at he
          rcases hopened with hopened | hopened
          · rw [hopened]
            exact .inr ⟨e, .openData he, rfl⟩
          · rw [hopened]
            exact .inr ⟨e, .openData he, rfl⟩

end Statements

end MiniSql
