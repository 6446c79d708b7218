import MiniSql.Foundation.Simulation
import MiniSql.Program.Main
import MiniSql.Storage.Interleaving
import MiniSql.Storage.Memory

set_option autoImplicit false

/-!
# What a later run can see

A run tells two file systems apart by its SQL file, by the schema files and by what the data
files hold, and by nothing else: a data file that is missing and an empty one are alike.  So
a run in which no INSERT succeeds, such as one of queries or one that is rejected, cannot be
noticed by any run behind it.
-/

namespace MiniSql

open Foundation

/-! ## Files that have been created -/

/-- The files are the same, but for data files of some tables that are there and hold
nothing. -/
def Created (tables : Bytes → QualifiedName → Prop) (files files' : FileSystem) : Prop :=
  ∀ path, files path = files' path ∨
    ∃ dbRoot name, tables dbRoot name ∧ path = QualifiedName.dataPath name dbRoot ∧
      files path = some [] ∧ files' path = none

section Created

variable {tables : Bytes → QualifiedName → Prop} {dbRoot : Bytes} {name : QualifiedName}
  {files files' files'' : FileSystem}

theorem Created.refl (tables : Bytes → QualifiedName → Prop) (files : FileSystem) :
    Created tables files files := fun _ => .inl rfl

theorem Created.trans (h : Created tables files'' files') (h' : Created tables files' files) :
    Created tables files'' files := by
  intro path
  rcases h' path with hsame | ⟨dbRoot, name, htable, hpath, hempty, hmissing⟩
  · rw [← hsame]
    exact h path
  · refine .inr ⟨dbRoot, name, htable, hpath, ?_, hmissing⟩
    rcases h path with hsame | ⟨-, -, -, -, -, hmissing'⟩
    · rw [hsame, hempty]
    · simp [hempty] at hmissing'

theorem Created.content (h : Created tables files files') (path : Bytes) :
    files'.content path = files.content path := by
  rcases h path with hsame | ⟨-, -, -, -, hempty, hmissing⟩
  · rw [FileSystem.content, FileSystem.content, hsame]
  · simp [FileSystem.content, hempty, hmissing]

/-- A file that is no data file of the tables is the same. -/
theorem Created.frame (h : Created tables files files') {path : Bytes}
    (hpath : ∀ dbRoot name, tables dbRoot name → path ≠ QualifiedName.dataPath name dbRoot) :
    files' path = files path := by
  rcases h path with hsame | ⟨dbRoot, name, htable, hdata, -, -⟩
  · exact hsame.symm
  · exact absurd hdata (hpath dbRoot name htable)

theorem Created.schema (h : Created tables files files') (dbRoot : Bytes)
    (name : QualifiedName) :
    files' (name.schemaPath dbRoot) = files (name.schemaPath dbRoot) :=
  h.frame fun _ _ _ => (dataPath_ne_schemaPath name dbRoot).symm

/-- One more file is created, or emptied that held nothing. -/
theorem Created.writeTextFile (h : Created tables files files') (htable : tables dbRoot name)
    (hempty : files.content (name.dataPath dbRoot) = []) :
    Created tables (writeTextFile (name.dataPath dbRoot) [] files) files' := by
  intro path
  by_cases hpath : path = name.dataPath dbRoot
  · subst hpath
    rw [writeTextFile_same]
    have hcontent := (h.content (name.dataPath dbRoot)).trans hempty
    unfold FileSystem.content at hcontent
    cases hfile : files' (name.dataPath dbRoot) with
    | none => exact .inr ⟨dbRoot, name, htable, rfl, rfl, rfl⟩
    | some content =>
        rw [hfile] at hcontent
        exact .inl (congrArg some hcontent.symm)
  · rw [writeTextFile_of_ne hpath]
    exact h path

theorem Created.ensureDataFile (h : Created tables files files') (htable : tables dbRoot name) :
    Created tables (ensureDataFile (name.dataPath dbRoot) files) files' := by
  unfold MiniSql.ensureDataFile
  cases hfile : files (name.dataPath dbRoot) with
  | none => exact h.writeTextFile htable (by simp [FileSystem.content, hfile])
  | some content => exact h

/-- A line more makes the two the same again. -/
theorem Created.append (h : Created tables files files') (path line : Bytes) :
    Created tables (appendTextFile path line files) (appendTextFile path line files') := by
  intro other
  by_cases hpath : other = path
  · subst hpath
    rw [appendTextFile_same, appendTextFile_same, h.content]
    exact .inl rfl
  · rw [appendTextFile_of_ne hpath, appendTextFile_of_ne hpath]
    exact h other

/-- A file that is there is created in the other as well. -/
theorem Created.ensured (h : Created tables files files') {path : Bytes}
    (hexists : (files path).isSome = true) :
    Created tables files (MiniSql.ensureDataFile path files') := by
  intro other
  by_cases hpath : other = path
  · subst hpath
    rcases h other with hsame | ⟨-, -, -, -, hempty, hmissing⟩
    · rw [ensureDataFile_of_isSome (hsame ▸ hexists)]
      exact .inl hsame
    · simp [MiniSql.ensureDataFile, hmissing, hempty]
  · rw [ensureDataFile_of_ne hpath]
    exact h other

/-- A file that is missing in both is created in both. -/
theorem Created.ensureBoth (h : Created tables files files') (path : Bytes) :
    Created tables (MiniSql.ensureDataFile path files) (MiniSql.ensureDataFile path files') := by
  cases hfile : files path with
  | some content =>
      have hexists : (files path).isSome = true := by simp [hfile]
      rw [ensureDataFile_of_isSome hexists]
      exact h.ensured hexists
  | none =>
      have hmissing : files' path = none := by
        rcases h path with hsame | ⟨-, -, -, -, -, hmissing⟩
        · rw [← hsame, hfile]
        · exact hmissing
      intro other
      by_cases hpath : other = path
      · simp [hpath, MiniSql.ensureDataFile, hfile, hmissing]
      · rw [ensureDataFile_of_ne hpath, ensureDataFile_of_ne hpath]
        exact h other

/-- No statement tells the two apart. -/
theorem executeStatement_created (h : Created tables files files') (statement : Statement) :
    (executeStatement dbRoot statement files).1 = (executeStatement dbRoot statement files').1 ∧
      Created tables (executeStatement dbRoot statement files).2
        (executeStatement dbRoot statement files').2 := by
  cases statement with
  | insert statement =>
      have hprepare := prepareInsert_congr (h.schema dbRoot statement.target)
      simp only [executeStatement, appendInsertRow_eq, hprepare]
      cases prepareInsert dbRoot statement files with
      | error e => exact ⟨rfl, h⟩
      | ok prepared => exact ⟨rfl, h.append _ _⟩
  | select statement =>
      have hprepare := prepareSelect_congr (h.schema dbRoot statement.source)
      simp only [executeStatement, runSelectQuery_eq, hprepare]
      cases prepareSelect dbRoot statement files with
      | error e => exact ⟨rfl, h⟩
      | ok plan =>
          have hensured := h.ensureBoth plan.table.dataPath
          simp only [hensured.content]
          cases selectRows plan.table.columns.length plan.indexes plan.test (readRecords
              ((ensureDataFile plan.table.dataPath files).content plan.table.dataPath)) [] with
          | error e => exact ⟨rfl, hensured⟩
          | ok rows => exact ⟨rfl, hensured⟩

/-- A statement that is no INSERT, or fails, creates at most the data file of its table. -/
theorem executeStatement_unnoticed {statement : Statement}
    (htable : tables dbRoot statement.target)
    (h : ∀ affectedRows, (executeStatement dbRoot statement files).1 ≠
      .ok (.insert affectedRows)) :
    Created tables (executeStatement dbRoot statement files).2 files := by
  have heffect := executeStatement_effect dbRoot statement files
  generalize executeStatement dbRoot statement files = outcome at h heffect
  cases heffect with
  | failed => exact .refl tables files
  | inserted => exact absurd rfl (h 1)
  | selected hload =>
      rw [(loadTableDefinition_paths hload).2]
      exact (Created.refl tables files).ensureDataFile htable

end Created

/-! ## Runs -/

/-- What a run shows. -/
def RunResult.shown (run : RunResult) : Bytes × Bytes × Nat :=
  (run.stdout, run.stderr, run.exitCode)

/-- Runs of the program, one after the other, whether they fail or not. -/
def mainRuns : List (List Bytes) → FileSystem → List RunResult
  | [], _ => []
  | argv :: argvs, files => main argv files :: mainRuns argvs (main argv files).files

/-- The root and the statements of a run, as far as it comes to any. -/
def mainScript (argv : List Bytes) (files : FileSystem) : Bytes × List Statement :=
  match arguments argv with
  | none => ([], [])
  | some (dbRoot, sqlFile) =>
      match readTextFile sqlFile files with
      | .error _ => (dbRoot, [])
      | .ok source => (dbRoot, (parseSqlScript source).script)

/-- The answers of a run. -/
def mainOutputs (argv : List Bytes) (files : FileSystem) : List ExecutionResult :=
  (runScript (mainScript argv files).1 (mainScript argv files).2 files).outputs

/-- The tables that a run names, under its root. -/
def NamesTable (argv : List Bytes) (files : FileSystem) (dbRoot : Bytes) (name : QualifiedName) :
    Prop :=
  dbRoot = (mainScript argv files).1 ∧
    ∃ statement ∈ (mainScript argv files).2, statement.target = name

section Runs

variable {tables : Bytes → QualifiedName → Prop} {dbRoot source : Bytes} {argv : List Bytes}
  {files files' : FileSystem}

theorem runSource_files (dbRoot source : Bytes) (files : FileSystem) :
    (runSource dbRoot source files).files =
      (runScript dbRoot (parseSqlScript source).script files).state := by
  cases hparse : (parseSqlScript source).result with
  | ok => exact (runSource_of_ok dbRoot files hparse).1
  | error e =>
      rw [runSource_of_error dbRoot files hparse, parseSqlScript_failed (by simp [hparse])]
      rfl

theorem main_files (argv : List Bytes) (files : FileSystem) :
    (main argv files).files =
      (runScript (mainScript argv files).1 (mainScript argv files).2 files).state := by
  unfold main mainScript
  cases arguments argv with
  | none => rfl
  | some named =>
      obtain ⟨dbRoot, sqlFile⟩ := named
      simp only
      cases readTextFile sqlFile files with
      | error e => rfl
      | ok source => exact runSource_files dbRoot source files

theorem runSource_created (h : Created tables files files') :
    (runSource dbRoot source files).shown = (runSource dbRoot source files').shown ∧
      Created tables (runSource dbRoot source files).files
        (runSource dbRoot source files').files := by
  have hstep : ∀ statement ∈ (parseSqlScript source).script, ∀ files files',
      Created tables files files' →
        (executeStatement dbRoot statement files).1 =
            (executeStatement dbRoot statement files').1 ∧
          Created tables (executeStatement dbRoot statement files).2
            (executeStatement dbRoot statement files').2 :=
    fun statement _ _ _ h => executeStatement_created h statement
  obtain ⟨houtputs, hfault, hstate⟩ := @runAll_congr _ _ _ _ _ _ (parseSqlScript source).script
    hstep _ _ h
  rw [runSource_files, runSource_files]
  refine ⟨?_, hstate⟩
  unfold runSource runScript
  simp only [houtputs, hfault]
  cases (parseSqlScript source).result with
  | error e => rfl
  | ok =>
      cases (runAll (executeStatement dbRoot) (parseSqlScript source).script files').fault with
      | none => rfl
      | some e => rfl

/-- Only a SQL file that has been created tells the two apart. -/
theorem main_created (h : Created tables files files')
    (hsql : ∀ dbRoot sqlFile, arguments argv = some (dbRoot, sqlFile) →
      files' sqlFile = files sqlFile) :
    (main argv files).shown = (main argv files').shown ∧
      Created tables (main argv files).files (main argv files').files := by
  unfold main
  cases hargv : arguments argv with
  | none => exact ⟨rfl, h⟩
  | some named =>
      obtain ⟨dbRoot, sqlFile⟩ := named
      have hread : readTextFile sqlFile files' = readTextFile sqlFile files := by
        unfold readTextFile
        rw [hsql dbRoot sqlFile hargv]
      simp only [hread]
      cases readTextFile sqlFile files with
      | error e => exact ⟨rfl, h⟩
      | ok source => exact runSource_created h

theorem mainRuns_created (h : Created tables files files') {argvs : List (List Bytes)}
    (hsql : ∀ argv ∈ argvs, ∀ dbRoot sqlFile, arguments argv = some (dbRoot, sqlFile) →
      ∀ otherRoot name, tables otherRoot name → sqlFile ≠ QualifiedName.dataPath name otherRoot) :
    (mainRuns argvs files).map RunResult.shown = (mainRuns argvs files').map RunResult.shown := by
  induction argvs generalizing files files' with
  | nil => rfl
  | cons argv argvs ih =>
      obtain ⟨hargv, hrest⟩ := List.forall_mem_cons.mp hsql
      obtain ⟨hshown, hfiles⟩ := main_created h fun dbRoot sqlFile harguments =>
        h.frame (hargv dbRoot sqlFile harguments)
      simp only [mainRuns, List.map_cons, hshown, ih hfiles hrest]

/-- A run in which no INSERT succeeds creates data files at most. -/
theorem main_unnoticed (h : ∀ affectedRows, .insert affectedRows ∉ mainOutputs argv files) :
    Created (NamesTable argv files) (main argv files).files files := by
  rw [main_files]
  refine runAll_related (R := fun files files' => Created (NamesTable argv _) files' files)
    (Created.refl _) (fun _ _ _ hfirst hsecond => hsecond.trans hfirst)
    (P := fun result => ∀ affectedRows, result ≠ .insert affectedRows) ?_ ?_ ?_
  · intro statement hmem files' result files'' hstep hresult
    have hcreated := @executeStatement_unnoticed _ _ files' statement
      (show NamesTable argv files _ _ from ⟨rfl, statement, hmem, rfl⟩)
    rw [hstep] at hcreated
    exact hcreated fun affectedRows heq => hresult affectedRows (Except.ok.inj heq)
  · intro statement _ files' e files'' hstep
    rw [executeStatement_error hstep]
    exact .refl _ _
  · intro result hmem affectedRows heq
    exact h affectedRows (heq ▸ hmem)

/-- A run in which no INSERT succeeds cannot be noticed: whatever runs come behind it show
what they show without it, as long as none of them has a data file of a table that the run
names for its SQL file. -/
theorem mainRuns_unnoticed (h : ∀ affectedRows, .insert affectedRows ∉ mainOutputs argv files)
    {argvs : List (List Bytes)}
    (hsql : ∀ other ∈ argvs, ∀ dbRoot sqlFile, arguments other = some (dbRoot, sqlFile) →
      ∀ statement ∈ (mainScript argv files).2,
        sqlFile ≠ statement.target.dataPath (mainScript argv files).1) :
    (mainRuns argvs (main argv files).files).map RunResult.shown =
      (mainRuns argvs files).map RunResult.shown := by
  refine mainRuns_created (main_unnoticed h) fun other hother dbRoot sqlFile hargv => ?_
  rintro _ _ ⟨rfl, statement, hmem, rfl⟩
  exact hsql other hother dbRoot sqlFile hargv statement hmem

end Runs

/-- A run that makes the data file and fails, and a run behind it that inserts. -/
theorem mainRuns_unnoticed_query :
    let files : FileSystem := fun path =>
      if path = ascii "db/t.schema" then some (ascii "c")
      else if path = ascii "q.sql" then some (ascii "SELECT * FROM t; SELECT d FROM t")
      else if path = ascii "i.sql" then some (ascii "INSERT INTO t (c) VALUES ('a')")
      else none
    let queried := (main [ascii "mini_sql", ascii "db", ascii "q.sql"] files).files
    let argvs := [[ascii "mini_sql", ascii "db", ascii "i.sql"],
      [ascii "mini_sql", ascii "db", ascii "q.sql"]]
    queried (ascii "db/t.data") = some [] ∧
      (mainRuns argvs queried).map RunResult.shown =
        (mainRuns argvs files).map RunResult.shown := by
  intro files queried argvs
  have houtputs : mainOutputs [ascii "mini_sql", ascii "db", ascii "q.sql"] files =
      [.select ⟨[ascii "c"], []⟩] := by decide +kernel
  refine ⟨by decide +kernel, mainRuns_unnoticed ?_ ?_⟩
  · intro affectedRows hmem
    rw [houtputs] at hmem
    simp at hmem
  · intro other hother dbRoot sqlFile hargv statement hmem
    have hscript : mainScript [ascii "mini_sql", ascii "db", ascii "q.sql"] files =
        (ascii "db", [.select ⟨⟨none, some (ascii "t")⟩, true, [], none⟩,
          .select ⟨⟨none, some (ascii "t")⟩, false, [ascii "d"], none⟩]) := by decide +kernel
    rw [hscript] at hmem ⊢
    have htarget : statement.target = ⟨none, some (ascii "t")⟩ := by
      rcases List.mem_cons.mp hmem with rfl | hmem
      · rfl
      · rw [List.mem_singleton.mp hmem]
        rfl
    have hsqlFile : sqlFile = ascii "i.sql" ∨ sqlFile = ascii "q.sql" := by
      rcases List.mem_cons.mp hother with rfl | hother
      · exact .inl (Prod.mk.inj (Option.some.inj hargv)).2.symm
      · rw [List.mem_singleton.mp hother] at hargv
        exact .inr (Prod.mk.inj (Option.some.inj hargv)).2.symm
    rw [htarget]
    rcases hsqlFile with rfl | rfl
    · decide
    · decide

end MiniSql
