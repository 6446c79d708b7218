import MiniSql.Foundation.Simulation
import MiniSql.Program.Main
import MiniSql.Storage.Calls

set_option autoImplicit false

/-!
# A run whose file calls may fail

`main` with every file call it makes.  As long as the failures are among those that are
reported, a run either does what it does without any, or it stops at the call that has
failed, with everything in front of the statement done and nothing behind it.
-/

namespace MiniSql

open Foundation

/-- How the file calls of a run go. -/
structure RunCalls where
  /-- the call that fails when the SQL file is read -/
  source : Option ReadCall
  statement : Nat → StatementCalls

/-- The content of the `error` buffer. -/
def CallError.buffer (e : CallError) : Bytes := snprintf sqlErrorSize e.text

def complainOf (label : String) (e : CallError) : Bytes :=
  ascii label ++ ascii ": " ++ e.buffer ++ [newline]

/-- The loop of `main` over the statements of a script. -/
def runScriptOn (calls : Nat → StatementCalls) (dbRoot : Bytes) (script : List Statement)
    (files : FileSystem) : Trace FileSystem CallError ExecutionResult :=
  runAll (fun item files => executeStatementOn (calls item.2) dbRoot files item.1)
    script.zipIdx files

/-- `main` once it has read the source. -/
def runSourceOn (calls : Nat → StatementCalls) (dbRoot source : Bytes) (files : FileSystem) :
    RunResult :=
  let outcome := parseSqlScript source
  match outcome.result with
  | .error e => ⟨1, [], complain "parse error" e, files⟩
  | .ok () =>
      let trace := runScriptOn calls dbRoot outcome.script files
      let stdout := trace.outputs.flatMap printExecutionResult
      match trace.fault with
      | some e => ⟨1, stdout, complainOf "execution error" e, trace.state⟩
      | none => ⟨0, stdout, [], trace.state⟩

/-- `main`. -/
def mainOn (calls : RunCalls) (argv : List Bytes) (files : FileSystem) : RunResult :=
  match arguments argv with
  | none => ⟨1, usage, [], files⟩
  | some (dbRoot, sqlFile) =>
      match readTextFileOn calls.source sqlFile files with
      | .error e => ⟨1, [], complainOf "file error" e, files⟩
      | .ok source => runSourceOn calls.statement dbRoot source files

/-! ## Failures that are reported -/

/-- At most a part of the line of the statement, from the start of it, has reached the data
file of its table. -/
def LeavesPiece (dbRoot : Bytes) (statement : Statement) (files files' : FileSystem) : Prop :=
  ∃ piece, piece <+: lineOf dbRoot files statement ∧
    GrowsBy (statement.target.dataPath dbRoot) piece files files'

/-- A run that stops at a statement because a call of it fails: what stands in front of it
is done and printed, what stands behind it is not, and the call is reported. -/
def StoppedByCall (calls : Nat → StatementCalls) (dbRoot source : Bytes) (files : FileSystem)
    (result : RunResult) : Prop :=
  ∃ before statement after e files',
    (parseSqlScript source).script = before ++ statement :: after ∧
      (runScript dbRoot before files).fault = none ∧
      (calls before.length).Fails dbRoot (runScript dbRoot before files).state statement e ∧
      LeavesPiece dbRoot statement (runScript dbRoot before files).state files' ∧
      result = ⟨1, (runScript dbRoot before files).outputs.flatMap printExecutionResult,
        complainOf "execution error" e, files'⟩

section Reported

variable {calls : Nat → StatementCalls}

/-- A statement with what stands in front of it, and its number. -/
theorem zipIdx_eq_append_cons {script : List Statement} {before after : List (Statement × Nat)}
    {item : Statement × Nat} (h : script.zipIdx = before ++ item :: after) :
    script = before.map Prod.fst ++ item.1 :: after.map Prod.fst ∧
      item.2 = (before.map Prod.fst).length := by
  constructor
  · have hfirst := congrArg (List.map Prod.fst) h
    rwa [List.zipIdx_map_fst, List.map_append, List.map_cons] at hfirst
  · have hitem : script.zipIdx[before.length]? = some item := by simp [h]
    rw [List.getElem?_zipIdx] at hitem
    obtain ⟨statement, -, rfl⟩ := Option.map_eq_some_iff.mp hitem
    simp

/-- The run over a script does what it does without failures, or it breaks off. -/
theorem runScriptOn_reported (h : ∀ i, (calls i).Reported) (dbRoot : Bytes)
    (script : List Statement) (files : FileSystem) :
    runScriptOn calls dbRoot script files =
        ⟨(runScript dbRoot script files).outputs, (runScript dbRoot script files).state,
          (runScript dbRoot script files).fault.map .ofSql⟩ ∨
      ∃ before statement after e files', script = before ++ statement :: after ∧
        (runScript dbRoot before files).fault = none ∧
        (calls before.length).Fails dbRoot (runScript dbRoot before files).state statement e ∧
        LeavesPiece dbRoot statement (runScript dbRoot before files).state files' ∧
        runScriptOn calls dbRoot script files =
          ⟨(runScript dbRoot before files).outputs, files', some e⟩ := by
  have hstep : ∀ item ∈ script.zipIdx, ∀ files, BreaksOff (executeStatement dbRoot)
      (fun item files => executeStatementOn (calls item.2) dbRoot files item.1) Prod.fst
      CallError.ofSql (fun item files e files' => (calls item.2).Fails dbRoot files item.1 e ∧
        LeavesPiece dbRoot item.1 files files') item files := by
    intro item _ files
    rcases executeStatementOn_reported (h item.2) item.1 with hsame | ⟨e, he, herror⟩
    · exact .inl hsame
    · exact .inr ⟨e, _, Prod.ext herror rfl, he,
        executeStatementOn_grows (h item.2).fopen item.1⟩
  have hrun := runAll_breaksOff hstep files
  rw [List.zipIdx_map_fst] at hrun
  rcases hrun with hsame | ⟨before, item, after, e, files', hitems, hbefore, ⟨he, hleaves⟩, hrun⟩
  · exact .inl hsame
  · obtain ⟨hscript, hnumber⟩ := zipIdx_eq_append_cons hitems
    rw [hnumber] at he
    exact .inr ⟨before.map Prod.fst, item.1, after.map Prod.fst, e, files', hscript, hbefore, he,
      hleaves, hrun⟩

theorem runSourceOn_reported (h : ∀ i, (calls i).Reported) (dbRoot source : Bytes)
    (files : FileSystem) :
    runSourceOn calls dbRoot source files = runSource dbRoot source files ∨
      StoppedByCall calls dbRoot source files (runSourceOn calls dbRoot source files) := by
  unfold runSourceOn runSource
  cases hparse : (parseSqlScript source).result with
  | error e => exact .inl (by simp only [hparse])
  | ok =>
      simp only [hparse]
      rcases runScriptOn_reported h dbRoot (parseSqlScript source).script files with
        hsame | ⟨before, statement, after, e, files', hscript, hbefore, he, hleaves, hrun⟩
      · rw [hsame]
        cases (runScript dbRoot (parseSqlScript source).script files).fault with
        | none => exact .inl rfl
        | some e => exact .inl rfl
      · rw [hrun]
        exact .inr ⟨before, statement, after, e, files', hscript, hbefore, he, hleaves, rfl⟩

/-- Where the failures of file calls are reported ones, a run of `main` is what it is
without any, or it stops at a call that fails: the exit code is 1, the message is the one
for this call, and no statement is done in part but for a beginning of the line of the
last. -/
theorem mainOn_reported {calls : RunCalls} (h : ∀ i, (calls.statement i).Reported)
    (argv : List Bytes) (files : FileSystem) :
    mainOn calls argv files = main argv files ∨
      ∃ dbRoot sqlFile, arguments argv = some (dbRoot, sqlFile) ∧
        ((∃ call, calls.source = some call ∧ mainOn calls argv files =
            ⟨1, [], complainOf "file error" (.readFailed call sqlFile), files⟩) ∨
          ∃ source, readTextFile sqlFile files = .ok source ∧
            StoppedByCall calls.statement dbRoot source files (mainOn calls argv files)) := by
  unfold mainOn main
  cases hargv : arguments argv with
  | none => exact .inl rfl
  | some named =>
      obtain ⟨dbRoot, sqlFile⟩ := named
      simp only
      unfold readTextFileOn readTextFile
      cases hfile : files sqlFile with
      | none => exact .inl rfl
      | some content =>
          cases hsource : calls.source with
          | some call => exact .inr ⟨dbRoot, sqlFile, rfl, .inl ⟨call, rfl, rfl⟩⟩
          | none =>
              rcases runSourceOn_reported h dbRoot (cString content) files with hsame | hstopped
              · exact .inl hsame
              · exact .inr ⟨dbRoot, sqlFile, rfl, .inr ⟨cString content, by rw [hfile], hstopped⟩⟩

section Small

/-- A disk with room for one byte: a longer line is flushed no further, and `fputs` says so. -/
def fullDisk : StatementCalls where
  schema := none
  append size :=
    { mkdir := none
      fopenFails := false
      write :=
        if h : 1 < size then ⟨1, true, 0, fun _ => h, Nat.le_of_lt h⟩
        else ⟨size, false, 0, by simp, Nat.le_refl size⟩ }
  openFails := false
  mkdir := none
  create := ⟨none, false, ⟨0, false, 0, by simp, Nat.le_refl 0⟩⟩
  reopenFails := false
  fgets := none

theorem fullDisk_reported : fullDisk.Reported := by
  refine ⟨fun size h => ?_, rfl, rfl⟩
  simp only [fullDisk] at h ⊢
  split at h
  · simp at h
  · rename_i hsize
    rw [dif_neg hsize]
    rfl

/-- A table of one column and a file of two statements. -/
def insertAndSelect : FileSystem := fun path =>
  if path = ascii "db/t.schema" then some (ascii "c")
  else if path = ascii "q.sql" then
    some (ascii "SELECT * FROM t; INSERT INTO t (c) VALUES ('ab')")
  else none

/-- The SELECT is answered before the INSERT fails. -/
theorem mainOn_reported_fullDisk :
    let argv := [ascii "mini_sql", ascii "db", ascii "q.sql"]
    let result := mainOn ⟨none, fun _ => fullDisk⟩ argv insertAndSelect
    result.stdout = ascii "+---+\n| c |\n+---+\n+---+\n(0 rows)\n" ∧
      result.stderr = ascii "execution error: failed to write file: db/t.data\n" ∧
      (result = main argv insertAndSelect ∨
        ∃ dbRoot sqlFile, arguments argv = some (dbRoot, sqlFile) ∧
          ((∃ call, none = some call ∧ result =
              ⟨1, [], complainOf "file error" (.readFailed call sqlFile), insertAndSelect⟩) ∨
            ∃ source, readTextFile sqlFile insertAndSelect = .ok source ∧
              StoppedByCall (fun _ => fullDisk) dbRoot source insertAndSelect result)) := by
  intro argv result
  exact ⟨by decide +kernel, by decide +kernel,
    mainOn_reported (fun _ => fullDisk_reported) argv insertAndSelect⟩

end Small

end Reported

/-! ## Any failures -/

/-- What the statements have left in a file. -/
def leftIn (dbRoot path : Bytes) (pieces : List (Statement × Bytes)) : Bytes :=
  pieces.flatMap fun piece => if path = piece.1.target.dataPath dbRoot then piece.2 else []

section Any

variable {dbRoot : Bytes} {calls : Nat → StatementCalls}

/-- A run over statements leaves pieces of their lines, in order. -/
theorem runAll_pieces (hopen : ∀ i, (calls i).openFails = false) (items : List (Statement × Nat))
    (files : FileSystem) :
    ∃ pieces : List (Statement × Bytes), pieces.map Prod.fst <+: items.map Prod.fst ∧
      (∀ piece ∈ pieces, piece.2 <+: lineOf dbRoot files piece.1) ∧
      let files' := (runAll (fun item files =>
        executeStatementOn (calls item.2) dbRoot files item.1) items files).state
      (∀ path, files'.content path = files.content path ++ leftIn dbRoot path pieces) ∧
        (∀ path, (files path).isSome = true → (files' path).isSome = true) ∧
        ∀ path, (∀ item ∈ items, path ≠ item.1.target.dataPath dbRoot) →
          files' path = files path := by
  induction items generalizing files with
  | nil =>
      exact ⟨[], List.prefix_rfl, by simp, fun path => by simp [leftIn], fun _ h => h,
        fun _ _ => rfl⟩
  | cons item rest ih =>
      obtain ⟨piece, hpiece, hgrows⟩ :=
        @executeStatementOn_grows dbRoot (calls item.2) files (hopen item.2) item.1
      cases hstep : executeStatementOn (calls item.2) dbRoot files item.1 with
      | mk answer files' =>
          rw [hstep] at hgrows
          have hschema : ∀ name : QualifiedName, files' (name.schemaPath dbRoot) =
              files (name.schemaPath dbRoot) := fun name =>
            hgrows.frame _ (dataPath_ne_schemaPath name dbRoot).symm
          cases answer with
          | error e =>
              refine ⟨[(item.1, piece)], by simp, by simpa using hpiece, ?_⟩
              rw [runAll_cons_error hstep]
              exact ⟨fun path => by simpa [leftIn] using hgrows.content_eq path,
                fun _ => hgrows.isSome, fun path hpath =>
                  hgrows.frame path (hpath item List.mem_cons_self)⟩
          | ok result =>
              obtain ⟨pieces, hfirst, hpieces, hleft, hpresent, hframe⟩ := ih files'
              refine ⟨(item.1, piece) :: pieces, ?_, ?_, ?_⟩
              · exact List.cons_prefix_cons.mpr ⟨rfl, hfirst⟩
              · refine List.forall_mem_cons.mpr ⟨hpiece, fun other hother => ?_⟩
                rw [← lineOf_congr (hschema _)]
                exact hpieces other hother
              · rw [runAll_cons_ok hstep]
                refine ⟨fun path => ?_, fun path h => hpresent path (hgrows.isSome h),
                  fun path hpath => ?_⟩
                · have hcontent : files'.content path = _ := hgrows.content_eq path
                  simp only [hleft path, hcontent, List.append_assoc, leftIn, List.flatMap_cons]
                · obtain ⟨hitem, hothers⟩ := List.forall_mem_cons.mp hpath
                  exact (hframe path hothers).trans (hgrows.frame path hitem)

theorem runSourceOn_files (calls : Nat → StatementCalls) (dbRoot source : Bytes)
    (files : FileSystem) : (runSourceOn calls dbRoot source files).files =
      (runScriptOn calls dbRoot (parseSqlScript source).script files).state := by
  unfold runSourceOn
  cases hparse : (parseSqlScript source).result with
  | error e =>
      have hempty := @parseSqlScript_failed source (by simp [hparse])
      simp only [hparse, hempty]
      rfl
  | ok =>
      simp only [hparse]
      split
      · rfl
      · rfl

/-- Whatever file calls fail, as long as none of them is the first `fopen` of a SELECT on a
file that is there: a run changes no schema, and puts nothing into a data file but
beginnings of the lines of its INSERTs, in order, behind what was there.  No file is removed,
and none is touched but the data files of the tables that the source names. -/
theorem runSourceOn_pieces (hopen : ∀ i, (calls i).openFails = false) (dbRoot source : Bytes)
    (files : FileSystem) :
    ∃ pieces : List (Statement × Bytes),
      pieces.map Prod.fst <+: (parseSqlScript source).script ∧
      (∀ piece ∈ pieces, piece.2 <+: lineOf dbRoot files piece.1) ∧
      let files' := (runSourceOn calls dbRoot source files).files
      (∀ path, files'.content path = files.content path ++ leftIn dbRoot path pieces) ∧
        (∀ name : QualifiedName, files' (name.schemaPath dbRoot) =
          files (name.schemaPath dbRoot)) ∧
        (∀ path, (files path).isSome = true → (files' path).isSome = true) ∧
        ∀ path, (∀ statement ∈ (parseSqlScript source).script,
          path ≠ statement.target.dataPath dbRoot) → files' path = files path := by
  obtain ⟨pieces, hfirst, hpieces, hleft, hpresent, hframe⟩ :=
    @runAll_pieces dbRoot calls hopen (parseSqlScript source).script.zipIdx files
  rw [List.zipIdx_map_fst] at hfirst
  rw [runSourceOn_files]
  refine ⟨pieces, hfirst, hpieces, hleft, fun name => hframe _ fun _ _ => ?_, hpresent,
    fun path hpath => hframe path fun item hitem => hpath item.1 ?_⟩
  · exact (dataPath_ne_schemaPath name dbRoot).symm
  · exact (List.mem_zipIdx' hitem).2 ▸ List.getElem_mem _

/-- A byte of the row has reached the file, whose SELECT has made it. -/
theorem runSourceOn_pieces_fullDisk :
    let source := ascii "SELECT * FROM t; INSERT INTO t (c) VALUES ('ab')"
    let files' := (runSourceOn (fun _ => fullDisk) (ascii "db") source insertAndSelect).files
    files' (ascii "db/t.data") = some (ascii "a") ∧
      ∃ pieces : List (Statement × Bytes),
        pieces.map Prod.fst <+: (parseSqlScript source).script ∧
        (∀ piece ∈ pieces, piece.2 <+: lineOf (ascii "db") insertAndSelect piece.1) ∧
        (∀ path, files'.content path =
          insertAndSelect.content path ++ leftIn (ascii "db") path pieces) ∧
        (∀ name : QualifiedName, files' (name.schemaPath (ascii "db")) =
          insertAndSelect (name.schemaPath (ascii "db"))) ∧
        (∀ path, (insertAndSelect path).isSome = true → (files' path).isSome = true) ∧
        ∀ path, (∀ statement ∈ (parseSqlScript source).script,
          path ≠ statement.target.dataPath (ascii "db")) → files' path = insertAndSelect path := by
  intro source files'
  exact ⟨by decide +kernel, runSourceOn_pieces (fun _ => rfl) (ascii "db") source insertAndSelect⟩

end Any

end MiniSql
