import MiniSql.Parser.Ownership
import MiniSql.Program.Main
import MiniSql.Storage.QueryOwnership

set_option autoImplicit false

/-!
# The program with what it owns

`main`, `execute_statement`, `print_execution_result` and `free_execution_result` with the
blocks and streams they acquire, use and give back.  A run leaves something behind exactly
where a query loses it.
-/

namespace MiniSql

open Foundation

/-! ## The executor -/

/-- `ExecutionResult`. -/
inductive HeapExecution where
  | insert (affectedRows : Nat)
  | select (query : HeapResult)

def HeapExecution.blocks : HeapExecution → Multiset Resource
  | insert _ => 0
  | select query => query.blocks

/-- The result without addresses. -/
def HeapExecution.result : HeapExecution → ExecutionResult
  | insert affectedRows => .insert affectedRows
  | select query => .select query.query

/-- What `execute_statement` answers, and `*result` and the files after it. -/
structure HeapExecuted where
  answer : Except Failure Unit
  execution : HeapExecution
  files : FileSystem

/-- `execute_statement` of a statement in the blocks `lender`. -/
def executeStatementHeap (lender : Multiset Resource) (dbRoot : Bytes) :
    BuiltStatement → FileSystem → Heap HeapExecuted
  | .insert statement, files => do
      match ← appendInsertRowHeap lender dbRoot statement files with
      | .error e => pure ⟨.error e, .insert 0, files⟩
      | .ok files => pure ⟨.ok (), .insert 1, files⟩
  | .select statement, files => do
      let attempt ← runSelectQueryHeap lender dbRoot statement files
      pure ⟨attempt.result, .select attempt.query, attempt.files⟩

/-- `free_execution_result`. -/
def freeExecutionResult : HeapExecution → Heap Unit
  | .insert _ => pure ()
  | .select query => freeQueryResult query

/-- What is printed where the widths are refused. -/
def outOfMemoryPrinting : Bytes := ascii "out of memory while printing result" ++ [newline]

/-- `print_execution_result`. -/
def printExecutionResultHeap : HeapExecution → Heap Bytes
  | .insert affectedRows => pure (printExecutionResult (.insert affectedRows))
  | .select query => do
      match ← Heap.malloc with
      | none => pure outOfMemoryPrinting
      | some widths => do
          Heap.use ({.block widths} + query.blocks)
          Heap.free (some widths)
          pure (printExecutionResult (.select query.query))

/-! ## The program -/

/-- A message on `stderr`. -/
def report (label : String) (e : Failure) : Bytes :=
  ascii label ++ ascii ": " ++ snprintf sqlErrorSize e.text ++ [newline]

/-- What the loop of `main` has printed, the files, and the statement it has stopped at. -/
structure ScriptOutcome where
  stdout : Bytes
  files : FileSystem
  stopped : Option (BuiltStatement × Failure)

/-- What the program leaves behind its loop. -/
def ScriptOutcome.run (outcome : ScriptOutcome) : RunResult :=
  match outcome.stopped with
  | some (_, e) => ⟨1, outcome.stdout, report "execution error" e, outcome.files⟩
  | none => ⟨0, outcome.stdout, [], outcome.files⟩

theorem ScriptOutcome.exitCode_run (outcome : ScriptOutcome) :
    outcome.run.exitCode = 0 → outcome.stopped = none := by
  unfold ScriptOutcome.run
  cases outcome.stopped with
  | none => exact fun _ => rfl
  | some stopped => simp

/-- The loop of `main` over the statements of a script in the blocks `lender`. -/
def runScriptHeap (lender : Multiset Resource) (dbRoot : Bytes) :
    List HeapStatement → FileSystem → Bytes → Heap ScriptOutcome
  | [], files, stdout => pure ⟨stdout, files, none⟩
  | statement :: statements, files, stdout => do
      Heap.use lender
      let executed ← executeStatementHeap lender dbRoot statement.built files
      match executed.answer with
      | .error e => do
          freeExecutionResult executed.execution
          pure ⟨stdout, executed.files, some (statement.built, e)⟩
      | .ok () => do
          let printed ← printExecutionResultHeap executed.execution
          freeExecutionResult executed.execution
          runScriptHeap lender dbRoot statements executed.files (stdout ++ printed)

/-- `main`. -/
def mainHeap (argv : List Bytes) (files : FileSystem) : Heap RunResult :=
  match arguments argv with
  | none => pure ⟨1, usage, [], files⟩
  | some (dbRoot, sqlFile) => do
      match ← readTextFileHeap sqlFile files with
      | .error e => pure ⟨1, [], report "file error" e, files⟩
      | .ok source => do
          match ← parseSqlScriptHeap source.block source.text with
          | .error e => do
              Heap.free source.pointer
              pure ⟨1, [], report "parse error" e, files⟩
          | .ok script => do
              let outcome ← runScriptHeap script.blocks dbRoot script.statements files []
              freeScript script
              Heap.free source.pointer
              pure outcome.run

/-! ## The program without addresses -/

/-- What `execute_statement` answers, and its result and the files after it. -/
structure Executed where
  answer : Except Failure Unit
  result : ExecutionResult
  files : FileSystem

/-- `execute_statement` with its requests for memory.  It fails where NULL is
dereferenced. -/
def executeStatementBuilt (dbRoot : Bytes) :
    BuiltStatement → FileSystem → Alloc Request Unit Executed
  | .insert statement, files =>
      (prepareInsertAlloc dbRoot statement files).test id fun
        | .error e => .done ⟨.error e, .insert 0, files⟩
        | .ok (dataPath, line) => .done ⟨.ok (), .insert 1, appendTextFile dataPath line files⟩
  | .select statement, files => do
      let attempt ← runSelectQueryBuilt dbRoot statement files
      pure ⟨attempt.result, .select attempt.query, attempt.files⟩

/-- The sites of a program: those below it, and the widths of `print_execution_result`. -/
abbrev ProgramRequest : Type := Option Request

/-- `print_execution_result`. -/
def printExecutionResultAlloc : ExecutionResult → Alloc ProgramRequest Unit Bytes
  | .insert affectedRows => .done (printExecutionResult (.insert affectedRows))
  | .select query => do
      if ← Alloc.ask none then pure (printExecutionResult (.select query))
      else pure outOfMemoryPrinting

/-- The loop of `main`. -/
def runScriptAlloc (dbRoot : Bytes) :
    List BuiltStatement → FileSystem → Bytes → Alloc ProgramRequest Unit ScriptOutcome
  | [], files, stdout => .done ⟨stdout, files, none⟩
  | statement :: statements, files, stdout =>
      (executeStatementBuilt dbRoot statement files).test some fun
        | .error () => .fail ()
        | .ok ⟨.error e, _, files⟩ => .done ⟨stdout, files, some (statement, e)⟩
        | .ok ⟨.ok (), result, files⟩ => do
            let printed ← printExecutionResultAlloc result
            runScriptAlloc dbRoot statements files (stdout ++ printed)

/-- `main`, with the statement its loop has stopped at. -/
def mainAlloc (argv : List Bytes) (files : FileSystem) :
    Alloc ProgramRequest Unit (RunResult × Option (BuiltStatement × Failure)) :=
  match arguments argv with
  | none => .done (⟨1, usage, [], files⟩, none)
  | some (dbRoot, sqlFile) =>
      (readTextFileAlloc sqlFile files).test some fun
        | .error e => .done (⟨1, [], report "file error" e, files⟩, none)
        | .ok source =>
            (parseSqlScriptAlloc source).test some fun
              | .error e => .done (⟨1, [], report "parse error" e, files⟩, none)
              | .ok script => do
                  let outcome ← runScriptAlloc dbRoot script files []
                  pure (outcome.run, outcome.stopped)

/-! ## The program is safe -/

section Safety

open Heap

variable {lender frame : Multiset Resource}

theorem freeExecutionResult_frees (execution : HeapExecution) :
    Frees execution.blocks (freeExecutionResult execution) := by
  cases execution with
  | insert affectedRows => exact .done
  | select query => exact freeQueryResult_frees query

/-- A requested column of the statement is unknown, and it is not the first one. -/
def BuiltStatement.LosesColumns (e : Failure) : BuiltStatement → Prop
  | .insert _ => False
  | .select statement => MiniSql.LosesColumns statement.columns e

/-- The result and the files are those of the other, and the caller holds the result and what
has been lost. -/
def ExecutionLeaves (statement : BuiltStatement) (frame : Multiset Resource) :
    HeapExecuted → Except Unit Executed → Multiset Resource → Prop
  | x, .ok y, held =>
      y = ⟨x.answer, x.execution.result, x.files⟩ ∧
        ∃ remains, AnswerLost (fun e => statement.LosesColumns e) x.answer remains ∧
          held = x.execution.blocks + (remains + frame)
  | _, .error _, _ => False

theorem executeStatementHeap_safe (hlender : lender ⊆ frame) (dbRoot : Bytes)
    (statement : BuiltStatement) (files : FileSystem) :
    Safe (fun _ => True) (ExecutionLeaves statement frame) frame
      (executeStatementHeap lender dbRoot statement files)
      (executeStatementBuilt dbRoot statement files) := by
  cases statement with
  | insert statement =>
      refine Safe.test (@appendInsertRowHeap_safe (fun _ => False) _ _ hlender dbRoot statement
        files) (fun _ h => h.elim) ?_
      rintro (e | files') (e' | ⟨dataPath, line⟩) held h
      · obtain ⟨rfl, rfl⟩ := h
        exact .done ⟨rfl, 0, .zero fun _ _ h => h, by simp [HeapExecution.blocks]⟩
      · exact h.elim
      · exact h.elim
      · obtain ⟨rfl, rfl⟩ := h
        exact .done ⟨rfl, 0, .zero fun _ _ h => h, by simp [HeapExecution.blocks]⟩
  | select statement =>
      refine Safe.bind (runSelectQueryHeap_safe hlender dbRoot statement files) ?_ ?_
      · rintro attempt _ held ⟨rfl, remains, hlost, rfl⟩
        exact .done ⟨rfl, remains, hlost, rfl⟩
      · rintro attempt e held h
        exact h.elim

theorem printExecutionResultHeap_safe (execution : HeapExecution) :
    Safe (fun _ => True)
      (fun printed r held => r = .ok printed ∧ held = execution.blocks + frame)
      (execution.blocks + frame) (printExecutionResultHeap execution)
      (printExecutionResultAlloc execution.result) := by
  cases execution with
  | insert affectedRows => exact .done ⟨rfl, rfl⟩
  | select query =>
      refine Safe.malloc (fun widths => ?_) (.done ⟨rfl, rfl⟩)
      refine Safe.use (fun r hr => ?_) ?_
      · rcases Multiset.mem_add.mp hr with hr | hr
        · exact Multiset.mem_add.mpr (.inl hr)
        · simp [HeapExecution.blocks, hr]
      exact (Frees.free (some widths)).safe (.done ⟨rfl, rfl⟩)

/-- What is left behind the loop of `main`. -/
def ScriptLost (stopped : Option (BuiltStatement × Failure)) (remains : Multiset Resource) :
    Prop :=
  Closed remains ∧
    (remains ≠ 0 → ∃ statement e, stopped = some (statement, e) ∧
      (statement.LosesColumns e ∨ e = .outOfMemory "parsing row")) ∧
    ∀ statement e, stopped = some (statement, e) → statement.LosesColumns e → remains ≠ 0

theorem ScriptLost.zero : ScriptLost none 0 :=
  ⟨.zero, fun h => absurd rfl h, by simp⟩

theorem runScriptHeap_safe (hlender : lender ⊆ frame) (dbRoot : Bytes)
    (statements : List HeapStatement) (files : FileSystem) (stdout : Bytes) :
    Safe (fun _ => True)
      (fun outcome r held => r = .ok outcome ∧
        ∃ remains, ScriptLost outcome.stopped remains ∧ held = remains + frame)
      frame (runScriptHeap lender dbRoot statements files stdout)
      (runScriptAlloc dbRoot (statements.map HeapStatement.built) files stdout) := by
  induction statements generalizing files stdout with
  | nil => exact .done ⟨rfl, 0, .zero, (zero_add _).symm⟩
  | cons statement statements ih =>
      unfold runScriptHeap
      rw [List.map_cons]
      unfold runScriptAlloc
      refine Safe.use hlender ?_
      refine Safe.test (executeStatementHeap_safe hlender dbRoot statement.built files)
        (fun e _ => ⟨(), rfl, trivial⟩) ?_
      rintro ⟨answer, execution, files'⟩ (e | _) held h
      · exact h.elim
      obtain ⟨rfl, remains, hlost, rfl⟩ := h
      cases answer with
      | error e =>
          refine (freeExecutionResult_frees execution).safe (.done ⟨rfl, remains, ?_, rfl⟩)
          refine ⟨hlost.1, fun hne => ?_, ?_⟩
          · obtain ⟨e', he, hloses⟩ := hlost.2.1 hne
            obtain rfl : e = e' := by simpa using he
            exact ⟨_, _, rfl, hloses⟩
          · rintro _ _ ⟨⟩ hloses
            exact hlost.2.2 e rfl hloses
      | ok =>
          obtain rfl := hlost.eq_zero
          rw [zero_add]
          refine Safe.bind (printExecutionResultHeap_safe execution) ?_ ?_
          · rintro printed _ held ⟨⟨⟩, rfl⟩
            exact (freeExecutionResult_frees execution).safe (ih _ _)
          · rintro _ _ _ ⟨h, -⟩
            simp at h

/-- The program uses and gives back only what it holds, whatever is refused, and it gives
back all it has acquired, except where a query loses something. -/
theorem mainHeap_safe (argv : List Bytes) (files : FileSystem) :
    Safe (fun _ => True)
      (fun result r held => ∃ stopped, r = .ok (result, stopped) ∧
        (result.exitCode = 0 → stopped = none) ∧ ScriptLost stopped held) 0
      (mainHeap argv files) (mainAlloc argv files) := by
  unfold mainHeap mainAlloc
  rcases arguments argv with _ | ⟨dbRoot, sqlFile⟩
  · exact .done ⟨none, rfl, fun _ => rfl, .zero⟩
  dsimp only
  refine Safe.test (@readTextFileHeap_safe (fun _ => False) 0 sqlFile files)
    (fun _ h => h.elim) ?_
  rintro (e | source) (e' | text) held h
  · obtain ⟨rfl, rfl⟩ := h
    exact .done ⟨none, rfl, fun _ => rfl, .zero⟩
  · exact h.elim
  · exact h.elim
  · obtain ⟨rfl, rfl⟩ := h
    rw [add_zero]
    refine Safe.test (@parseSqlScriptHeap_safe (fun _ => False) source.block source.block
      (fun _ h => h) source.text) (fun _ h => h.elim) ?_
    rintro (e | script) (e' | built) held h
    · obtain ⟨rfl, rfl⟩ := h
      rw [← add_zero source.block]
      exact (Frees.free source.pointer).safe (.done ⟨none, rfl, fun _ => rfl, .zero⟩)
    · exact h.elim
    · exact h.elim
    · obtain ⟨rfl, rfl⟩ := h
      have hlender : script.blocks ⊆ script.blocks + source.block := fun r hr => by simp [hr]
      refine Safe.bind (runScriptHeap_safe hlender dbRoot script.statements files []) ?_ ?_
      · rintro outcome _ held ⟨⟨⟩, remains, hlost, rfl⟩
        have hheld : remains + (script.blocks + source.block) =
            script.blocks + (source.block + remains) := by abel
        rw [hheld]
        exact (freeScript_frees script).safe ((Frees.free source.pointer).safe
          (.done ⟨outcome.stopped, rfl, outcome.exitCode_run, hlost⟩))
      · rintro _ _ _ ⟨h, -⟩
        simp at h

end Safety

/-! ## With every request granted -/

section Granted

open Alloc

/-- The statement a run of a script has stopped at. -/
def stoppedAt (script : List Statement) (trace : Trace FileSystem SqlError ExecutionResult) :
    Option (BuiltStatement × Failure) := do
  let e ← trace.fault
  let statement ← script[trace.outputs.length]?
  pure (statement.built, .sql e)

theorem stoppedAt_eq_some_iff {script : List Statement}
    {trace : Trace FileSystem SqlError ExecutionResult} {statement : BuiltStatement}
    {e : Failure} :
    stoppedAt script trace = some (statement, e) ↔
      ∃ statement' e', trace.fault = some e' ∧ script[trace.outputs.length]? = some statement' ∧
        statement = statement'.built ∧ e = .sql e' := by
  unfold stoppedAt
  cases trace.fault with
  | none => simp
  | some e' =>
      cases script[trace.outputs.length]? with
      | none => simp
      | some statement' => simp [eq_comm]

theorem stoppedAt_of_fault {dbRoot : Bytes} {script : List Statement} {files : FileSystem}
    {e : SqlError} (h : (runScript dbRoot script files).fault = some e) :
    ∃ statement, script[(runScript dbRoot script files).outputs.length]? = some statement ∧
      stoppedAt script (runScript dbRoot script files) = some (statement.built, .sql e) := by
  have hlength : (runScript dbRoot script files).outputs.length < script.length :=
    runAll_length_of_fault h
  have hstatement := List.getElem?_eq_getElem hlength
  exact ⟨_, hstatement, by simp [stoppedAt, h, hstatement]⟩

theorem runSelectQueryBuilt_granted (dbRoot : Bytes) (statement : SelectStatement)
    (files : FileSystem) :
    (runSelectQueryBuilt dbRoot statement.built files).granted =
      .ok ⟨(runSelectQuery dbRoot statement files).result.mapError .sql,
        (runSelectQuery dbRoot statement files).query,
        (runSelectQuery dbRoot statement files).files⟩ := by
  rw [runSelectQueryBuilt_built, granted_test, runSelectQueryAlloc_granted]
  cases (runSelectQuery dbRoot statement files).result with
  | error e => rfl
  | ok => rfl

/-- With every request granted a statement does what it does without memory. -/
theorem executeStatementBuilt_granted (dbRoot : Bytes) (statement : Statement)
    (files : FileSystem) :
    match executeStatement dbRoot statement files with
    | (.ok result, files') => (executeStatementBuilt dbRoot statement.built files).granted =
        .ok ⟨.ok (), result, files'⟩
    | (.error e, files') => ∃ result,
        (executeStatementBuilt dbRoot statement.built files).granted =
          .ok ⟨.error (.sql e), result, files'⟩ := by
  cases statement with
  | insert statement =>
      have hgranted : (prepareInsertAlloc dbRoot statement files).granted = _ :=
        (prepareInsertAlloc_grants dbRoot statement files).granted_eq
      show match (((appendInsertRow dbRoot statement 0 files).result.map fun _ =>
          ExecutionResult.insert (appendInsertRow dbRoot statement 0 files).affectedRows),
          (appendInsertRow dbRoot statement 0 files).files) with
        | (.ok result, files') => _
        | (.error e, files') => _
      unfold executeStatementBuilt Statement.built
      dsimp only
      rw [granted_test, hgranted, appendInsertRow_eq]
      cases prepareInsert dbRoot statement files with
      | error e => exact ⟨_, rfl⟩
      | ok row => rfl
  | select statement =>
      have hgranted := runSelectQueryBuilt_granted dbRoot statement files
      show match (((runSelectQuery dbRoot statement files).result.map fun _ =>
          ExecutionResult.select (runSelectQuery dbRoot statement files).query),
          (runSelectQuery dbRoot statement files).files) with
        | (.ok result, files') => _
        | (.error e, files') => _
      unfold executeStatementBuilt Statement.built
      dsimp only
      rw [granted_after _ hgranted]
      cases (runSelectQuery dbRoot statement files).result with
      | error e => exact ⟨_, rfl⟩
      | ok => rfl

theorem printExecutionResultAlloc_granted (result : ExecutionResult) :
    (printExecutionResultAlloc result).granted = .ok (printExecutionResult result) := by
  cases result with
  | insert affectedRows => rfl
  | select query => rfl

theorem runScriptAlloc_granted (dbRoot : Bytes) (script : List Statement) (files : FileSystem)
    (stdout : Bytes) :
    (runScriptAlloc dbRoot (script.map Statement.built) files stdout).granted =
      .ok ⟨stdout ++ (runScript dbRoot script files).outputs.flatMap printExecutionResult,
        (runScript dbRoot script files).state, stoppedAt script (runScript dbRoot script files)⟩ := by
  induction script generalizing files stdout with
  | nil => simp [runScriptAlloc, runScript, stoppedAt, granted]
  | cons statement script ih =>
      have hgranted := executeStatementBuilt_granted dbRoot statement files
      rw [List.map_cons, runScriptAlloc, granted_test]
      rcases hstep : executeStatement dbRoot statement files with ⟨e | result, files'⟩
      · rw [hstep] at hgranted
        obtain ⟨result, hgranted⟩ := hgranted
        rw [hgranted, runScript, runAll_cons_error hstep]
        simp [stoppedAt, granted]
      · rw [hstep] at hgranted
        rw [hgranted]
        dsimp only
        rw [granted_after _ (printExecutionResultAlloc_granted result), ih]
        unfold runScript
        rw [runAll_cons_ok hstep]
        simp [stoppedAt]

/-- The statement at which a run of the program has stopped. -/
def mainStopped (argv : List Bytes) (files : FileSystem) : Option (BuiltStatement × Failure) :=
  match arguments argv with
  | none => none
  | some (dbRoot, sqlFile) =>
      match readTextFile sqlFile files with
      | .error _ => none
      | .ok source =>
          match (parseSqlScript source).result with
          | .error _ => none
          | .ok () => stoppedAt (parseSqlScript source).script
              (runScript dbRoot (parseSqlScript source).script files)

theorem mainStopped_eq_some_iff {argv : List Bytes} {files : FileSystem}
    {statement : BuiltStatement} {e : Failure} :
    mainStopped argv files = some (statement, e) ↔
      ∃ dbRoot sqlFile source statement' e', arguments argv = some (dbRoot, sqlFile) ∧
        readTextFile sqlFile files = .ok source ∧ (parseSqlScript source).result = .ok () ∧
        (runScript dbRoot (parseSqlScript source).script files).fault = some e' ∧
        (parseSqlScript source).script[(runScript dbRoot (parseSqlScript source).script
          files).outputs.length]? = some statement' ∧
        statement = statement'.built ∧ e = .sql e' := by
  unfold mainStopped
  rcases arguments argv with _ | ⟨dbRoot, sqlFile⟩
  · simp
  cases hread : readTextFile sqlFile files with
  | error e => simp [hread]
  | ok source =>
      cases hparse : (parseSqlScript source).result with
      | error e => simp [hread, hparse]
      | ok =>
          simp [hread, hparse, stoppedAt_eq_some_iff]

/-- A program that is granted every request is the program without memory. -/
theorem mainAlloc_granted (argv : List Bytes) (files : FileSystem) :
    (mainAlloc argv files).granted = .ok (main argv files, mainStopped argv files) := by
  unfold mainAlloc main mainStopped
  rcases arguments argv with _ | ⟨dbRoot, sqlFile⟩
  · rfl
  dsimp only
  have hread : (readTextFileAlloc sqlFile files).granted =
      (readTextFile sqlFile files).mapError .sql := by
    have hgrants := (readTextFileAlloc_grants sqlFile files)
    rw [Grants.granted_eq (f := id) hgrants]
    simp
  rw [granted_test, hread]
  cases readTextFile sqlFile files with
  | error e => rfl
  | ok source =>
      have hparse : (parseSqlScriptAlloc source).granted = _ :=
        (parseSqlScriptAlloc_grants source).granted_eq
      show (Alloc.test some (parseSqlScriptAlloc source) _).granted = _
      rw [granted_test, hparse, ParseOutcome.answer]
      dsimp only
      cases hresult : (parseSqlScript source).result with
      | error e =>
          rw [runSource_of_error dbRoot files hresult]
          rfl
      | ok =>
          have hloop := runScriptAlloc_granted dbRoot (parseSqlScript source).script files []
          show (runScriptAlloc dbRoot _ files [] >>= fun outcome : ScriptOutcome =>
            done (outcome.run, outcome.stopped)).granted = _
          rw [granted_after _ hloop]
          unfold runSource
          simp only [hresult]
          cases hfault : (runScript dbRoot (parseSqlScript source).script files).fault with
          | none => simp [granted, ScriptOutcome.run, stoppedAt, hfault]
          | some e =>
              obtain ⟨statement, -, hstopped⟩ := stoppedAt_of_fault hfault
              rw [hstopped]
              rfl

end Granted

/-! ## Where NULL is dereferenced -/

section Null

open Alloc

/-- The column of the WHERE clause, if there is one, has been copied. -/
def BuiltStatement.Whole : BuiltStatement → Prop
  | .insert _ => True
  | .select statement => statement.Whole

theorem runSelectQueryBuilt_failsWith (dbRoot : Bytes) {statement : BuiltSelect}
    (h : statement.Whole) (files : FileSystem) :
    (runSelectQueryBuilt dbRoot statement files).FailsWith fun _ => False :=
  (FailsWith.trivial _).test (fun _ _ => True.intro) fun _ => queryTable_failsWith h _ _ _ _

theorem executeStatementBuilt_failsWith (dbRoot : Bytes) {statement : BuiltStatement}
    (h : statement.Whole) (files : FileSystem) :
    (executeStatementBuilt dbRoot statement files).FailsWith fun _ => False := by
  cases statement with
  | insert statement =>
      exact (FailsWith.trivial _).test (fun _ _ => True.intro) fun _ => True.intro
  | select statement =>
      exact (runSelectQueryBuilt_failsWith dbRoot h files).bind fun _ => True.intro

/-- The loop of `main` dereferences NULL only at a WHERE column that was not copied. -/
theorem runScriptAlloc_failsWith (dbRoot : Bytes) {statements : List BuiltStatement}
    (h : ∀ statement ∈ statements, statement.Whole) (files : FileSystem) (stdout : Bytes) :
    (runScriptAlloc dbRoot statements files stdout).FailsWith fun _ => False := by
  induction statements generalizing files stdout with
  | nil => exact True.intro
  | cons statement statements ih =>
      obtain ⟨hstatement, hrest⟩ := List.forall_mem_cons.mp h
      unfold runScriptAlloc
      refine (executeStatementBuilt_failsWith dbRoot hstatement files).test (fun _ h => h.elim) ?_
      rintro ⟨_ | _, result, files'⟩
      · exact True.intro
      · refine FailsWith.bind ?_ fun printed => ih hrest _ _
        cases result with
        | insert affectedRows => exact True.intro
        | select query =>
            rintro (_ | _)
            · exact True.intro
            · exact True.intro

end Null

/-! ## Runs of the program -/

section Runs

/-- The request for the source is the first; the parser's follow. -/
theorem mainAlloc_run_error {pattern : Nat → Bool} {argv : List Bytes} {files : FileSystem}
    (h : (mainAlloc argv files).run pattern = .error ()) :
    ∃ dbRoot sqlFile source statement, arguments argv = some (dbRoot, sqlFile) ∧
      readTextFile sqlFile files = .ok source ∧
      statement ∈ (parseSqlScriptUnder (fun n => pattern (n + 1)) source).script ∧
      ¬ statement.Whole := by
  unfold mainAlloc at h
  rcases harguments : arguments argv with _ | ⟨dbRoot, sqlFile⟩
  · rw [harguments] at h
    simp [Alloc.run] at h
  rw [harguments] at h
  dsimp only at h
  unfold readTextFileAlloc at h
  cases hread : readTextFile sqlFile files with
  | error e =>
      rw [hread] at h
      simp [Alloc.test, Alloc.run] at h
  | ok source =>
      rw [hread] at h
      cases hanswer : pattern 0 with
      | false => simp [Alloc.demand, Alloc.test, Alloc.run, hanswer, Bind.bind, Alloc.bind] at h
      | true =>
          simp only [Alloc.demand, Bind.bind, Alloc.bind, Alloc.pure_eq, Alloc.test, Alloc.run,
            hanswer, if_true] at h
          rw [Alloc.run_test] at h
          cases hparse : (parseSqlScriptAlloc source).run fun n => pattern (n + 1) with
          | error e =>
              rw [hparse] at h
              cases h
          | ok script =>
              rw [hparse] at h
              by_contra hnone
              have hwhole : ∀ statement ∈ script, statement.Whole := by
                intro statement hmem
                by_contra hnull
                refine hnone ⟨dbRoot, sqlFile, source, statement, rfl, hread, ?_, hnull⟩
                unfold parseSqlScriptUnder
                rw [hparse]
                exact hmem
              have hfails : (runScriptAlloc dbRoot script files [] >>= fun outcome =>
                  (Alloc.done (outcome.run, outcome.stopped) :
                    Alloc ProgramRequest Unit _)).FailsWith fun _ => False :=
                (runScriptAlloc_failsWith dbRoot hwhole files []).bind fun _ => True.intro
              exact hfails.run h

/-- What a run of the program does, whatever is refused: it dereferences NULL where a WHERE
column was not copied, or it uses and gives back only what it holds.  Then every stream is
closed in the end, and a run with exit code 0 has given back all it has acquired. -/
theorem mainHeap_run (allocator : Heap.Allocator) (pattern : Nat → Bool) (argv : List Bytes)
    (files : FileSystem) :
    match (mainHeap argv files).run allocator pattern 0 with
    | .ok (result, held) => Closed held ∧ (result.exitCode = 0 → held = 0)
    | .error .null => ∃ dbRoot sqlFile source statement,
        arguments argv = some (dbRoot, sqlFile) ∧ readTextFile sqlFile files = .ok source ∧
        statement ∈ (parseSqlScriptUnder (fun n => pattern (n + 1)) source).script ∧
        ¬ statement.Whole
    | .error .misuse => False := by
  rcases (mainHeap_safe argv files).run allocator pattern with
    ⟨result, held, hrun, stopped, -, hexit, hclosed, hlost, -⟩ | ⟨hrun, ⟨⟩, herror, -⟩
  · rw [hrun]
    refine ⟨hclosed, fun hzero => ?_⟩
    by_contra hne
    obtain ⟨statement, e, hstopped, -⟩ := hlost hne
    simp [hexit hzero] at hstopped
  · rw [hrun]
    exact mainAlloc_run_error herror

/-- Where nothing is refused, the program does what it does without memory, and gives back
all it has acquired, except exactly where it stops at a query with an unknown column behind
a known one. -/
theorem mainHeap_granted_leaks_iff (allocator : Heap.Allocator) (argv : List Bytes)
    (files : FileSystem) :
    ∃ held, (mainHeap argv files).run allocator (fun _ => true) 0 = .ok (main argv files, held) ∧
      Closed held ∧
      (held ≠ 0 ↔ ∃ dbRoot sqlFile source statement name,
        arguments argv = some (dbRoot, sqlFile) ∧ readTextFile sqlFile files = .ok source ∧
          (parseSqlScript source).result = .ok () ∧
          (runScript dbRoot (parseSqlScript source).script files).fault =
            some (.unknownSelectColumn name) ∧
          (parseSqlScript source).script[(runScript dbRoot (parseSqlScript source).script
            files).outputs.length]? = some (.select statement) ∧
          statement.columns.head? ≠ some name) := by
  have hgranted := mainAlloc_granted argv files
  rw [← Alloc.run_true] at hgranted
  rcases (mainHeap_safe argv files).run allocator fun _ => true with
    ⟨result, held, hrun, stopped, hanswer, -, hclosed, hlost, hloses⟩ | ⟨-, e, herror, -⟩
  · obtain ⟨rfl, rfl⟩ := Prod.mk.inj (Except.ok.inj (hanswer.symm.trans hgranted))
    refine ⟨held, hrun, hclosed, fun hne => ?_, ?_⟩
    · obtain ⟨statement, e, hstopped, hcause⟩ := hlost hne
      obtain ⟨dbRoot, sqlFile, source, statement', e', harguments, hread, hparse, hfault,
        hstatement, rfl, rfl⟩ := mainStopped_eq_some_iff.mp hstopped
      cases statement' with
      | insert statement =>
          rcases hcause with h | h
          · exact h.elim
          · simp at h
      | select statement =>
          rcases hcause with ⟨name, he, hhead⟩ | h
          · obtain rfl : e' = .unknownSelectColumn name := by simpa using he
            exact ⟨dbRoot, sqlFile, source, statement, name, harguments, hread, hparse, hfault,
              hstatement, hhead⟩
          · simp at h
    · rintro ⟨dbRoot, sqlFile, source, statement, name, harguments, hread, hparse, hfault,
        hstatement, hhead⟩
      have hstopped := mainStopped_eq_some_iff.mpr ⟨dbRoot, sqlFile, source, .select statement,
        .unknownSelectColumn name, harguments, hread, hparse, hfault, hstatement, rfl, rfl⟩
      exact hloses _ _ hstopped ⟨name, rfl, hhead⟩
  · rw [hgranted] at herror
    simp at herror

end Runs

end MiniSql
