import MiniSql.Parser.Concat
import MiniSql.Program.Executor

set_option autoImplicit false

/-!
# The program (`main`)

The statements of a source are run in order up to the first that fails.
-/

namespace MiniSql

open Foundation

/-- What a run of the program leaves behind. -/
structure RunResult where
  exitCode : Nat
  stdout : Bytes
  stderr : Bytes
  files : FileSystem

/-- The loop of `main` over the statements of a script. -/
def runScript (dbRoot : Bytes) (script : List Statement) (files : FileSystem) :
    Trace FileSystem SqlError ExecutionResult :=
  runAll (executeStatement dbRoot) script files

/-- A message on `stderr`. -/
def complain (label : String) (e : SqlError) : Bytes :=
  ascii label ++ ascii ": " ++ e.buffer ++ [newline]

/-- `main` once it has read the source. -/
def runSource (dbRoot source : Bytes) (files : FileSystem) : RunResult :=
  let outcome := parseSqlScript source
  match outcome.result with
  | .error e => ⟨1, [], complain "parse error" e, files⟩
  | .ok () =>
      let trace := runScript dbRoot outcome.script files
      let stdout := trace.outputs.flatMap printExecutionResult
      match trace.fault with
      | some e => ⟨1, stdout, complain "execution error" e, trace.state⟩
      | none => ⟨0, stdout, [], trace.state⟩

/-- The database root and the SQL file, from either form of the command line. -/
def arguments : List Bytes → Option (Bytes × Bytes)
  | [_, dbRoot, sqlFile] => some (dbRoot, sqlFile)
  | [_, db, dbRoot, file, sqlFile] =>
      if db = ascii "--db" ∧ file = ascii "--file" then some (dbRoot, sqlFile) else none
  | _ => none

/-- `print_usage`. -/
def usage : Bytes :=
  ascii "Usage:" ++ [newline] ++ ascii "  mini_sql <db_root> <sql_file>" ++ [newline] ++
    ascii "  mini_sql --db <db_root> --file <sql_file>" ++ [newline]

/-- `main`. -/
def main (argv : List Bytes) (files : FileSystem) : RunResult :=
  match arguments argv with
  | none => ⟨1, usage, [], files⟩
  | some (dbRoot, sqlFile) =>
      match readTextFile sqlFile files with
      | .error e => ⟨1, [], complain "file error" e, files⟩
      | .ok source => runSource dbRoot source files

section Runs

variable (dbRoot : Bytes) {source : Bytes} (files : FileSystem)

theorem runSource_of_error {e : SqlError} (h : (parseSqlScript source).result = .error e) :
    runSource dbRoot source files = ⟨1, [], complain "parse error" e, files⟩ := by
  unfold runSource
  simp only [h]

/-- The files and the standard output of a run are those of its statements. -/
theorem runSource_of_ok (h : (parseSqlScript source).result = .ok ()) :
    (runSource dbRoot source files).files =
        (runScript dbRoot (parseSqlScript source).script files).state ∧
      (runSource dbRoot source files).stdout =
        (runScript dbRoot (parseSqlScript source).script files).outputs.flatMap
          printExecutionResult ∧
      (runSource dbRoot source files).exitCode =
        if (runScript dbRoot (parseSqlScript source).script files).fault.isSome then 1
        else 0 := by
  unfold runSource
  simp only [h]
  cases (runScript dbRoot (parseSqlScript source).script files).fault with
  | none => exact ⟨rfl, rfl, rfl⟩
  | some e => exact ⟨rfl, rfl, rfl⟩

end Runs

/-- A source that is rejected touches no file.  Otherwise, when a statement is the
first to fail, the files and the output are those of the statements before it run
alone, whatever stands behind it; when none fails, all of them take effect. -/
theorem runSource_prefix (dbRoot source : Bytes) (files : FileSystem) :
    (∀ e, (parseSqlScript source).result = .error e →
      (runSource dbRoot source files).files = files ∧
        (runSource dbRoot source files).stdout = []) ∧
      ((parseSqlScript source).result = .ok () →
        (∀ before statement after e,
          (parseSqlScript source).script = before ++ statement :: after →
          (runScript dbRoot before files).fault = none →
          (executeStatement dbRoot statement (runScript dbRoot before files).state).1 =
            .error e →
          (runSource dbRoot source files).files = (runScript dbRoot before files).state ∧
            (runSource dbRoot source files).stdout =
              (runScript dbRoot before files).outputs.flatMap printExecutionResult ∧
            (runScript dbRoot before files).outputs.length = before.length ∧
            (runSource dbRoot source files).exitCode = 1) ∧
        ((runScript dbRoot (parseSqlScript source).script files).fault = none →
          (runSource dbRoot source files).exitCode = 0)) := by
  refine ⟨fun e h => ?_, fun hparse => ⟨?_, fun hnone => ?_⟩⟩
  · rw [runSource_of_error dbRoot files h]
    exact ⟨rfl, rfl⟩
  · intro before statement after e hscript hbefore hfails
    obtain ⟨hfiles, hstdout, hexit⟩ := runSource_of_ok dbRoot files hparse
    have hstep : executeStatement dbRoot statement (runScript dbRoot before files).state =
        (.error e, (runScript dbRoot before files).state) := by
      cases hout : executeStatement dbRoot statement
          (runScript dbRoot before files).state with
      | mk answer files' =>
          rw [hout] at hfails
          obtain rfl : answer = .error e := hfails
          rw [executeStatement_error hout]
    have hrun := runAll_stops after hbefore hstep
    rw [hfiles, hstdout, hexit, hscript]
    unfold runScript at hrun ⊢
    rw [hrun]
    exact ⟨rfl, rfl, runAll_length_of_no_fault hbefore, rfl⟩
  · rw [(runSource_of_ok dbRoot files hparse).2.2, hnone]
    rfl

/-- Two accepted sources with a newline between them are accepted as one, with the
statements of both in order.  Where those of the first succeed, a run over the
whole does what a run over the first and then one over the second do. -/
theorem runSource_append {source source' : Bytes}
    (h : (parseSqlScript source).result = .ok ())
    (h' : (parseSqlScript source').result = .ok ()) :
    (parseSqlScript (source ++ newline :: source')).result = .ok () ∧
      (parseSqlScript (source ++ newline :: source')).script =
        (parseSqlScript source).script ++ (parseSqlScript source').script ∧
      ∀ (dbRoot : Bytes) (files : FileSystem),
        (runScript dbRoot (parseSqlScript source).script files).fault = none →
        let first := runSource dbRoot source files
        let second := runSource dbRoot source' first.files
        let whole := runSource dbRoot (source ++ newline :: source') files
        whole.files = second.files ∧ whole.stdout = first.stdout ++ second.stdout ∧
          whole.stderr = first.stderr ++ second.stderr ∧ whole.exitCode = second.exitCode := by
  obtain ⟨hparse, hscript⟩ := parseSqlScript_append h h'
  refine ⟨hparse, hscript, ?_⟩
  intro dbRoot files hnone first second whole
  have hrun := runAll_append (parseSqlScript source').script hnone
  have hfirst : first = ⟨0, (runScript dbRoot (parseSqlScript source).script files).outputs.flatMap
      printExecutionResult, [], (runScript dbRoot (parseSqlScript source).script files).state⟩ := by
    show runSource dbRoot source files = _
    unfold runSource
    simp only [h, hnone]
  have hwhole : whole = runSource dbRoot (source ++ newline :: source') files := rfl
  have hsecond : second = runSource dbRoot source' first.files := rfl
  rw [hwhole, hsecond, hfirst]
  unfold runSource
  simp only [hparse, h', hscript]
  unfold runScript at hrun ⊢
  rw [hrun]
  -- the second run stops at the same fault, or at none
  cases (runAll (executeStatement dbRoot) (parseSqlScript source').script
      (runAll (executeStatement dbRoot) (parseSqlScript source).script files).state).fault with
  | none => simp
  | some e => simp

/-- A source that ends in a comment, with no semicolon, and another behind it. -/
theorem runSource_append_comment :
    (parseSqlScript (ascii "select*from t--x" ++ newline :: ascii "select*from u")).script =
      (parseSqlScript (ascii "select*from t--x")).script ++
        (parseSqlScript (ascii "select*from u")).script := by
  have hfirst : (parseSqlScript (ascii "select*from t--x")).result = .ok () := by
    decide +kernel
  have hsecond : (parseSqlScript (ascii "select*from u")).result = .ok () := by
    decide +kernel
  exact (runSource_append hfirst hsecond).2.1

end MiniSql
