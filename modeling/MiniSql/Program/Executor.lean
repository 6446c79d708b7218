import MiniSql.Foundation.Runner
import MiniSql.Storage.Insert
import MiniSql.Storage.Select

set_option autoImplicit false

/-!
# The executor (`execute_statement`, `print_execution_result`)

`Effect` lists what one statement can do to the files.  Everything about runs is
derived from it.
-/

namespace MiniSql

open Foundation

/-- `ExecutionResult`. -/
inductive ExecutionResult where
  | insert (affectedRows : Nat)
  | select (query : QueryResult)
  deriving DecidableEq

/-- `execute_statement`. -/
def executeStatement (dbRoot : Bytes) :
    Command Statement FileSystem SqlError ExecutionResult
  | .insert statement, files =>
      let outcome := appendInsertRow dbRoot statement 0 files
      (outcome.result.map fun _ => .insert outcome.affectedRows, outcome.files)
  | .select statement, files =>
      let outcome := runSelectQuery dbRoot statement files
      (outcome.result.map fun _ => .select outcome.query, outcome.files)

/-! ## Printing -/

/-- `print_separator`. -/
def printSeparator (widths : List Nat) : Bytes :=
  ascii "+" ++
    widths.flatMap (fun width => List.replicate (width + 2) minus ++ ascii "+") ++ [newline]

/-- `%-*s`. -/
def padRight (width : Nat) (text : Bytes) : Bytes :=
  text ++ List.replicate (width - text.length) space

/-- One row between its pipes. -/
def printCells (widths : List Nat) (cells : List Bytes) : Bytes :=
  [pipe] ++
    (widths.mapIdx fun i width => [space] ++ padRight width (cells.getD i []) ++
      [space, pipe]).flatten ++ [newline]

/-- The widths after one more row. -/
def widen (widths : List Nat) (row : List Bytes) : List Nat :=
  widths.mapIdx fun i width =>
    let cellLength := (row.getD i []).length
    if cellLength > width then cellLength else width

/-- The width of each column of the printed table. -/
def columnWidths (query : QueryResult) : List Nat :=
  query.rows.foldl widen (query.columns.map List.length)

/-- `print_execution_result`. -/
def printExecutionResult : ExecutionResult → Bytes
  | .insert affectedRows => ascii "INSERT " ++ decimal affectedRows ++ [newline]
  | .select query =>
      let widths := columnWidths query
      printSeparator widths ++ printCells widths query.columns ++ printSeparator widths ++
        query.rows.flatMap (printCells widths) ++ printSeparator widths ++
        ascii "(" ++ decimal query.rows.length ++ ascii " rows)" ++ [newline]

/-! ## What one statement can do -/

variable {dbRoot : Bytes} {files files' : FileSystem}

/-- The outcomes of a statement: it fails and changes nothing, it appends one
line to the data file of its table, or it reads and at most creates that file. -/
inductive Effect (dbRoot : Bytes) (files : FileSystem) :
    Statement → Except SqlError ExecutionResult × FileSystem → Prop
  | failed {statement : Statement} {e : SqlError} :
      Effect dbRoot files statement (.error e, files)
  | inserted {statement : InsertStatement} {table : TableDefinition}
      (hload : loadTableDefinition dbRoot statement.target files = .ok table)
      (hinsertable : Insertable table.columns statement) :
      Effect dbRoot files (.insert statement)
        (.ok (.insert 1), appendTextFile table.dataPath
          (serializeRow (intendedRow table.columns statement)) files)
  | selected {statement : SelectStatement} {table : TableDefinition} {query : QueryResult}
      (hload : loadTableDefinition dbRoot statement.source files = .ok table) :
      Effect dbRoot files (.select statement)
        (.ok (.select query), ensureDataFile table.dataPath files)

theorem executeStatement_effect (dbRoot : Bytes) (statement : Statement)
    (files : FileSystem) :
    Effect dbRoot files statement (executeStatement dbRoot statement files) := by
  cases statement with
  | insert statement =>
      unfold executeStatement
      rcases appendInsertRow_cases dbRoot statement 0 files with
        ⟨table, hload, hinsertable, hout⟩ | ⟨_, e, hout⟩
      · simp only [hout]
        exact .inserted hload hinsertable
      · simp only [hout]
        exact .failed
  | select statement =>
      unfold executeStatement
      rcases runSelectQuery_cases dbRoot statement files with
        ⟨table, indexes, test, h, hload, _, hout⟩ | ⟨_, e, hout⟩
      · simp only [hout]
        exact .selected hload
      · simp only [hout]
        exact .failed

/-- Every error exit is free of effects. -/
theorem executeStatement_error {statement : Statement} {e : SqlError}
    (h : executeStatement dbRoot statement files = (.error e, files')) : files' = files := by
  have heffect := executeStatement_effect dbRoot statement files
  rw [h] at heffect
  cases heffect with
  | failed => rfl

/-- A statement changes no file but the data file of its table. -/
theorem executeStatement_frame (statement : Statement) {path : Bytes}
    (h : path ≠ statement.target.dataPath dbRoot) :
    (executeStatement dbRoot statement files).2 path = files path := by
  have heffect := executeStatement_effect dbRoot statement files
  revert heffect
  generalize executeStatement dbRoot statement files = outcome
  intro heffect
  cases heffect with
  | failed => rfl
  | inserted hload _ =>
      rw [(loadTableDefinition_paths hload).2]
      exact appendTextFile_of_ne h
  | selected hload =>
      rw [(loadTableDefinition_paths hload).2]
      exact ensureDataFile_of_ne h

/-- No statement changes a schema file. -/
theorem executeStatement_schema (statement : Statement) (name : QualifiedName) :
    (executeStatement dbRoot statement files).2 (name.schemaPath dbRoot) =
      files (name.schemaPath dbRoot) :=
  executeStatement_frame statement (dataPath_ne_schemaPath name dbRoot).symm

end MiniSql
