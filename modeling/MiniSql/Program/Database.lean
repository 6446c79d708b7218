import MiniSql.Foundation.Simulation
import MiniSql.Program.Main
import MiniSql.Storage.ReadBack

set_option autoImplicit false

/-!
# The database the program is for

A database has a relation for each of its tables.  INSERT puts a row behind the rows of a
relation, and SELECT restricts and projects one; a statement that names something that is
not there is refused and changes nothing.  No file, path or line is mentioned here.
-/

namespace MiniSql

open Foundation

/-- A relation for each table there is. -/
abbrev Database : Type := QualifiedName → Option (Relation Bytes Bytes)

/-- What a statement answers. -/
inductive Answer where
  | inserted
  | rows (r : Relation Bytes Bytes)

/-- The answer as the executor hands it on. -/
def Answer.result : Answer → ExecutionResult
  | inserted => .insert 1
  | rows r => .select (.ofRelation r)

/-- The requested columns stand at these positions, and the column of a WHERE clause is
there. -/
def QueriedAt (heading : List Bytes) (statement : SelectStatement) (indexes : List Nat) : Prop :=
  SelectsAt heading statement indexes ∧
    ∀ clause, statement.where_ = some clause → ∃ i, Resolves heading clause.column i

/-- The rows that a query keeps, in the columns it requests. -/
def queryAt (r : Relation Bytes Bytes) (statement : SelectStatement) (indexes : List Nat) :
    Relation Bytes Bytes :=
  (r.restrict fun values => decide (Keeps r.heading statement.where_ values)).project indexes

open Classical in
/-- What one statement does to a database. -/
noncomputable def Database.execute : Command Statement Database Unit Answer
  | .insert statement, db =>
      match db statement.target with
      | none => (.error (), db)
      | some r =>
          if Insertable r.heading statement then
            (.ok .inserted, Function.update db statement.target (some (r.insert
              (intendedRow r.heading statement) (length_intendedRow r.heading statement))))
          else (.error (), db)
  | .select statement, db =>
      match db statement.source with
      | none => (.error (), db)
      | some r =>
          if h : ∃ indexes, QueriedAt r.heading statement indexes then
            (.ok (.rows (queryAt r statement h.choose)), db)
          else (.error (), db)

/-- What a run over a source prints, its exit code and the database behind it. -/
structure DatabaseRun where
  stdout : Bytes
  exitCode : Nat
  database : Database

/-- A run over a source: its statements in order, up to the first that is refused. -/
noncomputable def Database.runSource (source : Bytes) (db : Database) : DatabaseRun :=
  let trace := runAll Database.execute (parseSqlScript source).script db
  { stdout := (trace.outputs.map Answer.result).flatMap printExecutionResult
    exitCode := if (parseSqlScript source).result = .ok () ∧ trace.fault.isNone then 0 else 1
    database := trace.state }

/-- Runs over some sources, one after the other, whether they fail or not. -/
noncomputable def Database.runSources : List Bytes → Database → List DatabaseRun
  | [], _ => []
  | source :: sources, db =>
      Database.runSource source db ::
        Database.runSources sources (Database.runSource source db).database

section Execute

variable {db : Database} {r : Relation Bytes Bytes}

theorem QueriedAt.unique {heading : List Bytes} {statement : SelectStatement}
    {indexes indexes' : List Nat} (h : QueriedAt heading statement indexes)
    (h' : QueriedAt heading statement indexes') : indexes = indexes' :=
  h.1.unique h'.1

theorem Database.execute_insert {statement : InsertStatement}
    (hr : db statement.target = some r) (h : Insertable r.heading statement) :
    db.execute (.insert statement) = (.ok .inserted, Function.update db statement.target
      (some (r.insert (intendedRow r.heading statement)
        (length_intendedRow r.heading statement)))) := by
  simp only [Database.execute, hr, if_pos h]

theorem Database.execute_insert_refused {statement : InsertStatement}
    (h : ∀ r, db statement.target = some r → ¬ Insertable r.heading statement) :
    db.execute (.insert statement) = (.error (), db) := by
  cases hr : db statement.target with
  | none => simp only [Database.execute, hr]
  | some r => simp only [Database.execute, hr, if_neg (h r hr)]

theorem Database.execute_select {statement : SelectStatement} {indexes : List Nat}
    (hr : db statement.source = some r) (h : QueriedAt r.heading statement indexes) :
    db.execute (.select statement) = (.ok (.rows (queryAt r statement indexes)), db) := by
  have hexists : ∃ indexes, QueriedAt r.heading statement indexes := ⟨indexes, h⟩
  simp only [Database.execute, hr, dif_pos hexists]
  rw [hexists.choose_spec.unique h]

theorem Database.execute_select_refused {statement : SelectStatement}
    (h : ∀ r, db statement.source = some r → ¬ ∃ indexes, QueriedAt r.heading statement indexes) :
    db.execute (.select statement) = (.error (), db) := by
  cases hr : db statement.source with
  | none => simp only [Database.execute, hr]
  | some r => simp only [Database.execute, hr, dif_neg (h r hr)]

/-- No statement changes a heading, and none makes or drops a table. -/
theorem Database.heading_execute (db : Database) (statement : Statement) (name : QualifiedName) :
    ((db.execute statement).2 name).map Relation.heading = (db name).map Relation.heading := by
  cases statement with
  | insert statement =>
      by_cases h : ∃ r, db statement.target = some r ∧ Insertable r.heading statement
      · obtain ⟨r, hr, hinsertable⟩ := h
        rw [execute_insert hr hinsertable]
        by_cases hname : name = statement.target
        · subst hname
          simp [hr, Relation.insert]
        · simp [hname]
      · rw [execute_insert_refused fun r hr hinsertable => h ⟨r, hr, hinsertable⟩]
  | select statement =>
      by_cases h : ∃ r, db statement.source = some r ∧
          ∃ indexes, QueriedAt r.heading statement indexes
      · obtain ⟨r, hr, indexes, hqueried⟩ := h
        rw [execute_select hr hqueried]
      · rw [execute_select_refused fun r hr hqueried => h ⟨r, hr, hqueried⟩]

end Execute

end MiniSql
