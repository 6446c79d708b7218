import MiniSql.Program.Executor
import MiniSql.Storage.ReadBack

set_option autoImplicit false

/-!
# Sequences of calls on one table

A table is for keeping a relation: INSERT adds a row to it and SELECT * answers
it.  `Represents` says that the data file holds the lines of the relation's rows.
Every call keeps this (`Represents.call`), so what a SELECT * answers depends only
on whether the records are the lines.
-/

namespace MiniSql

open Foundation

/-! ## Calls on one table -/

/-- The files after a call of `append_insert_row` or `run_select_query`. -/
def call (dbRoot : Bytes) (files : FileSystem) : Statement → FileSystem
  | .insert statement => (appendInsertRow dbRoot statement 0 files).files
  | .select statement => (runSelectQuery dbRoot statement files).files

/-- The rows of the INSERTs that return true in a sequence of calls. -/
def returnedRows (dbRoot : Bytes) (columns : List Bytes) :
    List Statement → FileSystem → List (List Bytes)
  | [], _ => []
  | .insert statement :: calls, files =>
      (match (appendInsertRow dbRoot statement 0 files).result with
        | .ok () => [intendedRow columns statement]
        | .error _ => []) ++
        returnedRows dbRoot columns calls (call dbRoot files (.insert statement))
  | .select statement :: calls, files =>
      returnedRows dbRoot columns calls (call dbRoot files (.select statement))

/-- A call on one table, whose values are C strings. -/
def CallOn (name : QualifiedName) : Statement → Prop
  | .insert statement => statement.target = name ∧ ∀ value ∈ statement.values, NulFree value
  | .select statement => statement.source = name

instance (name : QualifiedName) : DecidablePred (CallOn name)
  | .insert _ => inferInstanceAs (Decidable (_ ∧ _))
  | .select _ => inferInstanceAs (Decidable (_ = _))

/-- What a call does to the relation of its table. -/
def relationAfter (r : Relation Bytes Bytes) : Statement → Relation Bytes Bytes
  | .insert statement =>
      if Insertable r.heading statement then
        r.insert (intendedRow r.heading statement) (length_intendedRow r.heading statement)
      else r
  | .select _ => r

@[simp] theorem heading_relationAfter (r : Relation Bytes Bytes) (statement : Statement) :
    (relationAfter r statement).heading = r.heading := by
  cases statement with
  | insert statement =>
      by_cases h : Insertable r.heading statement
      · simp [relationAfter, h, Relation.insert]
      · simp [relationAfter, h]
  | select statement => rfl

section Calls

variable {dbRoot : Bytes} {name : QualifiedName} {files : FileSystem}
  {table : TableDefinition} {r : Relation Bytes Bytes}

/-- The data file of a table holds the lines of a relation, whose values are C
strings. -/
structure Represents (dbRoot : Bytes) (name : QualifiedName) (table : TableDefinition)
    (r : Relation Bytes Bytes) (files : FileSystem) : Prop where
  load : loadTableDefinition dbRoot name files = .ok table
  heading : r.heading = table.columns
  nulFree : ∀ row ∈ r.rows, ∀ value ∈ row, NulFree value
  content : files.content table.dataPath = (r.rows.map serializeRow).flatten

/-- A relation with no row. -/
def TableDefinition.emptyRelation (table : TableDefinition) : Relation Bytes Bytes where
  heading := table.columns
  rows := []
  rectangular := by simp

theorem Represents.empty (hload : loadTableDefinition dbRoot name files = .ok table)
    (hempty : files.content table.dataPath = []) :
    Represents dbRoot name table table.emptyRelation files :=
  ⟨hload, rfl, by simp [TableDefinition.emptyRelation],
    by simp [TableDefinition.emptyRelation, hempty]⟩

/-- The executor makes the same calls. -/
theorem executeStatement_files (dbRoot : Bytes) (statement : Statement) (files : FileSystem) :
    (executeStatement dbRoot statement files).2 = call dbRoot files statement := by
  cases statement with
  | insert statement => rfl
  | select statement => rfl

/-- A call changes no schema file. -/
theorem loadTableDefinition_call (files : FileSystem) (statement : Statement) :
    loadTableDefinition dbRoot name (call dbRoot files statement) =
      loadTableDefinition dbRoot name files := by
  apply loadTableDefinition_congr
  rw [← executeStatement_files]
  exact executeStatement_schema statement name

/-- An INSERT on a table that is there: it returns true and adds its row, or it returns
false and adds none. -/
theorem appendInsertRow_of_load {statement : InsertStatement}
    (hload : loadTableDefinition dbRoot statement.target files = .ok table) :
    (Insertable table.columns statement ∧
        appendInsertRow dbRoot statement 0 files =
          ⟨.ok (), 1, appendTextFile table.dataPath
            (serializeRow (intendedRow table.columns statement)) files⟩) ∨
      (¬ Insertable table.columns statement ∧
        ∃ e, appendInsertRow dbRoot statement 0 files = ⟨.error e, 0, files⟩) := by
  rcases appendInsertRow_cases dbRoot statement 0 files with
    ⟨table', hload', hinsertable, hout⟩ | ⟨hnot, hout⟩
  · obtain rfl : table' = table := Except.ok.inj (hload'.symm.trans hload)
    exact .inl ⟨hinsertable, hout⟩
  · exact .inr ⟨hnot table hload, hout⟩

/-- One call does to the relation what it does to the file. -/
theorem Represents.call (h : Represents dbRoot name table r files) {statement : Statement}
    (hon : CallOn name statement) :
    Represents dbRoot name table (relationAfter r statement)
      (MiniSql.call dbRoot files statement) := by
  have hload : loadTableDefinition dbRoot name (MiniSql.call dbRoot files statement) =
      .ok table := by
    rw [loadTableDefinition_call, h.load]
  have hheading : (relationAfter r statement).heading = table.columns := by
    rw [heading_relationAfter, h.heading]
  cases statement with
  | insert statement =>
      have htarget : loadTableDefinition dbRoot statement.target files = .ok table := by
        rw [hon.1]
        exact h.load
      rcases appendInsertRow_of_load htarget with ⟨hinsertable, hout⟩ | ⟨hnot, e, hout⟩
      · have hrows : (relationAfter r (.insert statement)).rows =
            r.rows ++ [intendedRow table.columns statement] := by
          rw [← h.heading] at hinsertable ⊢
          simp [relationAfter, hinsertable, Relation.insert]
        refine ⟨hload, hheading, ?_, ?_⟩
        · rw [hrows]
          intro row hrow
          rcases List.mem_append.mp hrow with hrow | hrow
          · exact h.nulFree row hrow
          · rw [List.mem_singleton.mp hrow]
            exact intendedRow_nulFree hon.2
        · rw [MiniSql.call, hout, hrows]
          simp [h.content]
      · have hsame : relationAfter r (.insert statement) = r := by
          rw [← h.heading] at hnot
          simp [relationAfter, hnot]
        have hfiles : MiniSql.call dbRoot files (.insert statement) = files := by
          rw [MiniSql.call, hout]
        rw [hsame, hfiles]
        exact h
  | select statement =>
      refine ⟨hload, hheading, h.nulFree, Eq.trans ?_ h.content⟩
      rw [MiniSql.call]
      rcases runSelectQuery_cases dbRoot statement files with
        ⟨table', _, _, _, _, _, hout⟩ | ⟨_, e, hout⟩
      · rw [hout]
        exact content_ensureDataFile table.dataPath
      · rw [hout]

/-- A sequence of calls, by its steps. -/
theorem Represents.calls (h : Represents dbRoot name table r files) {calls : List Statement}
    (hcalls : ∀ statement ∈ calls, CallOn name statement) :
    Represents dbRoot name table (calls.foldl relationAfter r)
      (calls.foldl (MiniSql.call dbRoot) files) := by
  induction calls generalizing r files with
  | nil => exact h
  | cons statement calls ih =>
      obtain ⟨hon, hrest⟩ := List.forall_mem_cons.mp hcalls
      exact ih (h.call hon) hrest

/-- The relation holds the rows of the INSERTs that returned true. -/
theorem Represents.rows_eq_returned (h : Represents dbRoot name table r files)
    {calls : List Statement} (hcalls : ∀ statement ∈ calls, CallOn name statement) :
    (calls.foldl relationAfter r).rows =
      r.rows ++ returnedRows dbRoot table.columns calls files := by
  induction calls generalizing r files with
  | nil => simp [returnedRows]
  | cons statement calls ih =>
      obtain ⟨hon, hrest⟩ := List.forall_mem_cons.mp hcalls
      rw [List.foldl_cons, ih (h.call hon) hrest]
      cases statement with
      | insert statement =>
          have hload : loadTableDefinition dbRoot statement.target files = .ok table := by
            rw [hon.1]
            exact h.load
          rcases appendInsertRow_of_load hload with ⟨hinsertable, hout⟩ | ⟨hnot, e, hout⟩
          · rw [returnedRows, hout]
            rw [← h.heading] at hinsertable ⊢
            simp [relationAfter, hinsertable, Relation.insert]
          · rw [returnedRows, hout]
            rw [← h.heading] at hnot
            simp [relationAfter, hnot]
      | select statement => simp [relationAfter, returnedRows]

/-- SELECT * answers the relation exactly when the line of each row fits. -/
theorem Represents.star_iff {select : SelectStatement}
    (h : Represents dbRoot select.source table r files) (hstar : IsStar select) :
    ((runSelectQuery dbRoot select files).result = .ok () ∧
        (runSelectQuery dbRoot select files).query = ⟨table.columns, r.rows⟩) ↔
      ∀ row ∈ r.rows, (serializeRow row).length < lineCapacity := by
  have hwidth : ∀ row ∈ r.rows, row.length = table.columns.length := by
    rw [← h.heading]
    exact r.rectangular
  have hrows : ∀ row ∈ r.rows, row ≠ [] ∧ ∀ value ∈ row, NulFree value := by
    intro row hrow
    refine ⟨?_, h.nulFree row hrow⟩
    intro hnil
    have hzero := hwidth row hrow
    rw [hnil, List.length_nil] at hzero
    exact table.accepted.1 (List.length_eq_zero_iff.mp hzero.symm)
  rw [runSelectQuery_star_iff h.load hstar, h.content, records_of_rows_iff hrows]
  exact and_iff_left hwidth

end Calls

/-- The rows of a relation after some calls are its own and those of the INSERTs
it accepts. -/
theorem mem_rows_foldl_iff {r : Relation Bytes Bytes} {calls : List Statement}
    {row : List Bytes} :
    row ∈ (calls.foldl relationAfter r).rows ↔
      row ∈ r.rows ∨ ∃ statement, .insert statement ∈ calls ∧
        Insertable r.heading statement ∧ intendedRow r.heading statement = row := by
  induction calls generalizing r with
  | nil => simp
  | cons statement calls ih =>
      rw [List.foldl_cons, ih, heading_relationAfter]
      cases statement with
      | insert statement =>
          by_cases hinsertable : Insertable r.heading statement
          · simp [relationAfter, hinsertable, Relation.insert, or_assoc, eq_comm]
          · simp [relationAfter, hinsertable]
      | select statement => simp [relationAfter]

/-! ## Every SELECT * of a sequence of calls -/

/-- Every SELECT * succeeds and answers the rows of the INSERTs that have returned
true so far, in order. -/
def ReadsBack (dbRoot : Bytes) (table : TableDefinition) (calls : List Statement)
    (files : FileSystem) : Prop :=
  ∀ before select after, calls = before ++ .select select :: after → IsStar select →
    (runSelectQuery dbRoot select (before.foldl (call dbRoot) files)).result = .ok () ∧
      (runSelectQuery dbRoot select (before.foldl (call dbRoot) files)).query =
        ⟨table.columns, returnedRows dbRoot table.columns before files⟩

/-- Before every SELECT *, the line of every row that is accepted fits the buffer
of `fgets`, with its newline and the terminator. -/
def LinesFit (columns : List Bytes) (calls : List Statement) : Prop :=
  ∀ before select after, calls = before ++ .select select :: after → IsStar select →
    ∀ statement, .insert statement ∈ before → Insertable columns statement →
      (serializeRow (intendedRow columns statement)).length < lineCapacity

/-- From an empty data file on, what is written is read back exactly as long as no
line is longer than the buffer. -/
theorem calls_readsBack_iff {dbRoot : Bytes} {name : QualifiedName} {files : FileSystem}
    {table : TableDefinition} (hload : loadTableDefinition dbRoot name files = .ok table)
    (hempty : files.content table.dataPath = []) {calls : List Statement}
    (hcalls : ∀ statement ∈ calls, CallOn name statement) :
    ReadsBack dbRoot table calls files ↔ LinesFit table.columns calls := by
  unfold ReadsBack LinesFit
  refine forall_congr' fun before => forall_congr' fun select => forall_congr' fun after =>
    forall_congr' fun hsplit => forall_congr' fun hstar => ?_
  have hbefore : ∀ statement ∈ before, CallOn name statement := by
    intro statement hmem
    apply hcalls
    rw [hsplit]
    exact List.mem_append_left _ hmem
  have hsource : select.source = name := by
    have hon : CallOn name (.select select) := hcalls (.select select) (by simp [hsplit])
    exact hon
  have hstart := Represents.empty hload hempty
  have hnow := hstart.calls hbefore
  have hreturned : _ = returnedRows dbRoot table.columns before files :=
    hstart.rows_eq_returned hbefore
  rw [← hsource] at hnow
  rw [← hreturned, hnow.star_iff hstar]
  constructor
  · intro hfits statement hmem hinsertable
    exact hfits _ (mem_rows_foldl_iff.mpr (.inr ⟨statement, hmem, hinsertable, rfl⟩))
  · intro hfits row hrow
    rcases mem_rows_foldl_iff.mp hrow with hrow | ⟨statement, hmem, hinsertable, rfl⟩
    · simp [TableDefinition.emptyRelation] at hrow
    · exact hfits statement hmem hinsertable

/-- A value that holds a pipe is read back. -/
theorem calls_readsBack_pipe :
    let files : FileSystem :=
      fun path => if path = ascii "db/t.schema" then some (ascii "c") else none
    let name : QualifiedName := ⟨none, some (ascii "t")⟩
    let insert : InsertStatement := ⟨name, [ascii "c"], [ascii "a|b"]⟩
    ∃ table, loadTableDefinition (ascii "db") name files = .ok table ∧
      ReadsBack (ascii "db") table [.insert insert, .select ⟨name, true, [], none⟩] files := by
  intro files name insert
  obtain ⟨table, hload, hcolumns, hpath⟩ : ∃ table,
      loadTableDefinition (ascii "db") name files = .ok table ∧ _ :=
    loadTableDefinition_of_file (ascii "c") (by decide) (by decide) (by decide +kernel)
  refine ⟨table, hload, ?_⟩
  have hempty : files.content table.dataPath = [] := by
    rw [hpath]
    decide
  have hcalls : ∀ statement ∈ [Statement.insert insert, .select ⟨name, true, [], none⟩],
      CallOn name statement := by decide +kernel
  apply (calls_readsBack_iff hload hempty hcalls).mpr
  intro before select after hsplit _ statement hmem _
  have hstatement : statement = insert := by
    have hall : Statement.insert statement ∈
        [Statement.insert insert, .select ⟨name, true, [], none⟩] := by
      rw [hsplit]
      exact List.mem_append_left _ hmem
    simpa using hall
  rw [hstatement, hcolumns]
  decide +kernel

/-- A value of 4095 bytes is not read back: its line is two records, of which the
second is the newline. -/
theorem calls_readsBack_long_value :
    let files : FileSystem :=
      fun path => if path = ascii "db/t.schema" then some (ascii "c") else none
    let name : QualifiedName := ⟨none, some (ascii "t")⟩
    let insert : InsertStatement := ⟨name, [ascii "c"], [List.replicate 4095 0x61]⟩
    let calls : List Statement := [.insert insert, .select ⟨name, true, [], none⟩]
    ∃ table, loadTableDefinition (ascii "db") name files = .ok table ∧
      files.content table.dataPath = [] ∧ (∀ statement ∈ calls, CallOn name statement) ∧
      ¬ ReadsBack (ascii "db") table calls files := by
  intro files name insert calls
  obtain ⟨table, hload, hcolumns, hpath⟩ : ∃ table,
      loadTableDefinition (ascii "db") name files = .ok table ∧ _ :=
    loadTableDefinition_of_file (ascii "c") (by decide) (by decide) (by decide +kernel)
  have hempty : files.content table.dataPath = [] := by
    rw [hpath]
    decide
  have hcalls : ∀ statement ∈ calls, CallOn name statement := by decide +kernel
  refine ⟨table, hload, hempty, hcalls, ?_⟩
  intro hread
  have hstart := Represents.empty hload hempty
  have hbefore : ∀ statement ∈ [Statement.insert insert], CallOn name statement := by
    intro statement hmem
    exact hcalls statement (List.mem_append_left _ hmem)
  have hselect := hread [.insert insert] ⟨name, true, [], none⟩ [] rfl ⟨rfl, rfl⟩
  rw [← show _ = returnedRows _ _ _ _ from hstart.rows_eq_returned hbefore] at hselect
  have hfits := ((hstart.calls hbefore).star_iff ⟨rfl, rfl⟩).mp hselect
    (intendedRow table.columns insert) (mem_rows_foldl_iff.mpr (.inr ?_))
  · rw [hcolumns] at hfits
    exact absurd hfits (by decide +kernel)
  · refine ⟨insert, List.mem_singleton_self _, ?_, rfl⟩
    show Insertable table.columns insert
    rw [hcolumns]
    decide +kernel

end MiniSql
