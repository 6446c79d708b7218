import MiniSql.Program.Database
import MiniSql.Program.Invariant
import MiniSql.Program.Session

set_option autoImplicit false

/-!
# The program refines the database

The files under a root store a database: each schema file that is accepted is a heading,
and the records of its data file, as SELECT reads them, are the rows.  What bytes they are
does not matter, if only the file ends behind a record.
A run over any source prints what the database answers and leaves files that store the
database it leaves, as long as the line of every row the source inserts fits the buffer
of `fgets`.
-/

namespace MiniSql

open Foundation

/-! ## Stores -/

/-- The data file of a table reads as a relation: its records are the rows, and none is left
open, so that a line behind them is a record of its own. -/
structure Stored (dbRoot : Bytes) (name : QualifiedName) (table : TableDefinition)
    (r : Relation Bytes Bytes) (files : FileSystem) : Prop where
  load : loadTableDefinition dbRoot name files = .ok table
  heading : r.heading = table.columns
  closed : residue recordFull (files.content table.dataPath) = []
  records : (readRecords (files.content table.dataPath)).map splitPipeLine = r.rows

/-- The files store the database, as far as a script can name its tables. -/
structure Stores (dbRoot : Bytes) (files : FileSystem) (db : Database) : Prop where
  present : ∀ (name : TableName) (r : Relation Bytes Bytes), db name.qualified = some r →
    ∃ table, Stored dbRoot name.qualified table r files
  absent : ∀ name : TableName, db name.qualified = none →
    ∃ e, loadTableDefinition dbRoot name.qualified files = .error e

/-- The line of every row that a script can insert fits the buffer of `fgets`. -/
def RowsFit (db : Database) (script : List Statement) : Prop :=
  ∀ statement, .insert statement ∈ script → ∀ r, db statement.target = some r →
    Insertable r.heading statement →
      (serializeRow (intendedRow r.heading statement)).length < lineCapacity

section Step

variable {dbRoot : Bytes} {name : QualifiedName} {files files' : FileSystem} {db : Database}
  {table : TableDefinition} {r : Relation Bytes Bytes}

/-- Other files do not matter. -/
theorem Stored.congr (h : Stored dbRoot name table r files)
    (hschema : files' (name.schemaPath dbRoot) = files (name.schemaPath dbRoot))
    (hdata : files'.content (name.dataPath dbRoot) = files.content (name.dataPath dbRoot)) :
    Stored dbRoot name table r files' := by
  rw [← (loadTableDefinition_paths h.load).2] at hdata
  refine ⟨?_, h.heading, ?_, ?_⟩
  · rw [loadTableDefinition_congr hschema, h.load]
  · rw [hdata, h.closed]
  · rw [hdata, h.records]

/-- Lines that fit the buffer of `fgets` are stored. -/
theorem Represents.stored (h : Represents dbRoot name table r files)
    (hfits : ∀ row ∈ r.rows, (serializeRow row).length < lineCapacity) :
    Stored dbRoot name table r files := by
  refine ⟨h.load, h.heading, ?_, ?_⟩
  · rw [h.content]
    rcases List.eq_nil_or_concat r.rows with hnil | ⟨rows, row, hrows⟩
    · rw [hnil]
      rfl
    · obtain ⟨body, hbody⟩ : ∃ body, serializeRow row = body ++ [newline] := ⟨_, rfl⟩
      rw [hrows, List.concat_eq_append, List.map_append, List.flatten_append]
      simp only [List.map_cons, List.map_nil, List.flatten_cons, List.flatten_nil,
        List.append_nil, hbody, ← List.append_assoc]
      exact residue_chunkFull_concat _ (by simp)
  · rw [h.content]
    refine (records_of_rows_iff fun row hrow => ⟨fun hnil => ?_, h.nulFree row hrow⟩).mpr hfits
    have hwidth := r.rectangular row hrow
    rw [hnil, h.heading] at hwidth
    exact table.accepted.1 (List.length_eq_zero_iff.mp hwidth.symm)

theorem Stored.empty (hload : loadTableDefinition dbRoot name files = .ok table)
    (hempty : files.content table.dataPath = []) :
    Stored dbRoot name table table.emptyRelation files :=
  (Represents.empty hload hempty).stored (by simp [TableDefinition.emptyRelation])

/-- A query of a table answers the query of its relation, or is refused. -/
theorem Stored.query {statement : SelectStatement}
    (h : Stored dbRoot statement.source table r files) :
    (∀ indexes, QueriedAt r.heading statement indexes →
        runSelectQuery dbRoot statement files =
          ⟨.ok (), .ofRelation (queryAt r statement indexes),
            ensureDataFile table.dataPath files⟩) ∧
      ((¬ ∃ indexes, QueriedAt r.heading statement indexes) →
        ∃ e, runSelectQuery dbRoot statement files = ⟨.error e, .empty, files⟩) := by
  have hrecords := h.records
  have hdecoded : ∀ record ∈ readRecords (files.content table.dataPath),
      (splitPipeLine record).length = table.columns.length := by
    intro record hmem
    rw [← h.heading]
    apply r.rectangular
    rw [← hrecords]
    exact List.mem_map_of_mem hmem
  rw [h.heading]
  constructor
  · intro indexes hqueried
    obtain ⟨test, hwhere, hout⟩ := runSelectQuery_of_selectable h.load
      (Selectable.mk hqueried.1 hqueried.2 hdecoded)
    rw [hout]
    have hrows : r.rows.filter (passesWhere test) =
        r.rows.filter fun values => decide (Keeps table.columns statement.where_ values) := by
      apply List.filter_congr
      intro values hvalues
      have hwidth := r.rectangular values hvalues
      rw [h.heading] at hwidth
      rw [Bool.eq_iff_iff, passesWhere_iff hwhere hwidth, decide_eq_true_iff]
    simp only [QueryResult.ofRelation, Relation.project, Relation.restrict, recordRelation,
      queryAt, hrecords, hrows, h.heading]
  · intro hnone
    apply runSelectQuery_of_not_selectable
    intro table' indexes hload hselectable
    obtain rfl : table = table' := Except.ok.inj (h.load.symm.trans hload)
    exact hnone ⟨indexes, hselectable.selected, hselectable.filtered⟩

/-- A statement that changes no content and no schema keeps what is stored. -/
theorem Stores.congr (h : Stores dbRoot files db)
    (hschema : ∀ name : TableName, files' (name.qualified.schemaPath dbRoot) =
      files (name.qualified.schemaPath dbRoot))
    (hcontent : ∀ path, files'.content path = files.content path) : Stores dbRoot files' db := by
  refine ⟨fun name r hr => ?_, fun name hnone => ?_⟩
  · obtain ⟨table, hstored⟩ := h.present name r hr
    exact ⟨table, hstored.congr (hschema name) (hcontent _)⟩
  · rw [loadTableDefinition_congr (hschema name)]
    exact h.absent name hnone

theorem TableName.qualified_injective {name other : TableName}
    (h : name.qualified = other.qualified) : name = other := by
  have hpath : name.qualified.dataPath [] = other.qualified.dataPath [] := by rw [h]
  exact TableName.dataPath_injective hpath

/-- A data file of other bytes, whose records are the rows of another relation. -/
theorem Stores.write (h : Stores dbRoot files db) {name : TableName}
    (hr : db name.qualified = some r) {r' : Relation Bytes Bytes}
    (hheading : r'.heading = r.heading)
    {data : Bytes} (hclosed : residue recordFull data = [])
    (hrecords : (readRecords data).map splitPipeLine = r'.rows) :
    Stores dbRoot (writeTextFile (name.qualified.dataPath dbRoot) data files)
      (Function.update db name.qualified (some r')) := by
  have hschema : ∀ other : TableName,
      writeTextFile (name.qualified.dataPath dbRoot) data files
          (other.qualified.schemaPath dbRoot) = files (other.qualified.schemaPath dbRoot) :=
    fun other => writeTextFile_of_ne (dataPath_ne_schemaPath other.qualified dbRoot).symm
  refine ⟨fun other s hs => ?_, fun other hnone => ?_⟩
  · by_cases hname : other = name
    · subst hname
      obtain ⟨table, hstored⟩ := h.present other r hr
      rw [Function.update_self] at hs
      obtain rfl := Option.some.inj hs
      have hdata : (writeTextFile (other.qualified.dataPath dbRoot) data files).content
          table.dataPath = data := by
        simp [FileSystem.content, (loadTableDefinition_paths hstored.load).2]
      refine ⟨table, ?_, hheading.trans hstored.heading, ?_, ?_⟩
      · rw [loadTableDefinition_congr (hschema other), hstored.load]
      · rw [hdata, hclosed]
      · rw [hdata, hrecords]
    · rw [Function.update_of_ne fun heq => hname (TableName.qualified_injective heq)] at hs
      obtain ⟨table, hstored⟩ := h.present other s hs
      have hother : other.qualified.dataPath dbRoot ≠ name.qualified.dataPath dbRoot :=
        fun heq => hname (TableName.dataPath_injective heq)
      refine ⟨table, hstored.congr (hschema other) ?_⟩
      simp [FileSystem.content, writeTextFile_of_ne hother]
  · have hne : other.qualified ≠ name.qualified := by
      intro heq
      rw [heq, Function.update_self] at hnone
      simp at hnone
    rw [Function.update_of_ne hne] at hnone
    rw [loadTableDefinition_congr (hschema other)]
    exact h.absent other hnone

/-- One row more in one table, and its line behind whatever the data file holds. -/
theorem Stores.appendRow (h : Stores dbRoot files db) {name : TableName}
    (hr : db name.qualified = some r) {row : List Bytes}
    (hwidth : row.length = r.heading.length) (hnul : ∀ value ∈ row, NulFree value)
    (hfits : (serializeRow row).length < lineCapacity) :
    Stores dbRoot (appendTextFile (name.qualified.dataPath dbRoot) (serializeRow row) files)
      (Function.update db name.qualified (some (r.insert row hwidth))) := by
  obtain ⟨table, hstored⟩ := h.present name r hr
  have hne : row ≠ [] := by
    intro hnil
    rw [hnil, hstored.heading] at hwidth
    exact table.accepted.1 (List.length_eq_zero_iff.mp hwidth.symm)
  have hline : (readRecords (serializeRow row)).map splitPipeLine = [row] := by
    have hone := (@records_of_rows_iff [row] (by simpa [hne] using hnul)).mpr (by simp [hfits])
    simpa using hone
  have hclosed := hstored.closed
  have hrecords := hstored.records
  rw [(loadTableDefinition_paths hstored.load).2] at hclosed hrecords
  have hheading : (r.insert row hwidth).heading = r.heading := rfl
  refine h.write hr hheading ?_ ?_
  · rw [residue_append_of_residue_nil _ hclosed]
    exact residue_chunkFull_concat _ (by simp)
  · rw [readRecords_append hclosed, List.map_append]
    exact congrArg₂ (· ++ ·) hrecords hline

/-- The row of an INSERT that is accepted. -/
theorem Stores.insert (h : Stores dbRoot files db) {name : TableName}
    {statement : InsertStatement} (htarget : statement.target = name.qualified)
    (hnul : ∀ value ∈ statement.values, NulFree value)
    (hr : db name.qualified = some r) (hinsertable : Insertable r.heading statement)
    (hfits : (serializeRow (intendedRow r.heading statement)).length < lineCapacity) :
    Stores dbRoot (call dbRoot files (.insert statement))
      (Function.update db name.qualified (some (r.insert (intendedRow r.heading statement)
        (length_intendedRow r.heading statement)))) := by
  obtain ⟨table, hstored⟩ := h.present name r hr
  have hmore := h.appendRow hr (length_intendedRow r.heading statement)
    (intendedRow_nulFree hnul) hfits
  rw [← htarget] at hstored
  rcases appendInsertRow_of_load hstored.load with ⟨-, hout⟩ | ⟨hnot, -⟩
  · rwa [call, hout, (loadTableDefinition_paths hstored.load).2, htarget, ← hstored.heading]
  · rw [← hstored.heading] at hnot
    exact absurd hinsertable hnot

/-- The answers correspond. -/
abbrev AnswerIs (result : ExecutionResult) (answer : Answer) : Prop := result = answer.result

/-- One statement: it answers as the database does, and the files store what the database
then is. -/
theorem executeStatement_mirrors (h : Stores dbRoot files db) {statement : Statement}
    (hwritten : statement.Written) (hfits : RowsFit db [statement]) :
    Mirrors (Stores dbRoot) AnswerIs (executeStatement dbRoot statement files)
      (db.execute statement) := by
  obtain ⟨name, hname⟩ := hwritten.target
  cases statement with
  | insert statement =>
      have htarget : statement.target = name.qualified := hname
      cases hr : db name.qualified with
      | none =>
          obtain ⟨e, hload⟩ := h.absent name hr
          obtain ⟨e', hout⟩ := @appendInsertRow_of_not_insertable dbRoot statement 0 files
            (by simp [htarget, hload])
          rw [Database.execute_insert_refused (by simp [htarget, hr])]
          simp only [executeStatement, hout]
          exact h
      | some r =>
          obtain ⟨table, hstored⟩ := h.present name r hr
          have hr' : db statement.target = some r := by rw [htarget, hr]
          rw [← htarget] at hstored
          rcases appendInsertRow_of_load hstored.load with ⟨hinsertable, hout⟩ | ⟨hnot, e, hout⟩
          · rw [← hstored.heading] at hinsertable
            have hmore := h.insert htarget (hwritten.values statement rfl) hr hinsertable
              (hfits statement (by simp) r hr' hinsertable)
            rw [Database.execute_insert hr' hinsertable, htarget]
            rw [call, hout] at hmore
            simp only [executeStatement, hout]
            exact ⟨rfl, hmore⟩
          · rw [← hstored.heading] at hnot
            rw [Database.execute_insert_refused (by simpa [hr'] using hnot)]
            simp only [executeStatement, hout]
            exact h
  | select statement =>
      have hsource : statement.source = name.qualified := hname
      cases hr : db name.qualified with
      | none =>
          obtain ⟨e, hload⟩ := h.absent name hr
          obtain ⟨e', hout⟩ := @runSelectQuery_of_not_selectable dbRoot statement files
            (by simp [hsource, hload])
          rw [Database.execute_select_refused (by simp [hsource, hr])]
          simp only [executeStatement, hout]
          exact h
      | some r =>
          obtain ⟨table, hstored⟩ := h.present name r hr
          have hr' : db statement.source = some r := by rw [hsource, hr]
          rw [← hsource] at hstored
          obtain ⟨hanswers, hrefuses⟩ := hstored.query
          by_cases hqueried : ∃ indexes, QueriedAt r.heading statement indexes
          · obtain ⟨indexes, hindexes⟩ := hqueried
            rw [Database.execute_select hr' hindexes]
            simp only [executeStatement, hanswers indexes hindexes]
            refine ⟨rfl, h.congr (fun other => ?_) fun path => content_ensureDataFile path⟩
            apply ensureDataFile_of_ne
            rw [(loadTableDefinition_paths hstored.load).2]
            exact (dataPath_ne_schemaPath _ _).symm
          · obtain ⟨e, hout⟩ := hrefuses hqueried
            rw [Database.execute_select_refused (by simpa [hr'] using hqueried)]
            simp only [executeStatement, hout]
            exact h

end Step

/-! ## Runs -/

/-- The database has the tables and the headings of another. -/
def SameHeadings (db db' : Database) : Prop :=
  ∀ name, (db name).map Relation.heading = (db' name).map Relation.heading

/-- What fits depends on the headings alone. -/
theorem RowsFit.congr {db db' : Database} {script : List Statement} (h : RowsFit db script)
    (hheadings : SameHeadings db' db) : RowsFit db' script := by
  intro statement hmem r hr hinsertable
  have hheading := hheadings statement.target
  rw [hr] at hheading
  cases hr' : db statement.target with
  | none => simp [hr'] at hheading
  | some r' =>
      obtain hsame : r.heading = r'.heading := by simpa [hr'] using hheading
      rw [hsame] at hinsertable ⊢
      exact h statement hmem r' hr' hinsertable

section Runs

variable {dbRoot : Bytes} {files : FileSystem} {db : Database}

/-- What the files store, with the headings the database started with. -/
def StoresUnder (dbRoot : Bytes) (start : Database) (files : FileSystem) (db : Database) : Prop :=
  Stores dbRoot files db ∧ SameHeadings db start

theorem executeStatement_mirrorsUnder {start : Database} (h : StoresUnder dbRoot start files db)
    {script : List Statement} (hwritten : ∀ statement ∈ script, statement.Written)
    (hfits : RowsFit start script) {statement : Statement} (hmem : statement ∈ script) :
    Mirrors (StoresUnder dbRoot start) AnswerIs (executeStatement dbRoot statement files)
      (db.execute statement) := by
  have hone : RowsFit db [statement] := by
    refine RowsFit.congr (fun insert hinsert => hfits insert ?_) h.2
    rw [List.mem_singleton.mp hinsert]
    exact hmem
  have hmirrors := executeStatement_mirrors h.1 (hwritten statement hmem) hone
  have hheadings : SameHeadings (db.execute statement).2 start := fun name =>
    (db.heading_execute statement name).trans (h.2 name)
  generalize executeStatement dbRoot statement files = outcome at *
  generalize db.execute statement = outcome' at *
  obtain ⟨_ | _, files'⟩ := outcome
  · obtain ⟨_ | _, db'⟩ := outcome'
    · exact ⟨hmirrors, hheadings⟩
    · exact hmirrors.elim
  · obtain ⟨_ | _, db'⟩ := outcome'
    · exact hmirrors.elim
    · exact ⟨hmirrors.1, hmirrors.2, hheadings⟩

/-- The statements of any text are made of words and C strings. -/
theorem parseSqlScript_cString_written (text : Bytes) :
    ∀ statement ∈ (parseSqlScript (cString text)).script, statement.Written := by
  by_cases hparse : (parseSqlScript (cString text)).result = .ok ()
  · exact parseSqlScript_written (cString_nulFree text) hparse
  · rw [parseSqlScript_failed hparse]
    simp

/-- A run over a source prints and answers what the database does. -/
structure RunRefines (dbRoot : Bytes) (result : RunResult) (run : DatabaseRun) : Prop where
  stdout : result.stdout = run.stdout
  exitCode : result.exitCode = run.exitCode
  stores : Stores dbRoot result.files run.database

theorem runSource_refines {start : Database} (h : StoresUnder dbRoot start files db)
    (text : Bytes) (hfits : RowsFit start (parseSqlScript (cString text)).script) :
    RunRefines dbRoot (runSource dbRoot (cString text) files)
        (Database.runSource (cString text) db) ∧
      SameHeadings (Database.runSource (cString text) db).database start := by
  have hwritten := parseSqlScript_cString_written text
  have hrun : MirrorsTrace (StoresUnder dbRoot start) AnswerIs
      (runScript dbRoot (parseSqlScript (cString text)).script files)
      (runAll Database.execute (parseSqlScript (cString text)).script db) := by
    refine runAll_mirrors ?_ h
    intro statement hmem files db h
    exact executeStatement_mirrorsUnder h hwritten hfits hmem
  refine ⟨?_, hrun.state.2⟩
  cases hparse : (parseSqlScript (cString text)).result with
  | error e =>
      have hempty := @parseSqlScript_failed (cString text) (by simp [hparse])
      rw [runSource_of_error dbRoot files hparse]
      refine ⟨?_, ?_, ?_⟩
      · simp [Database.runSource, hempty]
      · simp [Database.runSource, hparse]
      · simpa [Database.runSource, hempty] using h.1
  | ok =>
      obtain ⟨hfiles, hstdout, hexit⟩ := runSource_of_ok dbRoot files hparse
      refine ⟨?_, ?_, ?_⟩
      · rw [hstdout, Database.runSource]
        have houtputs : List.Forall₂ Eq
            (runScript dbRoot (parseSqlScript (cString text)).script files).outputs
            ((runAll Database.execute (parseSqlScript (cString text)).script db).outputs.map
              Answer.result) := List.forall₂_map_right_iff.mpr hrun.outputs
        rw [List.forall₂_eq_eq_eq] at houtputs
        rw [houtputs]
      · rw [hexit, Database.runSource, hrun.fault]
        cases (runAll Database.execute (parseSqlScript (cString text)).script db).fault with
        | none => simp [hparse]
        | some e => simp
      · rw [hfiles]
        exact hrun.state.1

/-- Runs of the program over some sources, one after the other, whether they fail or not. -/
def runSources (dbRoot : Bytes) : List Bytes → FileSystem → List RunResult
  | [], _ => []
  | source :: sources, files =>
      runSource dbRoot source files ::
        runSources dbRoot sources (runSource dbRoot source files).files

theorem runSourcesUnder_refines {start : Database} (h : StoresUnder dbRoot start files db)
    {texts : List Bytes}
    (hfits : ∀ text ∈ texts, RowsFit start (parseSqlScript (cString text)).script) :
    List.Forall₂ (RunRefines dbRoot) (runSources dbRoot (texts.map cString) files)
      (Database.runSources (texts.map cString) db) := by
  induction texts generalizing files db with
  | nil => exact .nil
  | cons text texts ih =>
      obtain ⟨htext, hrest⟩ := List.forall_mem_cons.mp hfits
      obtain ⟨hrefines, hheadings⟩ := runSource_refines h text htext
      exact .cons hrefines (ih ⟨hrefines.stores, hheadings⟩ hrest)

/-- From files that store a database, any sequence of runs over any texts prints and answers
what the database does, run by run, and each run leaves files that store the database then,
as long as the lines of the rows to insert fit the buffer of `fgets`. -/
theorem runSources_refines (h : Stores dbRoot files db) {texts : List Bytes}
    (hfits : ∀ text ∈ texts, RowsFit db (parseSqlScript (cString text)).script) :
    List.Forall₂ (RunRefines dbRoot) (runSources dbRoot (texts.map cString) files)
      (Database.runSources (texts.map cString) db) :=
  runSourcesUnder_refines ⟨h, fun _ => rfl⟩ hfits

end Runs

/-! ## Where a store begins -/

/-- The tables of the files under a root, without their rows. -/
def schemaDatabase (dbRoot : Bytes) (files : FileSystem) : Database := fun name =>
  match loadTableDefinition dbRoot name files with
  | .ok table => some table.emptyRelation
  | .error _ => none

/-- Files whose data files are missing or empty store tables without rows. -/
theorem Stores.schemaDatabase {dbRoot : Bytes} {files : FileSystem}
    (hempty : ∀ (name : TableName) table,
      loadTableDefinition dbRoot name.qualified files = .ok table →
        files.content table.dataPath = []) :
    Stores dbRoot files (schemaDatabase dbRoot files) := by
  refine ⟨fun name r hr => ?_, fun name hnone => ?_⟩
  · unfold MiniSql.schemaDatabase at hr
    cases hload : loadTableDefinition dbRoot name.qualified files with
    | error e => simp [hload] at hr
    | ok table =>
        obtain rfl : table.emptyRelation = r := by simpa [hload] using hr
        exact ⟨table, .empty hload (hempty name table hload)⟩
  · unfold MiniSql.schemaDatabase at hnone
    cases hload : loadTableDefinition dbRoot name.qualified files with
    | error e => exact ⟨e, rfl⟩
    | ok table => simp [hload] at hnone

section Small

/-- A root with one table of one column. -/
def oneColumn : FileSystem :=
  fun path => if path = ascii "db/t.schema" then some (ascii "c") else none

theorem oneColumn_stores :
    Stores (ascii "db") oneColumn (schemaDatabase (ascii "db") oneColumn) := by
  apply Stores.schemaDatabase
  intro name table hload
  have hschema : (⟨none, some (ascii "t")⟩ : QualifiedName).schemaPath (ascii "db") =
      ascii "db/t.schema" := by decide
  have hpath : table.dataPath ≠ ascii "db/t.schema" := by
    rw [(loadTableDefinition_paths hload).2, ← hschema]
    exact dataPath_ne_schemaPath _ _
  simp [FileSystem.content, oneColumn, hpath]

def pipeTexts : List Bytes :=
  [ascii "INSERT INTO t (c) VALUES ('a|b')", ascii "SELECT C FROM t"]

theorem pipeTexts_fit : ∀ text ∈ pipeTexts,
    RowsFit (schemaDatabase (ascii "db") oneColumn) (parseSqlScript (cString text)).script := by
  obtain ⟨table, hload, hcolumns, -⟩ : ∃ table, loadTableDefinition (ascii "db")
      ⟨none, some (ascii "t")⟩ oneColumn = .ok table ∧ _ :=
    loadTableDefinition_of_file (ascii "c") (by decide) (by decide) (by decide +kernel)
  have hinsert : (parseSqlScript (cString (ascii "INSERT INTO t (c) VALUES ('a|b')"))).script =
      [.insert ⟨⟨none, some (ascii "t")⟩, [ascii "c"], [ascii "a|b"]⟩] := by decide +kernel
  have hselect : (parseSqlScript (cString (ascii "SELECT C FROM t"))).script =
      [.select ⟨⟨none, some (ascii "t")⟩, false, [ascii "C"], none⟩] := by decide +kernel
  intro text htext statement hmem r hr _
  rcases List.mem_cons.mp htext with rfl | htext
  · rw [hinsert, List.mem_singleton, Statement.insert.injEq] at hmem
    subst hmem
    obtain rfl : table.emptyRelation = r := by simpa [schemaDatabase, hload] using hr
    have hheading : table.emptyRelation.heading = splitPipeLine (cString (ascii "c")) := hcolumns
    rw [hheading]
    decide +kernel
  · rw [List.mem_singleton.mp htext, hselect] at hmem
    simp at hmem

/-- A value that holds a pipe, and a query of it in another run. -/
theorem runSources_refines_pipe :
    List.Forall₂ (RunRefines (ascii "db"))
      (runSources (ascii "db") (pipeTexts.map cString) oneColumn)
      (Database.runSources (pipeTexts.map cString) (schemaDatabase (ascii "db") oneColumn)) :=
  runSources_refines oneColumn_stores pipeTexts_fit

end Small

/-- Runs that refine those of a database print and answer the same as they do. -/
theorem observed_of_refines {dbRoot : Bytes} {runs : List RunResult} {runs' : List DatabaseRun}
    (h : List.Forall₂ (RunRefines dbRoot) runs runs') :
    runs.map (fun run => (run.stdout, run.exitCode)) =
      runs'.map fun run => (run.stdout, run.exitCode) := by
  induction h with
  | nil => rfl
  | cons hrun _ ih => rw [List.map_cons, List.map_cons, ih, hrun.stdout, hrun.exitCode]

/-- Two file systems that store one database, under whatever roots, are not told apart by
any sequence of runs: every run prints the same and answers the same exit code. -/
theorem runSources_of_same_database {dbRoot dbRoot' : Bytes} {files files' : FileSystem}
    {db : Database} (h : Stores dbRoot files db) (h' : Stores dbRoot' files' db)
    {texts : List Bytes}
    (hfits : ∀ text ∈ texts, RowsFit db (parseSqlScript (cString text)).script) :
    (runSources dbRoot (texts.map cString) files).map (fun run => (run.stdout, run.exitCode)) =
      (runSources dbRoot' (texts.map cString) files').map
        (fun run => (run.stdout, run.exitCode)) := by
  rw [observed_of_refines (runSourcesUnder_refines ⟨h, fun _ => rfl⟩ hfits),
    observed_of_refines (runSourcesUnder_refines ⟨h', fun _ => rfl⟩ hfits)]

/-- The root with a data file of some bytes. -/
def oneColumnHolding (data : Bytes) : FileSystem := writeTextFile (ascii "db/t.data") data oneColumn

/-- The table with some rows of one value each. -/
def oneColumnDatabase (values : List Bytes) : Database :=
  Function.update (schemaDatabase (ascii "db") oneColumn) ⟨none, some (ascii "t")⟩
    (some ⟨[ascii "c"], values.map fun value => [value], by simp⟩)

theorem oneColumn_database :
    ∃ r, schemaDatabase (ascii "db") oneColumn ⟨none, some (ascii "t")⟩ = some r ∧
      r.heading = [ascii "c"] := by
  obtain ⟨table, hload, hcolumns, -⟩ : ∃ table, loadTableDefinition (ascii "db")
      ⟨none, some (ascii "t")⟩ oneColumn = .ok table ∧ _ :=
    loadTableDefinition_of_file (ascii "c") (by decide) (by decide) (by decide +kernel)
  have hheading : table.columns = [ascii "c"] := hcolumns.trans (by decide +kernel)
  exact ⟨table.emptyRelation, by simp [schemaDatabase, hload], hheading⟩

theorem oneColumnHolding_stores {data : Bytes} {values : List Bytes}
    (hclosed : residue recordFull data = [])
    (hrecords : (readRecords data).map splitPipeLine = values.map fun value => [value]) :
    Stores (ascii "db") (oneColumnHolding data) (oneColumnDatabase values) := by
  let name : TableName := ⟨none, ascii "t", by decide +kernel, by decide +kernel⟩
  obtain ⟨r, hr, hheading⟩ := oneColumn_database
  have hstored : schemaDatabase (ascii "db") oneColumn name.qualified = some r := hr
  exact oneColumn_stores.write hstored hheading.symm hclosed hrecords

theorem oneColumnDatabase_sameHeadings (values : List Bytes) :
    SameHeadings (oneColumnDatabase values) (schemaDatabase (ascii "db") oneColumn) := by
  intro name
  by_cases hname : name = ⟨none, some (ascii "t")⟩
  · obtain ⟨r, hr, hheading⟩ := oneColumn_database
    rw [hname, hr]
    simp [oneColumnDatabase, hheading]
  · simp [oneColumnDatabase, hname]

/-- The line that INSERT writes for a value with a backslash, and a line of the same value with
a single backslash and a carriage return. -/
def writtenLine : Bytes := ascii "a\\\\b" ++ [newline]

def editedLine : Bytes := ascii "a\\b" ++ [carriageReturn, newline]

theorem writtenLine_stores :
    Stores (ascii "db") (oneColumnHolding writtenLine) (oneColumnDatabase [ascii "a\\b"]) :=
  oneColumnHolding_stores (by decide +kernel) (by decide +kernel)

theorem editedLine_stores :
    Stores (ascii "db") (oneColumnHolding editedLine) (oneColumnDatabase [ascii "a\\b"]) :=
  oneColumnHolding_stores (by decide +kernel) (by decide +kernel)

theorem pipeTexts_fit_oneColumnDatabase (values : List Bytes) : ∀ text ∈ pipeTexts,
    RowsFit (oneColumnDatabase values) (parseSqlScript (cString text)).script :=
  fun text hmem => (pipeTexts_fit text hmem).congr (oneColumnDatabase_sameHeadings values)

theorem runSources_of_same_database_edited :
    (runSources (ascii "db") (pipeTexts.map cString) (oneColumnHolding writtenLine)).map
        (fun run => (run.stdout, run.exitCode)) =
      (runSources (ascii "db") (pipeTexts.map cString) (oneColumnHolding editedLine)).map
        (fun run => (run.stdout, run.exitCode)) :=
  runSources_of_same_database writtenLine_stores editedLine_stores
    (pipeTexts_fit_oneColumnDatabase _)

end MiniSql
