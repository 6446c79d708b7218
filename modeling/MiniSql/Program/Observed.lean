import MiniSql.Program.Reading
import MiniSql.Program.Text

set_option autoImplicit false

/-!
# What the answers tell about a store

Two stores that answer the query for a whole table alike, whatever the table, answer
everything alike: no sequence of runs over any texts tells them apart.  What the printed
table leaves open are the blanks at the end of a cell, which look like its padding.
-/

namespace MiniSql

open Foundation

/-! ## The database -/

/-- The same tables under every name that a script can write. -/
def Database.SameNamed (db db' : Database) : Prop :=
  ∀ name : QualifiedName, name.Spellable → db name = db' name

section Databases

variable {db db' : Database}

theorem Statement.Spellable.target {statement : Statement} (h : statement.Spellable) :
    statement.target.Spellable := by
  cases h with
  | insert htarget => exact htarget
  | select hsource => exact hsource

theorem Database.SameNamed.update (h : db.SameNamed db') (name : QualifiedName)
    (r : Option (Relation Bytes Bytes)) :
    Database.SameNamed (Function.update db name r) (Function.update db' name r) := by
  intro other hother
  by_cases hname : other = name
  · rw [hname, Function.update_self, Function.update_self]
  · rw [Function.update_of_ne hname, Function.update_of_ne hname, h other hother]

/-- A statement that can be written asks for no other table. -/
theorem Database.execute_sameNamed (h : db.SameNamed db') {statement : Statement}
    (hspellable : statement.Spellable) :
    (db.execute statement).1 = (db'.execute statement).1 ∧
      Database.SameNamed (db.execute statement).2 (db'.execute statement).2 := by
  have htarget := h statement.target hspellable.target
  cases statement with
  | insert statement =>
      have hsame : db statement.target = db' statement.target := htarget
      by_cases hinsert : ∃ r, db statement.target = some r ∧ Insertable r.heading statement
      · obtain ⟨r, hr, hinsertable⟩ := hinsert
        rw [execute_insert hr hinsertable, execute_insert (hsame ▸ hr) hinsertable]
        exact ⟨rfl, h.update _ _⟩
      · rw [execute_insert_refused fun r hr hinsertable => hinsert ⟨r, hr, hinsertable⟩,
          execute_insert_refused fun r hr hinsertable => hinsert ⟨r, hsame ▸ hr, hinsertable⟩]
        exact ⟨rfl, h⟩
  | select statement =>
      have hsame : db statement.source = db' statement.source := htarget
      by_cases hselect : ∃ r, db statement.source = some r ∧
          ∃ indexes, QueriedAt r.heading statement indexes
      · obtain ⟨r, hr, indexes, hqueried⟩ := hselect
        rw [execute_select hr hqueried, execute_select (hsame ▸ hr) hqueried]
        exact ⟨rfl, h⟩
      · rw [execute_select_refused fun r hr hqueried => hselect ⟨r, hr, hqueried⟩,
          execute_select_refused fun r hr hqueried => hselect ⟨r, hsame ▸ hr, hqueried⟩]
        exact ⟨rfl, h⟩

theorem Database.runSource_sameNamed (h : db.SameNamed db') (text : Bytes) :
    (Database.runSource (cString text) db).stdout =
        (Database.runSource (cString text) db').stdout ∧
      (Database.runSource (cString text) db).exitCode =
          (Database.runSource (cString text) db').exitCode ∧
        Database.SameNamed (Database.runSource (cString text) db).database
          (Database.runSource (cString text) db').database := by
  have hstep : ∀ statement ∈ (parseSqlScript (cString text)).script, ∀ db db',
      Database.SameNamed db db' →
        (Database.execute statement db).1 = (Database.execute statement db').1 ∧
          Database.SameNamed (Database.execute statement db).2
            (Database.execute statement db').2 :=
    fun statement hmem _ _ h =>
      Database.execute_sameNamed h (parseSqlScript_spellable text statement hmem)
  obtain ⟨houtputs, hfault, hstate⟩ := runAll_congr hstep h
  simp only [Database.runSource, houtputs, hfault]
  exact ⟨trivial, trivial, hstate⟩

/-- No sequence of texts asks for another table. -/
theorem Database.runSources_sameNamed (h : db.SameNamed db') (texts : List Bytes) :
    (Database.runSources (texts.map cString) db).map (fun run => (run.stdout, run.exitCode)) =
      (Database.runSources (texts.map cString) db').map
        fun run => (run.stdout, run.exitCode) := by
  induction texts generalizing db db' with
  | nil => rfl
  | cons text texts ih =>
      obtain ⟨hstdout, hexitCode, hdatabase⟩ := Database.runSource_sameNamed h text
      simp only [List.map_cons, Database.runSources, hstdout, hexitCode, ih hdatabase]

theorem RowsFit.sameNamed {text : Bytes}
    (hfits : RowsFit db (parseSqlScript (cString text)).script) (h : db.SameNamed db') :
    RowsFit db' (parseSqlScript (cString text)).script := by
  intro statement hmem r hr
  have hspellable := parseSqlScript_spellable text _ hmem
  exact hfits statement hmem r ((h _ hspellable.target).trans hr)

end Databases

/-! ## One table -/

/-- No cell of a relation ends in a blank, and no column name does. -/
structure NoBlankEnds (r : Relation Bytes Bytes) : Prop where
  heading : ∀ column ∈ r.heading, trimRight column = column
  rows : ∀ row ∈ r.rows, ∀ value ∈ row, trimRight value = value

/-- A relation as the printed table shows it. -/
def shownTable (r : Relation Bytes Bytes) : ExecutionResult :=
  (ExecutionResult.select (.ofRelation r)).trimmed

section Tables

variable {db db' : Database} {name : QualifiedName} {r r' : Relation Bytes Bytes}

theorem shownTable_eq (h : NoBlankEnds r) : shownTable r = .select ⟨r.heading, r.rows⟩ := by
  have hheading : r.heading.map trimRight = r.heading :=
    (List.map_congr_left h.heading).trans (List.map_id _)
  have hrows : r.rows.map (fun row => row.map trimRight) = r.rows :=
    (List.map_congr_left fun row hrow =>
      (List.map_congr_left (h.rows row hrow)).trans (List.map_id _)).trans (List.map_id _)
  simp only [shownTable, QueryResult.ofRelation, ExecutionResult.trimmed, hheading, hrows]

/-- A table is known from what is shown of it. -/
theorem shownTable_injective (h : NoBlankEnds r) (h' : NoBlankEnds r')
    (hshown : shownTable r = shownTable r') : r = r' := by
  rw [shownTable_eq h, shownTable_eq h', ExecutionResult.select.injEq,
    QueryResult.mk.injEq] at hshown
  obtain ⟨heading, rows, hrectangular⟩ := r
  obtain ⟨heading', rows', hrectangular'⟩ := r'
  obtain ⟨rfl, rfl⟩ : heading = heading' ∧ rows = rows' := hshown
  rfl

/-- A query for a table that is not there. -/
theorem Database.exitCode_selectText_absent (hname : name.Spellable) (hnone : db name = none) :
    (Database.runSource (selectText name) db).exitCode = 1 := by
  have hrefused := @Database.execute_select_refused db ⟨name, true, [], none⟩ fun r hr => by
    have habsent : db name = some r := hr
    simp [hnone] at habsent
  unfold Database.runSource
  simp [parseSqlScript_selectText hname, runAll_cons_error hrefused]

/-- The answer to the query for a whole table shows the table. -/
theorem Database.readResults_selectText (hname : name.Spellable) (hr : db name = some r) :
    readResults (Database.runSource (selectText name) db).stdout = some [shownTable r] := by
  have hread := @readResults_print [.select (.ofRelation r)] fun result hmem => by
    rw [List.mem_singleton.mp hmem]
    exact r.rectangular
  rw [Database.runSource_selectText hname hr]
  simpa [QueryResult.ofRelation, shownTable] using hread

/-- Tables are the same when the queries for them are answered alike. -/
theorem Database.sameNamed_of_selectText
    (hblanks : ∀ name r, name.Spellable → db name = some r → NoBlankEnds r)
    (hblanks' : ∀ name r, name.Spellable → db' name = some r → NoBlankEnds r)
    (h : ∀ name : QualifiedName, name.Spellable →
      (Database.runSource (selectText name) db).stdout =
          (Database.runSource (selectText name) db').stdout ∧
        (Database.runSource (selectText name) db).exitCode =
          (Database.runSource (selectText name) db').exitCode) :
    db.SameNamed db' := by
  intro name hname
  obtain ⟨hstdout, hexitCode⟩ := h name hname
  cases hr : db name with
  | none =>
      cases hr' : db' name with
      | none => rfl
      | some r' =>
          rw [Database.exitCode_selectText_absent hname hr,
            Database.runSource_selectText hname hr'] at hexitCode
          simp at hexitCode
  | some r =>
      cases hr' : db' name with
      | none =>
          rw [Database.exitCode_selectText_absent hname hr',
            Database.runSource_selectText hname hr] at hexitCode
          simp at hexitCode
      | some r' =>
          have hshown := Database.readResults_selectText hname hr
          rw [hstdout, Database.readResults_selectText hname hr'] at hshown
          have hsame : shownTable r' = shownTable r :=
            (List.cons.inj (Option.some.inj hshown)).1
          rw [shownTable_injective (hblanks' name r' hname hr') (hblanks name r hname hr) hsame]

end Tables

/-! ## Stores -/

/-- Where no cell ends in a blank, the queries for whole tables tell everything: two stores,
under whatever roots, that print and answer the same to each of them do so to any sequence
of runs over any texts. -/
theorem runSources_alike_iff {dbRoot dbRoot' : Bytes} {files files' : FileSystem}
    {db db' : Database} (h : Stores dbRoot files db) (h' : Stores dbRoot' files' db')
    (hblanks : ∀ name r, name.Spellable → db name = some r → NoBlankEnds r)
    (hblanks' : ∀ name r, name.Spellable → db' name = some r → NoBlankEnds r) :
    (∀ name : QualifiedName, name.Spellable →
        (runSource dbRoot (selectText name) files).stdout =
            (runSource dbRoot' (selectText name) files').stdout ∧
          (runSource dbRoot (selectText name) files).exitCode =
            (runSource dbRoot' (selectText name) files').exitCode) ↔
      ∀ texts : List Bytes,
        (∀ text ∈ texts, RowsFit db (parseSqlScript (cString text)).script) →
        (runSources dbRoot (texts.map cString) files).map
            (fun run => (run.stdout, run.exitCode)) =
          (runSources dbRoot' (texts.map cString) files').map
            fun run => (run.stdout, run.exitCode) := by
  constructor
  · intro hqueries texts hfits
    have hsame : db.SameNamed db' := by
      refine Database.sameNamed_of_selectText hblanks hblanks' fun name hname => ?_
      have hrun : RunRefines dbRoot _ _ :=
        (runSource_refines ⟨h, fun _ => rfl⟩ _ (rowsFit_selectText hname)).1
      have hrun' : RunRefines dbRoot' _ _ :=
        (runSource_refines ⟨h', fun _ => rfl⟩ _ (rowsFit_selectText hname)).1
      obtain ⟨hstdout, hexitCode⟩ := hqueries name hname
      exact ⟨hrun.stdout.symm.trans (hstdout.trans hrun'.stdout),
        hrun.exitCode.symm.trans (hexitCode.trans hrun'.exitCode)⟩
    have hfits' : ∀ text ∈ texts, RowsFit db' (parseSqlScript (cString text)).script :=
      fun text hmem => (hfits text hmem).sameNamed hsame
    rw [observed_of_refines (runSourcesUnder_refines ⟨h, fun _ => rfl⟩ hfits),
      observed_of_refines (runSourcesUnder_refines ⟨h', fun _ => rfl⟩ hfits'),
      Database.runSources_sameNamed hsame]
  · intro hruns name hname
    have hone := hruns [scriptText [.select ⟨name, true, [], none⟩]] fun text hmem => by
      rw [List.mem_singleton.mp hmem]
      exact rowsFit_selectText hname
    simpa [runSources, selectText] using hone

theorem noBlankEnds_oneColumn {name : QualifiedName} {r : Relation Bytes Bytes}
    (hr : schemaDatabase (ascii "db") oneColumn name = some r) : NoBlankEnds r := by
  unfold schemaDatabase at hr
  cases hload : loadTableDefinition (ascii "db") name oneColumn with
  | error e => simp [hload] at hr
  | ok table =>
      obtain rfl : table.emptyRelation = r := by simpa [hload] using hr
      obtain ⟨content, hfile, hcolumns⟩ := loadTableDefinition_columns hload
      obtain ⟨-, rfl⟩ : name.schemaPath (ascii "db") = ascii "db/t.schema" ∧
          ascii "c" = content := by simpa [oneColumn] using hfile
      have hheading : table.columns = [ascii "c"] := hcolumns.trans (by decide +kernel)
      refine ⟨?_, by simp [TableDefinition.emptyRelation]⟩
      intro column hcolumn
      rw [show table.emptyRelation.heading = [ascii "c"] from hheading,
        List.mem_singleton] at hcolumn
      rw [hcolumn]
      decide

theorem noBlankEnds_oneColumnDatabase {values : List Bytes}
    (hvalues : ∀ value ∈ values, trimRight value = value) {name : QualifiedName}
    {r : Relation Bytes Bytes} (hr : oneColumnDatabase values name = some r) :
    NoBlankEnds r := by
  by_cases hname : name = ⟨none, some (ascii "t")⟩
  · subst hname
    rw [oneColumnDatabase, Function.update_self, Option.some.injEq] at hr
    subst hr
    refine ⟨?_, ?_⟩
    · intro column hcolumn
      rw [List.mem_singleton.mp hcolumn]
      decide
    · intro row hrow value hvalue
      obtain ⟨other, hother, rfl⟩ := List.mem_map.mp hrow
      rw [List.mem_singleton.mp hvalue]
      exact hvalues other hother
  · rw [oneColumnDatabase, Function.update_of_ne hname] at hr
    exact noBlankEnds_oneColumn hr

/-- The line that INSERT writes for a row, and another line of the same row. -/
theorem runSources_alike_iff_edited :
    (∀ name : QualifiedName, name.Spellable →
        (runSource (ascii "db") (selectText name) (oneColumnHolding writtenLine)).stdout =
            (runSource (ascii "db") (selectText name) (oneColumnHolding editedLine)).stdout ∧
          (runSource (ascii "db") (selectText name) (oneColumnHolding writtenLine)).exitCode =
            (runSource (ascii "db") (selectText name) (oneColumnHolding editedLine)).exitCode) ↔
      ∀ texts : List Bytes,
        (∀ text ∈ texts, RowsFit (oneColumnDatabase [ascii "a\\b"])
          (parseSqlScript (cString text)).script) →
        (runSources (ascii "db") (texts.map cString) (oneColumnHolding writtenLine)).map
            (fun run => (run.stdout, run.exitCode)) =
          (runSources (ascii "db") (texts.map cString) (oneColumnHolding editedLine)).map
            fun run => (run.stdout, run.exitCode) := by
  have hvalues : ∀ value ∈ [ascii "a\\b"], trimRight value = value := by decide
  exact runSources_alike_iff writtenLine_stores editedLine_stores
    (fun _ _ _ => noBlankEnds_oneColumnDatabase hvalues)
    (fun _ _ _ => noBlankEnds_oneColumnDatabase hvalues)

end MiniSql
