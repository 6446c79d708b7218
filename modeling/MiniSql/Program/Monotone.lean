import MiniSql.Program.Queries
import MiniSql.Program.Refinement

set_option autoImplicit false

/-!
# What has been answered is answered again

A database only grows: no statement takes a row away or puts one in front of another.
Restriction and projection keep the order of rows, so a SELECT that is asked again after any
runs answers the rows it has answered, and the newer ones behind them.  A SELECT that has
been refused is refused again: no run mends a schema or a line.
-/

namespace MiniSql

open Foundation

/-! ## The database -/

/-- Each table of a database is there in the other, with its rows first. -/
def Database.GrowsInto (db db' : Database) : Prop :=
  ∀ name r, db name = some r → ∃ r', db' name = some r' ∧ r.GrowsInto r'

section Databases

variable {db db' db'' : Database}

theorem Database.GrowsInto.refl (db : Database) : db.GrowsInto db :=
  fun _ r hr => ⟨r, hr, .refl r⟩

theorem Database.GrowsInto.trans (h : db.GrowsInto db') (h' : db'.GrowsInto db'') :
    db.GrowsInto db'' := by
  intro name r hr
  obtain ⟨r', hr', hgrows⟩ := h name r hr
  obtain ⟨r'', hr'', hgrows'⟩ := h' name r' hr'
  exact ⟨r'', hr'', hgrows.trans hgrows'⟩

/-- A statement adds a row or changes nothing. -/
theorem Database.execute_growsInto (db : Database) (statement : Statement) :
    db.GrowsInto (db.execute statement).2 := by
  cases statement with
  | insert statement =>
      by_cases h : ∃ r, db statement.target = some r ∧ Insertable r.heading statement
      · obtain ⟨r, hr, hinsertable⟩ := h
        rw [execute_insert hr hinsertable]
        intro name r' hr'
        by_cases hname : name = statement.target
        · subst hname
          obtain rfl : r = r' := Option.some.inj (hr.symm.trans hr')
          exact ⟨_, Function.update_self .., Relation.growsInto_insert r _⟩
        · exact ⟨r', (Function.update_of_ne hname _ _).trans hr', .refl r'⟩
      · rw [execute_insert_refused fun r hr hinsertable => h ⟨r, hr, hinsertable⟩]
        exact .refl db
  | select statement =>
      by_cases h : ∃ r, db statement.source = some r ∧
          ∃ indexes, QueriedAt r.heading statement indexes
      · obtain ⟨r, hr, indexes, hqueried⟩ := h
        rw [execute_select hr hqueried]
        exact .refl db
      · rw [execute_select_refused fun r hr hqueried => h ⟨r, hr, hqueried⟩]
        exact .refl db

theorem Database.runSource_growsInto (source : Bytes) (db : Database) :
    db.GrowsInto (Database.runSource source db).database := by
  refine runAll_related Database.GrowsInto.refl (fun _ _ _ => Database.GrowsInto.trans)
    (P := fun _ => True) ?_ ?_ fun _ _ => trivial
  · intro statement _ db answer db' hstep _
    have hgrows := db.execute_growsInto statement
    rwa [hstep] at hgrows
  · intro statement _ db e db' hstep
    have hgrows := db.execute_growsInto statement
    rwa [hstep] at hgrows

end Databases

theorem queryAt_growsInto {r r' : Relation Bytes Bytes} (h : r.GrowsInto r')
    (statement : SelectStatement) (indexes : List Nat) :
    (queryAt r statement indexes).GrowsInto (queryAt r' statement indexes) := by
  unfold queryAt
  rw [h.heading]
  exact (h.restrict _).project indexes

/-! ## The program -/

/-- The files behind runs over some sources, whether they fail or not. -/
def afterRuns (dbRoot : Bytes) (sources : List Bytes) (files : FileSystem) : FileSystem :=
  sources.foldl (fun files source => (runSource dbRoot source files).files) files

section Program

variable {dbRoot : Bytes} {files : FileSystem} {db : Database}

theorem afterRuns_stores {start : Database} (h : StoresUnder dbRoot start files db)
    {texts : List Bytes}
    (hfits : ∀ text ∈ texts, RowsFit start (parseSqlScript (cString text)).script) :
    ∃ db', Stores dbRoot (afterRuns dbRoot (texts.map cString) files) db' ∧
      db.GrowsInto db' := by
  induction texts generalizing files db with
  | nil => exact ⟨db, h.1, .refl db⟩
  | cons text texts ih =>
      obtain ⟨htext, hrest⟩ := List.forall_mem_cons.mp hfits
      obtain ⟨hrefines, hheadings⟩ := runSource_refines h text htext
      obtain ⟨db', hstores, hgrows⟩ := ih ⟨hrefines.stores, hheadings⟩ hrest
      exact ⟨db', hstores, (Database.runSource_growsInto _ db).trans hgrows⟩

/-- A SELECT that succeeds has been answered by the relation of its table. -/
theorem Stores.answered (h : Stores dbRoot files db) {statement : SelectStatement}
    {name : TableName} (hsource : statement.source = name.qualified) {query : QueryResult}
    (hanswer : (executeStatement dbRoot (.select statement) files).1 = .ok (.select query)) :
    ∃ r indexes, db name.qualified = some r ∧ QueriedAt r.heading statement indexes ∧
      query = .ofRelation (queryAt r statement indexes) := by
  cases hr : db name.qualified with
  | none =>
      obtain ⟨e, hload⟩ := h.absent name hr
      obtain ⟨e', hout⟩ := @runSelectQuery_of_not_selectable dbRoot statement files
        (by simp [hsource, hload])
      simp [executeStatement, hout, Except.map] at hanswer
  | some r =>
      obtain ⟨table, hstored⟩ := h.present name r hr
      rw [← hsource] at hstored
      obtain ⟨hanswers, hrefuses⟩ := hstored.query
      by_cases hqueried : ∃ indexes, QueriedAt r.heading statement indexes
      · obtain ⟨indexes, hindexes⟩ := hqueried
        refine ⟨r, indexes, rfl, hindexes, ?_⟩
        simp only [executeStatement, hanswers indexes hindexes, Except.map, Except.ok.injEq,
          ExecutionResult.select.injEq] at hanswer
        exact hanswer.symm
      · obtain ⟨e, hout⟩ := hrefuses hqueried
        simp [executeStatement, hout, Except.map] at hanswer

/-- From files that store a database, a SELECT that is answered once is answered after any
runs as well, whether they fail or not: the same columns, and the same rows first. -/
theorem select_answered_again (h : Stores dbRoot files db) {texts : List Bytes}
    (hfits : ∀ text ∈ texts, RowsFit db (parseSqlScript (cString text)).script)
    {statement : SelectStatement} {name : TableName} (hsource : statement.source = name.qualified)
    {query : QueryResult}
    (hanswer : (executeStatement dbRoot (.select statement) files).1 = .ok (.select query)) :
    ∃ query',
      (executeStatement dbRoot (.select statement)
          (afterRuns dbRoot (texts.map cString) files)).1 = .ok (.select query') ∧
        query'.columns = query.columns ∧ query.rows <+: query'.rows := by
  obtain ⟨r, indexes, hr, hqueried, rfl⟩ := h.answered hsource hanswer
  obtain ⟨db', hstores, hgrows⟩ := afterRuns_stores ⟨h, fun _ => rfl⟩ hfits
  obtain ⟨r', hr', hrelation⟩ := hgrows name.qualified r hr
  obtain ⟨table, hstored⟩ := hstores.present name r' hr'
  rw [← hsource] at hstored
  have hanswers := hstored.query.1 indexes (by rwa [hrelation.heading])
  have hquery := queryAt_growsInto hrelation statement indexes
  refine ⟨.ofRelation (queryAt r' statement indexes), ?_, hquery.heading, hquery.rows⟩
  simp only [executeStatement, hanswers]
  rfl

end Program

/-- One row at first, and another behind the runs. -/
theorem select_answered_again_pipe :
    let select : SelectStatement := ⟨⟨none, some (ascii "t")⟩, false, [ascii "C"], none⟩
    ∃ query', (executeStatement (ascii "db") (.select select) (afterRuns (ascii "db")
        (pipeTexts.map cString) (oneColumnHolding editedLine))).1 = .ok (.select query') ∧
      query'.columns = [ascii "c"] ∧ [[ascii "a\\b"]] <+: query'.rows := by
  intro select
  let name : TableName := ⟨none, ascii "t", by decide +kernel, by decide +kernel⟩
  have hsource : select.source = name.qualified := rfl
  have hanswer : (executeStatement (ascii "db") (.select select)
      (oneColumnHolding editedLine)).1 = .ok (.select ⟨[ascii "c"], [[ascii "a\\b"]]⟩) := by
    decide +kernel
  exact select_answered_again editedLine_stores (pipeTexts_fit_oneColumnDatabase _) hsource
    hanswer

/-! ## Refusals -/

/-- The files behind runs of the program, whether they fail or not. -/
def afterMains (argvs : List (List Bytes)) (files : FileSystem) : FileSystem :=
  argvs.foldl (fun files argv => (main argv files).files) files

section Refusals

variable {dbRoot : Bytes} {files files' : FileSystem}

theorem executeStatement_growsTo (otherRoot : Bytes) (statement : Statement)
    (files : FileSystem) :
    GrowsTo dbRoot files (executeStatement otherRoot statement files).2 := by
  have heffect := executeStatement_effect otherRoot statement files
  generalize executeStatement otherRoot statement files = outcome at heffect
  cases heffect with
  | failed => exact .refl dbRoot files
  | inserted hload _ =>
      rw [(loadTableDefinition_paths hload).2]
      exact growsTo_appendTextFile _ _
  | selected hload =>
      rw [(loadTableDefinition_paths hload).2]
      exact growsTo_ensureDataFile _

theorem main_growsTo (argv : List Bytes) (files : FileSystem) :
    GrowsTo dbRoot files (main argv files).files := by
  rw [main_files]
  exact runAll_invariant _ (fun statement _ s hs =>
    hs.trans (executeStatement_growsTo _ statement s)) (.refl dbRoot files)

theorem afterMains_growsTo (argvs : List (List Bytes)) (files : FileSystem) :
    GrowsTo dbRoot files (afterMains argvs files) := by
  induction argvs generalizing files with
  | nil => exact .refl dbRoot files
  | cons argv argvs ih => exact (main_growsTo argv files).trans (ih _)

/-- A SELECT fails on its schema or on a record of its data file. -/
theorem executeStatement_select_error_iff {statement : SelectStatement} {e : SqlError} :
    (executeStatement dbRoot (.select statement) files).1 = .error e ↔
      prepareSelect dbRoot statement files = .error e ∨
        ∃ plan, prepareSelect dbRoot statement files = .ok plan ∧ e = .rowColumnCountMismatch ∧
          ∃ record ∈ readRecords (files.content (statement.source.dataPath dbRoot)),
            (splitPipeLine record).length ≠ plan.table.columns.length := by
  simp only [executeStatement, runSelectQuery_eq]
  cases hprepared : prepareSelect dbRoot statement files with
  | error e' => simp [Except.map]
  | ok plan =>
      have hpath := (loadTableDefinition_paths (prepareSelect_load hprepared)).2
      have hcontent : (ensureDataFile plan.table.dataPath files).content plan.table.dataPath =
          files.content (statement.source.dataPath dbRoot) :=
        hpath ▸ content_ensureDataFile plan.table.dataPath
      simp only [hcontent]
      have hrows := @selectRows_eq_error_iff plan.table.columns.length plan.indexes plan.test
        (readRecords (files.content (statement.source.dataPath dbRoot))) [] e
      cases hloop : selectRows plan.table.columns.length plan.indexes plan.test
          (readRecords (files.content (statement.source.dataPath dbRoot))) [] with
      | error e' => simpa [Except.map, hloop] using hrows
      | ok rows => simpa [Except.map, hloop] using hrows

/-- A SELECT that is refused is refused for ever, with the same message: no runs, over
whatever roots and texts, mend what it fails on, if only its data file ends with a line. -/
theorem select_refused_again {statement : SelectStatement} {e : SqlError}
    (hlines : residue recordFull (files.content (statement.source.dataPath dbRoot)) = [])
    (hrefused : (executeStatement dbRoot (.select statement) files).1 = .error e)
    (argvs : List (List Bytes)) :
    (executeStatement dbRoot (.select statement) (afterMains argvs files)).1 = .error e := by
  have hgrows : GrowsTo dbRoot files (afterMains argvs files) := afterMains_growsTo argvs files
  rw [executeStatement_select_error_iff] at hrefused ⊢
  rw [prepareSelect_congr (hgrows.schema _)]
  refine hrefused.imp_right ?_
  rintro ⟨plan, hprepared, he, record, hmem, hwidth⟩
  refine ⟨plan, hprepared, he, record, ?_, hwidth⟩
  obtain ⟨more, hmore⟩ := hgrows.content (statement.source.dataPath dbRoot)
  rw [← hmore, readRecords_append hlines]
  exact List.mem_append_left _ hmem

end Refusals

/-- A line with a value too few, and a run that inserts behind it. -/
theorem select_refused_again_short :
    let files : FileSystem := fun path =>
      if path = ascii "db/t.schema" then some (ascii "a|b")
      else if path = ascii "db/t.data" then some (ascii "1" ++ [newline])
      else if path = ascii "i.sql" then some (ascii "INSERT INTO t (a, b) VALUES ('1', '2')")
      else none
    let select : SelectStatement := ⟨⟨none, some (ascii "t")⟩, false, [ascii "a"], none⟩
    (executeStatement (ascii "db") (.select select)
        (afterMains [[ascii "mini_sql", ascii "db", ascii "i.sql"]] files)).1 =
      .error .rowColumnCountMismatch := by
  intro files select
  exact select_refused_again (by decide +kernel) (by decide +kernel) _

end MiniSql
