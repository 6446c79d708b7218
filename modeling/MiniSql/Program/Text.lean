import MiniSql.Parser.Layout
import MiniSql.Parser.Render
import MiniSql.Program.Refinement

set_option autoImplicit false

/-!
# Runs over texts

What a client that writes SQL can rely on.  How the text is laid out does not matter to
anything but the place a parse error names.  And what one text inserts a later one reads,
whatever bytes the values hold.
-/

namespace MiniSql

open Foundation

/-! ## The layout of a text -/

section Layout

variable {dbRoot source source' : Bytes} {files : FileSystem}

/-- Two runs that differ at most in the place a parse error names. -/
structure SameRun (run run' : RunResult) : Prop where
  exitCode : run'.exitCode = run.exitCode
  stdout : run'.stdout = run.stdout
  files : run'.files = run.files
  stderr : run'.stderr = run.stderr ∨ ∃ e e', SameMessage e e' ∧
    run.stderr = complain "parse error" e ∧ run'.stderr = complain "parse error" e'

/-- Sources of the same tokens, whatever white space and comments they have, do the same
and print the same, but for the line and the column of a parse error. -/
theorem runSource_sameTokens {T : List (TokenType × Bytes)} (h : Lexes source T)
    (h' : Lexes source' T) :
    SameRun (runSource dbRoot source files) (runSource dbRoot source' files) := by
  have hsame := parseSqlScript_sameParse h h'
  unfold runSource
  generalize parseSqlScript source = outcome at hsame
  generalize parseSqlScript source' = outcome' at hsame
  cases hsame with
  | ok script => exact ⟨rfl, rfl, rfl, .inl rfl⟩
  | @failed e e' hmessage => exact ⟨rfl, rfl, rfl, .inr ⟨e, e', hmessage, rfl, rfl⟩⟩

end Layout

/-- A comment and a line break move a parse error and nothing else. -/
theorem runSource_sameTokens_comment :
    SameRun (runSource (ascii "db") (ascii "select * t") fun _ => none)
      (runSource (ascii "db") (ascii "select/* all */*\n  t--") fun _ => none) := by
  have htokens : ∀ text : String, spelledTokens (ascii text) =
      some ([(.select, ascii "select"), (.star, [star]), (.identifier, ascii "t")] ++
        [(.end_, [])]) →
      Lexes (ascii text)
        [(.select, ascii "select"), (.star, [star]), (.identifier, ascii "t")] :=
    fun _ => spelledTokens_eq_some_iff.mp
  exact runSource_sameTokens (htokens _ (by decide +kernel)) (htokens _ (by decide +kernel))

/-! ## What is inserted is read -/

/-- The rows to insert: a C string for each column, in a line that fits the buffer of
`fgets`. -/
structure RowsOf (heading : List Bytes) (rows : List (List Bytes)) : Prop where
  width : ∀ row ∈ rows, row.length = heading.length
  nulFree : ∀ row ∈ rows, ∀ value ∈ row, NulFree value
  fits : ∀ row ∈ rows, (serializeRow row).length < lineCapacity

/-- A heading a text can name column by column: identifiers, and no two of them the same
up to letter case. -/
structure NamedHeading (heading : List Bytes) : Prop where
  ne_nil : heading ≠ []
  isIdent : ∀ column ∈ heading, IsIdent column
  distinct : (heading.map foldCase).Nodup

/-- An INSERT of a whole row. -/
def insertWhole (name : QualifiedName) (heading row : List Bytes) : InsertStatement :=
  ⟨name, heading, row⟩

/-- The text that inserts some rows, and the text that asks for all of them. -/
def insertText (name : QualifiedName) (heading : List Bytes) (rows : List (List Bytes)) : Bytes :=
  cString (scriptText (rows.map fun row => .insert (insertWhole name heading row)))

def selectText (name : QualifiedName) : Bytes :=
  cString (scriptText [.select ⟨name, true, [], none⟩])

section Statements

variable {heading row : List Bytes} {name : QualifiedName}

/-- Each column is found at its own position. -/
theorem NamedHeading.findColumnIndex (h : NamedHeading heading) :
    ∀ i column, heading[i]? = some column →
      MiniSql.findColumnIndex heading column = some i := by
  intro i column hcolumn
  have hnul : ∀ column ∈ heading, NulFree column :=
    fun column hmem => (h.isIdent column hmem).isWord.nulFree
  have hmem := List.mem_of_getElem? hcolumn
  rw [findColumnIndex_eq_some_iff]
  refine ⟨⟨column, hcolumn, (sqlStricmp_eq_zero_iff (hnul _ hmem) (hnul _ hmem)).mpr rfl⟩, ?_⟩
  intro j other hlt hother hcmp
  have hfold := (sqlStricmp_eq_zero_iff (hnul _ (List.mem_of_getElem? hother))
    (hnul _ hmem)).mp hcmp
  have hi : i < heading.length := (List.getElem?_eq_some_iff.mp hcolumn).1
  have hj : (heading.map foldCase)[j]? = (heading.map foldCase)[i]? := by
    rw [List.getElem?_map, List.getElem?_map, hcolumn, hother, Option.map_some, Option.map_some,
      hfold]
  have hbound : j < (heading.map foldCase).length := by
    rw [List.length_map]
    exact Nat.lt_trans hlt hi
  exact absurd ((List.getElem?_inj hbound h.distinct).mp hj) (Nat.ne_of_lt hlt)

theorem insertWhole_insertable (h : NamedHeading heading) (hwidth : row.length = heading.length) :
    Insertable heading (insertWhole name heading row) :=
  ⟨hwidth.symm, Placeable.zip h.findColumnIndex row⟩

theorem intendedRow_insertWhole (h : NamedHeading heading)
    (hwidth : row.length = heading.length) :
    intendedRow heading (insertWhole name heading row) = row :=
  overlay_zip h.findColumnIndex hwidth (by simp)

theorem insertWhole_spellable (hname : name.Spellable) (h : NamedHeading heading)
    (hwidth : row.length = heading.length) (hnul : ∀ value ∈ row, NulFree value) :
    (Statement.insert (insertWhole name heading row)).Spellable := by
  refine .insert hname ⟨h.ne_nil, h.isIdent⟩ ⟨fun hnil => ?_, hnul⟩
  rw [hnil] at hwidth
  exact h.ne_nil (List.length_eq_zero_iff.mp hwidth.symm)

theorem parseSqlScript_insertText {rows : List (List Bytes)} (hname : name.Spellable)
    (h : NamedHeading heading) (hrows : RowsOf heading rows) :
    parseSqlScript (insertText name heading rows) =
      ⟨.ok (), rows.map fun row => .insert (insertWhole name heading row)⟩ := by
  apply parseSqlScript_scriptText
  intro statement hmem
  obtain ⟨row, hrow, rfl⟩ := List.mem_map.mp hmem
  exact insertWhole_spellable hname h (hrows.width row hrow) (hrows.nulFree row hrow)

theorem parseSqlScript_selectText (hname : name.Spellable) :
    parseSqlScript (selectText name) = ⟨.ok (), [.select ⟨name, true, [], none⟩]⟩ := by
  apply parseSqlScript_scriptText
  intro statement hmem
  rw [List.mem_singleton.mp hmem]
  exact .select hname (by simp) (by simp) (by simp)

end Statements

/-! ### The database -/

section Database

variable {db : Database} {name : QualifiedName} {r : Relation Bytes Bytes}

/-- The database with some more rows in one table. -/
def Database.append (db : Database) (name : QualifiedName) (r : Relation Bytes Bytes)
    (rows : List (List Bytes)) (h : ∀ row ∈ rows, row.length = r.heading.length) : Database :=
  Function.update db name (some (r.append rows h))

theorem Relation.insert_congr {row row' : List Bytes} (h : row = row')
    (hwidth : row.length = r.heading.length) :
    r.insert row hwidth = r.insert row' (h ▸ hwidth) := by
  subst h
  rfl

theorem Database.runAll_insertWhole (hr : db name = some r) (hheading : NamedHeading r.heading)
    {rows : List (List Bytes)} (hrows : ∀ row ∈ rows, row.length = r.heading.length) :
    runAll Database.execute
        (rows.map fun row => .insert (insertWhole name r.heading row)) db =
      ⟨rows.map fun _ => .inserted, db.append name r rows hrows, none⟩ := by
  induction rows generalizing db r with
  | nil =>
      rw [Database.append, Relation.append_nil, ← hr, Function.update_eq_self]
      rfl
  | cons row rows ih =>
      obtain ⟨hrow, hrest⟩ := List.forall_mem_cons.mp hrows
      have hintended : intendedRow r.heading (insertWhole name r.heading row) = row :=
        intendedRow_insertWhole hheading hrow
      have hstep := Database.execute_insert hr (insertWhole_insertable hheading hrow)
      rw [Relation.insert_congr hintended] at hstep
      have hnext : Function.update db name (some (r.insert row hrow)) name =
          some (r.insert row hrow) := Function.update_self ..
      have hrest' := ih hnext hheading hrest
      rw [List.map_cons, runAll_cons_ok hstep]
      simp only [insertWhole, Relation.insert] at hrest' ⊢
      rw [hrest']
      simp only [Database.append, Function.update_idem, List.map_cons]
      rw [← Relation.append_cons r hrows]
      rfl

theorem Database.runSource_insertText (hname : name.Spellable) (hr : db name = some r)
    (hheading : NamedHeading r.heading) {rows : List (List Bytes)} (hrows : RowsOf r.heading rows) :
    Database.runSource (insertText name r.heading rows) db =
      { stdout := rows.flatMap fun _ => printExecutionResult (.insert 1)
        exitCode := 0
        database := db.append name r rows hrows.width } := by
  unfold Database.runSource
  simp only [parseSqlScript_insertText hname hheading hrows,
    Database.runAll_insertWhole hr hheading hrows.width]
  rw [List.map_map, List.flatMap_map]
  simp [Answer.result]

theorem Database.runSource_selectText (hname : name.Spellable) (hr : db name = some r) :
    Database.runSource (selectText name) db =
      { stdout := printExecutionResult (.select ⟨r.heading, r.rows⟩)
        exitCode := 0
        database := db } := by
  have hqueried : QueriedAt r.heading ⟨name, true, [], none⟩ (List.range r.heading.length) :=
    ⟨by simp [SelectsAt], by simp⟩
  have hsource : db (⟨name, true, [], none⟩ : SelectStatement).source = some r := hr
  have hstep := Database.execute_select hsource hqueried
  have hall : queryAt r ⟨name, true, [], none⟩ (List.range r.heading.length) =
      r.project (List.range r.heading.length) := by
    simp [queryAt, Relation.restrict, Keeps]
  obtain ⟨hcolumns, hrows⟩ := Relation.project_range r
  unfold Database.runSource
  simp only [parseSqlScript_selectText hname]
  rw [runAll_cons_ok hstep, hall]
  simp [Answer.result, QueryResult.ofRelation, hcolumns, hrows]

end Database

/-! ### The program -/

section Program

variable {dbRoot : Bytes} {files : FileSystem} {db : Database} {name : QualifiedName}
  {r : Relation Bytes Bytes}

theorem rowsFit_insertText (hname : name.Spellable) (hr : db name = some r)
    (hheading : NamedHeading r.heading) {rows : List (List Bytes)} (hrows : RowsOf r.heading rows) :
    RowsFit db (parseSqlScript (insertText name r.heading rows)).script := by
  rw [parseSqlScript_insertText hname hheading hrows]
  intro statement hmem r' hr' _
  obtain ⟨row, hrow, heq⟩ := List.mem_map.mp hmem
  obtain rfl := Statement.insert.inj heq
  obtain rfl : r = r' := Option.some.inj (hr.symm.trans hr')
  rw [intendedRow_insertWhole hheading (hrows.width row hrow)]
  exact hrows.fits row hrow

theorem rowsFit_selectText (hname : name.Spellable) :
    RowsFit db (parseSqlScript (selectText name)).script := by
  rw [parseSqlScript_selectText hname]
  intro statement hmem
  simp at hmem

/-- What one table reads after any number of runs that insert rows into it by their texts:
every run answers each of its INSERTs, and the query in the last run prints the rows that
were there and then all the inserted rows, in order and byte for byte as they were given. -/
theorem runSources_insertText_selectText (h : Stores dbRoot files db) (hname : name.Spellable)
    (hr : db name = some r) (hheading : NamedHeading r.heading)
    {batches : List (List (List Bytes))} (hbatches : ∀ rows ∈ batches, RowsOf r.heading rows) :
    (runSources dbRoot (batches.map (insertText name r.heading) ++ [selectText name]) files).map
        (fun run => (run.stdout, run.exitCode)) =
      batches.map (fun rows => (rows.flatMap fun _ => printExecutionResult (.insert 1), 0)) ++
        [(printExecutionResult (.select ⟨r.heading, r.rows ++ batches.flatten⟩), 0)] := by
  induction batches generalizing files db r with
  | nil =>
      have hrun : RunRefines dbRoot (runSource dbRoot (selectText name) files)
          (Database.runSource (selectText name) db) :=
        (runSource_refines ⟨h, fun _ => rfl⟩ _ (rowsFit_selectText hname)).1
      rw [Database.runSource_selectText hname hr] at hrun
      simp [runSources, hrun.stdout, hrun.exitCode]
  | cons rows batches ih =>
      obtain ⟨hrows, hrest⟩ := List.forall_mem_cons.mp hbatches
      have hrun : RunRefines dbRoot (runSource dbRoot (insertText name r.heading rows) files)
          (Database.runSource (insertText name r.heading rows) db) :=
        (runSource_refines ⟨h, fun _ => rfl⟩ _ (rowsFit_insertText hname hr hheading hrows)).1
      rw [Database.runSource_insertText hname hr hheading hrows] at hrun
      -- the runs that follow find the new rows behind the old ones
      have hnext : db.append name r rows hrows.width name = some (r.append rows hrows.width) :=
        Function.update_self ..
      have hlater := ih hrun.stores hnext hheading hrest
      simp only [Relation.append, List.append_assoc] at hlater
      rw [List.map_cons, List.cons_append, runSources, List.map_cons, hlater]
      simp [hrun.stdout, hrun.exitCode]

end Program

/-- A quote, a line break and a pipe, in two runs. -/
theorem runSources_insertText_selectText_quote :
    let name : QualifiedName := ⟨none, some (ascii "t")⟩
    let batches : List (List (List Bytes)) := [[[ascii "'); --"]], [[ascii "a|b\n"], [[]]]]
    (runSources (ascii "db")
        (batches.map (insertText name [ascii "c"]) ++ [selectText name]) oneColumn).map
        (fun run => (run.stdout, run.exitCode)) =
      batches.map (fun rows => (rows.flatMap fun _ => printExecutionResult (.insert 1), 0)) ++
        [(printExecutionResult (.select ⟨[ascii "c"], [] ++ batches.flatten⟩), 0)] := by
  intro name batches
  obtain ⟨table, hload, hcolumns, -⟩ : ∃ table, loadTableDefinition (ascii "db") name oneColumn =
      .ok table ∧ _ := loadTableDefinition_of_file (ascii "c") (by decide) (by decide)
    (by decide +kernel)
  have hheading : table.columns = [ascii "c"] := hcolumns.trans (by decide +kernel)
  let r : Relation Bytes Bytes := ⟨[ascii "c"], [], by simp⟩
  have hr : schemaDatabase (ascii "db") oneColumn name = some r := by
    simp only [schemaDatabase, hload, TableDefinition.emptyRelation, hheading]
    rfl
  refine runSources_insertText_selectText (r := r) oneColumn_stores
    (.table (isIdent_of_keywordType (by decide) (by decide))) hr
    ⟨by simp [r], ?_, by decide⟩ ?_
  · intro column hcolumn
    rw [List.mem_singleton.mp hcolumn]
    exact isIdent_of_keywordType (by decide) (by decide)
  · intro rows hrows
    exact ⟨by revert rows; decide, by revert rows; decide, by revert rows; decide +kernel⟩

end MiniSql
