import MiniSql.Parser.LetterCase
import MiniSql.Program.Main

set_option autoImplicit false

/-!
# Letter case in a run

Column names reach the files and the output only through `find_column_index`,
which sees them up to letter case; what is printed and written are the names and
values of the schema and of the statement's other parts.
-/

namespace MiniSql

open Foundation

/-! ## INSERT -/

/-- The loop places the same values for column names in another letter case. -/
theorem placeValues_same (columns : List Bytes) {pairs pairs' : List (Bytes × Bytes)}
    (h : List.Forall₂ (fun p q => SameName p.1 q.1 ∧ p.2 = q.2) pairs pairs')
    (ordered : List Bytes) (assigned : List Bool) :
    (placeValues columns pairs ordered assigned).toOption =
      (placeValues columns pairs' ordered assigned).toOption := by
  induction h generalizing ordered assigned with
  | nil => rfl
  | @cons p q pairs pairs' hpq _ ih =>
      obtain ⟨name, value⟩ := p
      obtain ⟨name', value'⟩ := q
      obtain ⟨hname, hvalue⟩ := hpq
      simp only at hname hvalue
      subst hvalue
      simp only [placeValues, findColumnIndex_congr hname]
      cases findColumnIndex columns name' with
      | none => rfl
      | some target =>
          simp only
          split
          · rfl
          · exact ih _ _

theorem zip_same {columns columns' : List Bytes} (h : List.Forall₂ SameName columns columns')
    (values : List Bytes) :
    List.Forall₂ (fun p q => SameName p.1 q.1 ∧ p.2 = q.2) (columns.zip values)
      (columns'.zip values) := by
  induction h generalizing values with
  | nil => simp
  | cons hname _ ih =>
      cases values with
      | nil => simp
      | cons value values => exact .cons ⟨hname, rfl⟩ (ih values)

theorem appendInsertRow_same (dbRoot : Bytes) (target : QualifiedName)
    {columns columns' : List Bytes} (values : List Bytes)
    (h : List.Forall₂ SameName columns columns') (affectedRows : Nat) (files : FileSystem) :
    let outcome := appendInsertRow dbRoot ⟨target, columns, values⟩ affectedRows files
    let outcome' := appendInsertRow dbRoot ⟨target, columns', values⟩ affectedRows files
    outcome.result.toOption = outcome'.result.toOption ∧
      outcome.affectedRows = outcome'.affectedRows ∧ outcome.files = outcome'.files := by
  unfold appendInsertRow
  simp only [h.length_eq]
  split
  · exact ⟨rfl, rfl, rfl⟩
  · cases loadTableDefinition dbRoot target files with
    | error e => exact ⟨rfl, rfl, rfl⟩
    | ok table =>
        simp only
        have hsame := placeValues_same table.columns (zip_same h values)
          (List.replicate table.columns.length []) (List.replicate table.columns.length false)
        rcases eq_or_faults_of_toOption_eq hsame with ⟨row, hrow, hrow'⟩ | ⟨e, e', he, he'⟩
        · rw [hrow, hrow']
          exact ⟨rfl, rfl, rfl⟩
        · rw [he, he']
          exact ⟨rfl, rfl, rfl⟩

/-! ## SELECT -/

theorem selectColumns_same {columns names names' : List Bytes}
    (h : List.Forall₂ SameName names names') (indexes : List Nat) (projected : List Bytes) :
    (selectColumns columns names indexes projected).toOption =
      (selectColumns columns names' indexes projected).toOption := by
  induction h generalizing indexes projected with
  | nil => rfl
  | @cons name name' names names' hname _ ih =>
      simp only [selectColumns, findColumnIndex_congr hname]
      cases findColumnIndex columns name' with
      | none => rfl
      | some index => exact ih _ _

theorem prepareWhere_same {columns : List Bytes} {where_ where_' : Option WhereClause}
    (h : Option.Rel (fun c c' => SameName c.column c'.column ∧ c.value = c'.value)
      where_ where_') :
    (prepareWhere columns where_).toOption = (prepareWhere columns where_').toOption := by
  cases h with
  | none => rfl
  | some hclause =>
      simp only [prepareWhere, findColumnIndex_congr hclause.1, hclause.2]
      split
      · rfl
      · rfl

theorem runSelectQuery_same (dbRoot : Bytes) (source : QualifiedName) (selectAll : Bool)
    {columns columns' : List Bytes} {where_ where_' : Option WhereClause}
    (hcolumns : List.Forall₂ SameName columns columns')
    (hwhere : Option.Rel (fun c c' => SameName c.column c'.column ∧ c.value = c'.value)
      where_ where_') (files : FileSystem) :
    let outcome := runSelectQuery dbRoot ⟨source, selectAll, columns, where_⟩ files
    let outcome' := runSelectQuery dbRoot ⟨source, selectAll, columns', where_'⟩ files
    outcome.result.toOption = outcome'.result.toOption ∧
      outcome.query = outcome'.query ∧ outcome.files = outcome'.files := by
  unfold runSelectQuery
  simp only
  cases loadTableDefinition dbRoot source files with
  | error e => exact ⟨rfl, rfl, rfl⟩
  | ok table =>
      simp only
      have hprepared :
          (prepareColumns table.columns ⟨source, selectAll, columns, where_⟩).toOption =
            (prepareColumns table.columns
              ⟨source, selectAll, columns', where_'⟩).toOption := by
        unfold prepareColumns
        cases selectAll with
        | true => rfl
        | false => exact selectColumns_same hcolumns [] []
      rcases eq_or_faults_of_toOption_eq hprepared with
        ⟨prepared, hok, hok'⟩ | ⟨e, e', he, he'⟩
      · rw [hok, hok']
        simp only
        rcases eq_or_faults_of_toOption_eq (prepareWhere_same hwhere) with
          ⟨test, htest, htest'⟩ | ⟨e, e', he, he'⟩
        · rw [htest, htest']
          exact ⟨rfl, rfl, rfl⟩
        · rw [he, he']
          exact ⟨rfl, rfl, rfl⟩
      · rw [he, he']
        exact ⟨rfl, rfl, rfl⟩

/-! ## Runs -/

/-- Statements that differ only in the letter case of column names do the same. -/
theorem executeStatement_same (dbRoot : Bytes) {statement statement' : Statement}
    (h : SameStatement statement statement') (files : FileSystem) :
    SameOutcome (executeStatement dbRoot statement files)
      (executeStatement dbRoot statement' files) := by
  cases h with
  | @insert target columns columns' values hcolumns =>
      obtain ⟨hresult, haffected, hfiles⟩ :=
        appendInsertRow_same dbRoot target values hcolumns 0 files
      refine ⟨hfiles, ?_⟩
      simp only [executeStatement, haffected]
      exact toOption_map_congr _ hresult
  | @select source selectAll columns columns' where_ where_' hcolumns hwhere =>
      obtain ⟨hresult, hquery, hfiles⟩ :=
        runSelectQuery_same dbRoot source selectAll hcolumns hwhere files
      refine ⟨hfiles, ?_⟩
      simp only [executeStatement, hquery]
      exact toOption_map_congr _ hresult

/-- When the tokens of an accepted source and of another source agree but for the
letter case of reserved words and of identifiers in column positions, the other is
accepted too, and a run over it completes as many statements, ends in the same
files and prints the same. -/
theorem runSource_letterCase (dbRoot source source' : Bytes) (files : FileSystem)
    (tokens tokens' : List Token) (htokens : tokenizeSql source = .ok tokens)
    (htokens' : tokenizeSql source' = .ok tokens')
    (hagree : CaseAgree .other tokens tokens')
    (hok : (parseSqlScript source).result = .ok ()) :
    (parseSqlScript source').result = .ok () ∧
      (parseSqlScript source').script.length = (parseSqlScript source).script.length ∧
      (runScript dbRoot (parseSqlScript source').script files).outputs.length =
        (runScript dbRoot (parseSqlScript source).script files).outputs.length ∧
      (runSource dbRoot source' files).exitCode = (runSource dbRoot source files).exitCode ∧
      (runSource dbRoot source' files).files = (runSource dbRoot source files).files ∧
      (runSource dbRoot source' files).stdout = (runSource dbRoot source files).stdout := by
  obtain ⟨hok', hsame⟩ := parseSqlScript_sameStatements htokens htokens' hagree hok
  have hstep : ∀ statement statement' files, SameStatement statement statement' →
      SameOutcome (executeStatement dbRoot statement files)
        (executeStatement dbRoot statement' files) :=
    fun _ _ files hpair => executeStatement_same dbRoot hpair files
  obtain ⟨houtputs, hstate, hfault⟩ := runAll_same hstep hsame files
  obtain ⟨hfiles, hstdout, hexit⟩ := runSource_of_ok dbRoot files hok
  obtain ⟨hfiles', hstdout', hexit'⟩ := runSource_of_ok dbRoot files hok'
  unfold runScript at *
  refine ⟨hok', hsame.length_eq.symm, by rw [houtputs], ?_, ?_, ?_⟩
  · rw [hexit, hexit', hfault]
  · rw [hfiles, hfiles', hstate]
  · rw [hstdout, hstdout', houtputs]

/-- A reserved word and a column name in another letter case. -/
theorem runSource_letterCase_select :
    let files : FileSystem :=
      fun path => if path = ascii "db/t.schema" then some (ascii "id") else none
    (runSource (ascii "db") (ascii "select ID from t") files).stdout =
      (runSource (ascii "db") (ascii "SELECT id from t") files).stdout := by
  intro files
  let tokens (select id : String) : List Token :=
    [⟨.select, ascii select, 1, 1⟩, ⟨.identifier, ascii id, 1, 8⟩,
      ⟨.from_, ascii "from", 1, 11⟩, ⟨.identifier, ascii "t", 1, 16⟩, ⟨.end_, [], 1, 17⟩]
  have hagree : CaseAgree .other (tokens "SELECT" "id") (tokens "select" "ID") := by
    apply Agree.cons
    · exact ⟨rfl, by decide⟩
    · apply Agree.cons
      · exact ⟨rfl, by decide⟩
      · apply Agree.cons
        · exact ⟨rfl, by decide⟩
        · apply Agree.cons
          · exact ⟨rfl, by decide⟩
          · apply Agree.cons
            · exact ⟨rfl, by decide⟩
            · exact .nil
  exact (runSource_letterCase (ascii "db") (ascii "SELECT id from t")
    (ascii "select ID from t") files (tokens "SELECT" "id") (tokens "select" "ID")
    (by decide +kernel) (by decide +kernel) hagree (by decide +kernel)).2.2.2.2.2

end MiniSql
