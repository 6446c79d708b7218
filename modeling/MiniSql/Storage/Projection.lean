import Mathlib.Data.List.Forall2
import MiniSql.Storage.Select

set_option autoImplicit false

/-!
# SELECT * and the list of all columns

The star takes the columns by position, a list looks each name up and takes the
first column it fits.  The two agree when every position holds what the first
column of its name holds (`runSelectQuery_star_named`), and a schema may name a
column twice.
-/

namespace MiniSql

open Foundation

/-- Each position of the row holds what stands at the first position its column's
name resolves to. -/
def HoldsFirst (columns row : List Bytes) : Prop :=
  ∀ (k i : Nat) (column : Bytes), columns[k]? = some column → Resolves columns column i →
    row[k]? = row[i]?

/-! ## Looking up the names of the schema itself -/

section Lookup

variable {columns : List Bytes}

@[simp] theorem sqlStricmp_self (s : Bytes) : sqlStricmp s s = 0 := by
  induction s with
  | nil => simp [sqlStricmp]
  | cons b s ih => simp [sqlStricmp, ih]

/-- A column of the schema resolves. -/
theorem exists_resolves {column : Bytes} (h : column ∈ columns) :
    ∃ i, Resolves columns column i := by
  have hfound : (findColumnIndex columns column).isSome = true := by
    unfold findColumnIndex
    rw [List.findIdx?_isSome, List.any_eq_true]
    exact ⟨column, h, by simp⟩
  obtain ⟨i, hi⟩ := Option.isSome_iff_exists.mp hfound
  exact ⟨i, findColumnIndex_eq_some_iff.mp hi⟩

theorem Resolves.lt {column : Bytes} {i : Nat} (h : Resolves columns column i) :
    i < columns.length := findColumnIndex_lt (findColumnIndex_eq_some_iff.mpr h)

theorem Resolves.unique {column : Bytes} {i j : Nat} (hi : Resolves columns column i)
    (hj : Resolves columns column j) : i = j := by
  rw [← findColumnIndex_eq_some_iff] at hi hj
  exact Option.some.inj (hi.symm.trans hj)

/-- Where all names differ, each resolves to its own position. -/
theorem Resolves.eq_of_distinct (h : columns.Pairwise fun a b => sqlStricmp a b ≠ 0)
    {k i : Nat} {column : Bytes} (hk : columns[k]? = some column)
    (hi : Resolves columns column i) : i = k := by
  obtain ⟨⟨found, hfound, hfits⟩, hfirst⟩ := hi
  obtain ⟨hklt, rfl⟩ := List.getElem?_eq_some_iff.mp hk
  obtain ⟨hilt, rfl⟩ := List.getElem?_eq_some_iff.mp hfound
  rcases Nat.lt_trichotomy i k with hlt | heq | hgt
  · exact absurd hfits (List.pairwise_iff_getElem.mp h i k hilt hklt hlt)
  · exact heq
  · exact absurd (sqlStricmp_self _) (hfirst k _ hgt hk)

/-- The positions the names of the schema resolve to, in order. -/
theorem exists_firsts (columns : List Bytes) :
    ∃ indexes, List.Forall₂ (Resolves columns) columns indexes := by
  suffices h : ∀ names : List Bytes, (∀ name ∈ names, name ∈ columns) →
      ∃ indexes, List.Forall₂ (Resolves columns) names indexes from
    h columns fun _ hname => hname
  intro names
  induction names with
  | nil => exact fun _ => ⟨[], .nil⟩
  | cons name names ih =>
      intro h
      obtain ⟨i, hi⟩ := exists_resolves (h name List.mem_cons_self)
      obtain ⟨indexes, hindexes⟩ := ih fun n hn => h n (List.mem_cons_of_mem _ hn)
      exact ⟨i :: indexes, .cons hi hindexes⟩

/-- Picking the first positions leaves a row as it is exactly when it holds there
what it holds anyway. -/
theorem pick_firsts_eq_self_iff {indexes : List Nat} {row : List Bytes}
    (h : List.Forall₂ (Resolves columns) columns indexes)
    (hlength : row.length = columns.length) :
    Relation.pick indexes row = row ↔ HoldsFirst columns row := by
  have hbound : ∀ i ∈ indexes, i < row.length := by
    intro i hi
    obtain ⟨k, hk⟩ := List.mem_iff_getElem?.mp hi
    obtain ⟨hlt, rfl⟩ := List.getElem?_eq_some_iff.mp hk
    rw [hlength]
    exact ((List.forall₂_iff_get.mp h).2 k (h.length_eq ▸ hlt) hlt).lt
  rw [Relation.pick_eq_self_iff (by rw [hlength, h.length_eq]) hbound]
  constructor
  · intro hentries k i column hk hi
    apply hentries
    obtain ⟨hlt, rfl⟩ := List.getElem?_eq_some_iff.mp hk
    have hfirst := (List.forall₂_iff_get.mp h).2 k hlt (h.length_eq ▸ hlt)
    rw [hi.unique hfirst]
    exact List.getElem?_eq_getElem _
  · intro hfirst k i hk
    obtain ⟨hlt, rfl⟩ := List.getElem?_eq_some_iff.mp hk
    have hlt' : k < columns.length := h.length_eq ▸ hlt
    exact hfirst k _ _ (List.getElem?_eq_getElem hlt')
      ((List.forall₂_iff_get.mp h).2 k hlt' hlt)

end Lookup

/-! ## The two forms of the statement -/

/-- `SELECT *` in the place of the columns of a statement. -/
def SelectStatement.star (statement : SelectStatement) : SelectStatement :=
  { statement with selectAll := true }

/-- A list of names in the place of the columns of a statement. -/
def SelectStatement.named (statement : SelectStatement) (names : List Bytes) :
    SelectStatement :=
  { statement with selectAll := false, columns := names }

/-- The loop makes the rows of a list out of those of the star. -/
theorem selectRows_pick (columnCount : Nat) (indexes : List Nat) (test : Option (Nat × Bytes))
    (records : List Bytes) (rows : List (List Bytes)) :
    selectRows columnCount indexes test records (rows.map (Relation.pick indexes)) =
      (selectRows columnCount (List.range columnCount) test records rows).map
        (List.map (Relation.pick indexes)) := by
  induction records generalizing rows with
  | nil => rfl
  | cons record records ih =>
      unfold selectRows
      by_cases hwidth : (splitPipeLine record).length = columnCount
      · simp only [ne_eq, hwidth, not_true_eq_false, if_false]
        split
        · exact ih rows
        · -- the star takes every value of the row
          have hall : ((List.range columnCount).map fun index =>
              (splitPipeLine record).getD index []) = splitPipeLine record :=
            Relation.pick_range hwidth
          rw [hall, ← ih, List.map_append, List.map_singleton]
          rfl
      · simp only [ne_eq, hwidth, not_false_eq_true, if_true]
        rfl

section Agreement

variable {dbRoot : Bytes} {statement : SelectStatement} {files : FileSystem}
  {table : TableDefinition}

/-- Both forms answer alike, the list with the entries its names resolve to. -/
theorem runSelectQuery_named_of_star {indexes : List Nat}
    (hload : loadTableDefinition dbRoot statement.source files = .ok table)
    (hindexes : List.Forall₂ (Resolves table.columns) table.columns indexes) :
    (∃ e files', runSelectQuery dbRoot statement.star files = ⟨.error e, .empty, files'⟩ ∧
        runSelectQuery dbRoot (statement.named table.columns) files =
          ⟨.error e, .empty, files'⟩) ∨
      ∃ rows files', (∀ row ∈ rows, row.length = table.columns.length) ∧
        runSelectQuery dbRoot statement.star files =
          ⟨.ok (), ⟨table.columns, rows⟩, files'⟩ ∧
        runSelectQuery dbRoot (statement.named table.columns) files =
          ⟨.ok (), ⟨Relation.pick indexes table.columns,
            rows.map (Relation.pick indexes)⟩, files'⟩ := by
  have hstar : prepareColumns table.columns statement.star =
      .ok (List.range table.columns.length, table.columns) := rfl
  have hnamed : prepareColumns table.columns (statement.named table.columns) =
      .ok (indexes, Relation.pick indexes table.columns) :=
    prepareColumns_eq_ok_iff.mpr ⟨hindexes, rfl⟩
  have hloadStar : loadTableDefinition dbRoot statement.star.source files = .ok table := hload
  have hloadNamed : loadTableDefinition dbRoot (statement.named table.columns).source files =
      .ok table := hload
  unfold runSelectQuery
  simp only [hloadStar, hloadNamed, hstar, hnamed]
  have hwhereStar : statement.star.where_ = statement.where_ := rfl
  have hwhereNamed : (statement.named table.columns).where_ = statement.where_ := rfl
  rw [hwhereStar, hwhereNamed]
  cases prepareWhere table.columns statement.where_ with
  | error e => exact .inl ⟨e, files, rfl, rfl⟩
  | ok test =>
      simp only
      have hrows := selectRows_pick table.columns.length indexes test
        (readRecords ((ensureDataFile table.dataPath files).content table.dataPath)) []
      rw [List.map_nil] at hrows
      rw [hrows]
      cases hselect : selectRows table.columns.length (List.range table.columns.length) test
          (readRecords ((ensureDataFile table.dataPath files).content table.dataPath)) [] with
      | error e => exact .inl ⟨e, _, rfl, rfl⟩
      | ok rows =>
          refine .inr ⟨rows, _, ?_, rfl, rfl⟩
          obtain ⟨-, rfl⟩ := selectRows_eq_ok_iff.mp hselect
          intro row hrow
          obtain ⟨row', -, rfl⟩ := List.mem_map.mp ((List.nil_append _).symm ▸ hrow)
          simp

/-- `SELECT *` and the list of all columns succeed alike, and answer alike exactly
when every position of the header and of the rows holds what the first column of
its name holds; this is so whenever no two names are equal up to letter case. -/
theorem runSelectQuery_star_named
    (hload : loadTableDefinition dbRoot statement.source files = .ok table) :
    let star := runSelectQuery dbRoot statement.star files
    let named := runSelectQuery dbRoot (statement.named table.columns) files
    (table.columns.Pairwise (fun a b => sqlStricmp a b ≠ 0) →
        named.result = star.result ∧ named.query = star.query) ∧
      named.result = star.result ∧
      (named.query = star.query ↔
        ∀ row ∈ star.query.columns :: star.query.rows, HoldsFirst table.columns row) := by
  intro star named
  obtain ⟨indexes, hindexes⟩ := exists_firsts table.columns
  have hagree : named.result = star.result ∧
      (named.query = star.query ↔
        ∀ row ∈ star.query.columns :: star.query.rows, HoldsFirst table.columns row) := by
    rcases runSelectQuery_named_of_star hload hindexes with
      ⟨e, files', hstar, hnamed⟩ | ⟨rows, files', hwidth, hstar, hnamed⟩
    · have hstar : star = _ := hstar
      have hnamed : named = _ := hnamed
      rw [hstar, hnamed]
      simp [QueryResult.empty, HoldsFirst]
    · have hstar : star = _ := hstar
      have hnamed : named = _ := hnamed
      rw [hstar, hnamed]
      refine ⟨rfl, ?_⟩
      rw [QueryResult.mk.injEq, List.forall_mem_cons, pick_firsts_eq_self_iff hindexes rfl]
      refine and_congr_right fun _ => ?_
      conv_lhs => rhs; rw [← List.map_id rows]
      rw [List.map_inj_left]
      refine forall₂_congr fun row hrow => ?_
      exact pick_firsts_eq_self_iff hindexes (hwidth row hrow)
  refine ⟨fun hdistinct => ⟨hagree.1, hagree.2.mpr ?_⟩, hagree⟩
  intro row _ k i column hk hi
  rw [hi.eq_of_distinct hdistinct hk]

end Agreement

/-- A schema with two columns of different names. -/
theorem runSelectQuery_star_named_distinct :
    let name : QualifiedName := ⟨none, some (ascii "t")⟩
    let files : FileSystem := fun path =>
      if path = ascii "db/t.schema" then some (ascii "a|b")
      else if path = ascii "db/t.data" then some (ascii "1|2\n") else none
    let statement : SelectStatement := ⟨name, true, [], none⟩
    (runSelectQuery (ascii "db") (statement.named [ascii "a", ascii "b"]) files).query =
      (runSelectQuery (ascii "db") statement.star files).query := by
  intro name files statement
  obtain ⟨table, hload, hcolumns, -⟩ : ∃ table,
      loadTableDefinition (ascii "db") name files = .ok table ∧ _ :=
    loadTableDefinition_of_file (ascii "a|b") (by decide) (by decide) (by decide +kernel)
  have hnames : table.columns = [ascii "a", ascii "b"] := by
    rw [hcolumns]
    decide +kernel
  rw [← hnames]
  obtain ⟨hdistinct, -⟩ := @runSelectQuery_star_named (ascii "db") statement files table hload
  refine (hdistinct ?_).2
  rw [hnames]
  decide +kernel

/-- A schema that names a column twice, in another letter case: the list answers
the first of the two for both. -/
theorem runSelectQuery_star_named_twice :
    let name : QualifiedName := ⟨none, some (ascii "t")⟩
    let files : FileSystem := fun path =>
      if path = ascii "db/t.schema" then some (ascii "a|A")
      else if path = ascii "db/t.data" then some (ascii "1|2\n") else none
    let statement : SelectStatement := ⟨name, true, [], none⟩
    (∃ table, loadTableDefinition (ascii "db") name files = .ok table ∧
      table.columns = [ascii "a", ascii "A"]) ∧
    (runSelectQuery (ascii "db") statement.star files).result = .ok () ∧
    (runSelectQuery (ascii "db") statement.star files).query =
      ⟨[ascii "a", ascii "A"], [[ascii "1", ascii "2"]]⟩ ∧
    (runSelectQuery (ascii "db") (statement.named [ascii "a", ascii "A"]) files).query =
      ⟨[ascii "a", ascii "a"], [[ascii "1", ascii "1"]]⟩ := by
  intro name files statement
  refine ⟨?_, by decide +kernel⟩
  obtain ⟨table, hload, hcolumns, -⟩ : ∃ table,
      loadTableDefinition (ascii "db") name files = .ok table ∧ _ :=
    loadTableDefinition_of_file (ascii "a|A") (by decide) (by decide) (by decide +kernel)
  refine ⟨table, hload, ?_⟩
  rw [hcolumns]
  decide +kernel

end MiniSql
