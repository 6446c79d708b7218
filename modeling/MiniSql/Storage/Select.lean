import MiniSql.Foundation.Relation
import MiniSql.Storage.Table

set_option autoImplicit false

/-!
# SELECT (`run_select_query`)

The query is prepared against the schema, then the data file is read record by
record.  `recordRelation` is the relation a data file holds, as far as its
records decode; a SELECT that succeeds restricts and projects it.
-/

namespace MiniSql

open Foundation

/-- `QueryResult`. -/
structure QueryResult where
  columns : List Bytes
  rows : List (List Bytes)
  deriving DecidableEq

/-- The result after `memset` or `free_query_result`. -/
def QueryResult.empty : QueryResult := ⟨[], []⟩

/-- What `run_select_query` answers, and `*result` and the files after it. -/
structure SelectOutcome where
  result : Except SqlError Unit
  query : QueryResult
  files : FileSystem

/-- The loop over the requested columns: their positions, and their names as the
schema spells them. -/
def selectColumns (columns : List Bytes) :
    List Bytes → List Nat → List Bytes → Except SqlError (List Nat × List Bytes)
  | [], indexes, projected => .ok (indexes, projected)
  | name :: names, indexes, projected =>
      match findColumnIndex columns name with
      | none => .error (.unknownSelectColumn name)
      | some index =>
          selectColumns columns names (indexes ++ [index])
            (projected ++ [columns.getD index []])

/-- The columns of the result: all of them, or the requested ones, of which the
parser always hands over at least one. -/
def prepareColumns (columns : List Bytes) (statement : SelectStatement) :
    Except SqlError (List Nat × List Bytes) :=
  if statement.selectAll then .ok (List.range columns.length, columns)
  else selectColumns columns statement.columns [] []

/-- `where_index` with the value it is compared to, -1 being `none`. -/
def prepareWhere (columns : List Bytes) :
    Option WhereClause → Except SqlError (Option (Nat × Bytes))
  | none => .ok none
  | some clause =>
      match findColumnIndex columns clause.column with
      | none => .error (.unknownWhereColumn clause.column)
      | some index => .ok (some (index, clause.value))

/-- The test of a row against `where_index`. -/
def passesWhere (where_ : Option (Nat × Bytes)) (values : List Bytes) : Bool :=
  match where_ with
  | none => true
  | some (index, value) => values.getD index [] == value

/-- The loop of `run_select_query` over the records. -/
def selectRows (columnCount : Nat) (indexes : List Nat) (where_ : Option (Nat × Bytes)) :
    List Bytes → List (List Bytes) → Except SqlError (List (List Bytes))
  | [], rows => .ok rows
  | record :: records, rows =>
      let values := splitPipeLine record
      if values.length ≠ columnCount then .error .rowColumnCountMismatch
      else if passesWhere where_ values = false then
        selectRows columnCount indexes where_ records rows
      else
        selectRows columnCount indexes where_ records
          (rows ++ [indexes.map fun index => values.getD index []])

/-- A missing data file is created empty before it is read. -/
def ensureDataFile (path : Bytes) (files : FileSystem) : FileSystem :=
  match files path with
  | none => writeTextFile path [] files
  | some _ => files

/-- `run_select_query`. -/
def runSelectQuery (dbRoot : Bytes) (statement : SelectStatement) (files : FileSystem) :
    SelectOutcome :=
  match loadTableDefinition dbRoot statement.source files with
  | .error e => ⟨.error e, .empty, files⟩
  | .ok table =>
      match prepareColumns table.columns statement with
      | .error e => ⟨.error e, .empty, files⟩
      | .ok (indexes, projected) =>
          match prepareWhere table.columns statement.where_ with
          | .error e => ⟨.error e, .empty, files⟩
          | .ok where_ =>
              let files' := ensureDataFile table.dataPath files
              match selectRows table.columns.length indexes where_
                  (readRecords (files'.content table.dataPath)) [] with
              | .error e => ⟨.error e, .empty, files'⟩
              | .ok rows => ⟨.ok (), ⟨projected, rows⟩, files'⟩

/-! ## Files -/

section Files

variable {path : Bytes} {files : FileSystem}

theorem ensureDataFile_of_ne {other : Bytes} (h : other ≠ path) :
    ensureDataFile path files other = files other := by
  unfold ensureDataFile
  cases files path with
  | none => exact writeTextFile_of_ne h
  | some content => rfl

theorem ensureDataFile_of_isSome (h : (files path).isSome = true) :
    ensureDataFile path files = files := by
  unfold ensureDataFile
  cases hfile : files path with
  | none => simp [hfile] at h
  | some content => rfl

/-- Every content is as it was. -/
@[simp] theorem content_ensureDataFile (other : Bytes) :
    (ensureDataFile path files).content other = files.content other := by
  unfold ensureDataFile
  cases hfile : files path with
  | none => exact content_writeTextFile_empty (by simp [FileSystem.content, hfile])
  | some content => rfl

end Files

/-! ## The preparation -/

section Preparation

variable {columns : List Bytes}

/-- The positions of the requested columns. -/
def SelectsAt (columns : List Bytes) (statement : SelectStatement) (indexes : List Nat) :
    Prop :=
  if statement.selectAll then indexes = List.range columns.length
  else List.Forall₂ (Resolves columns) statement.columns indexes

theorem selectColumns_eq_ok_iff {names : List Bytes} {indexes₀ indexes : List Nat}
    {projected₀ projected : List Bytes} :
    selectColumns columns names indexes₀ projected₀ = .ok (indexes, projected) ↔
      ∃ found, List.Forall₂ (Resolves columns) names found ∧
        indexes = indexes₀ ++ found ∧ projected = projected₀ ++ Relation.pick found columns := by
  induction names generalizing indexes₀ projected₀ with
  | nil =>
      constructor
      · intro h
        obtain ⟨hindexes, hprojected⟩ := Prod.mk.inj (Except.ok.inj h)
        exact ⟨[], .nil, by simp [hindexes], by simp [hprojected, Relation.pick]⟩
      · intro h
        obtain ⟨found, hfound, rfl, rfl⟩ := h
        cases hfound
        simp [selectColumns, Relation.pick]
  | cons name names ih =>
      unfold selectColumns
      cases hfind : findColumnIndex columns name with
      | none =>
          constructor
          · intro h
            simp at h
          · intro h
            obtain ⟨found, hfound, -⟩ := h
            cases hfound with
            | cons hi _ =>
                rw [← findColumnIndex_eq_some_iff, hfind] at hi
                simp at hi
      | some index =>
          simp only
          rw [ih]
          constructor
          · intro h
            obtain ⟨found, hfound, rfl, rfl⟩ := h
            refine ⟨index :: found, ?_, by simp, ?_⟩
            · exact .cons (findColumnIndex_eq_some_iff.mp hfind) hfound
            · rw [List.append_assoc]
              rfl
          · intro h
            obtain ⟨found, hfound, rfl, rfl⟩ := h
            cases hfound with
            | cons hi hrest =>
                rw [← findColumnIndex_eq_some_iff, hfind] at hi
                obtain rfl := Option.some.inj hi
                refine ⟨_, hrest, by simp, ?_⟩
                rw [List.append_assoc]
                rfl

theorem prepareColumns_eq_ok_iff {statement : SelectStatement} {indexes : List Nat}
    {projected : List Bytes} :
    prepareColumns columns statement = .ok (indexes, projected) ↔
      SelectsAt columns statement indexes ∧ projected = Relation.pick indexes columns := by
  unfold prepareColumns SelectsAt
  by_cases hall : statement.selectAll = true
  · simp only [hall, if_true]
    constructor
    · intro h
      obtain ⟨rfl, rfl⟩ := Prod.mk.inj (Except.ok.inj h)
      exact ⟨rfl, (Relation.pick_range rfl).symm⟩
    · intro h
      obtain ⟨rfl, rfl⟩ := h
      rw [Relation.pick_range rfl]
  · simp only [hall, Bool.false_eq_true, if_false]
    rw [selectColumns_eq_ok_iff]
    constructor
    · intro h
      obtain ⟨found, hfound, hindexes, hprojected⟩ := h
      rw [List.nil_append] at hindexes hprojected
      rw [hindexes]
      exact ⟨hfound, hprojected⟩
    · intro h
      exact ⟨indexes, h.1, by simp, by simp [h.2]⟩

/-- The condition of a WHERE clause on a row. -/
def Keeps (columns : List Bytes) (where_ : Option WhereClause) (values : List Bytes) : Prop :=
  ∀ clause, where_ = some clause → ∀ i, Resolves columns clause.column i →
    values[i]? = some clause.value

theorem prepareWhere_eq_ok_iff {where_ : Option WhereClause} {test : Option (Nat × Bytes)} :
    prepareWhere columns where_ = .ok test ↔
      (∀ clause, where_ = some clause → ∃ i, Resolves columns clause.column i) ∧
        test = where_.bind fun clause =>
          (findColumnIndex columns clause.column).map (·, clause.value) := by
  cases where_ with
  | none => simp [prepareWhere, eq_comm]
  | some clause =>
      unfold prepareWhere
      cases hfind : findColumnIndex columns clause.column with
      | none => simp [← findColumnIndex_eq_some_iff, hfind]
      | some index => simp [← findColumnIndex_eq_some_iff, hfind, eq_comm]

theorem passesWhere_iff {where_ : Option WhereClause} {test : Option (Nat × Bytes)}
    (h : prepareWhere columns where_ = .ok test) {values : List Bytes}
    (hlength : values.length = columns.length) :
    passesWhere test values = true ↔ Keeps columns where_ values := by
  obtain ⟨hfound, rfl⟩ := prepareWhere_eq_ok_iff.mp h
  cases where_ with
  | none => simp [passesWhere, Keeps]
  | some clause =>
      obtain ⟨i, hi⟩ := hfound clause rfl
      rw [← findColumnIndex_eq_some_iff] at hi
      have hlt : i < values.length := hlength ▸ findColumnIndex_lt hi
      simp [passesWhere, Keeps, ← findColumnIndex_eq_some_iff, hi, hlt]

end Preparation

/-! ## The records -/

/-- The loop reads every record, and fails on the first that is not as wide as
the schema, whether WHERE would drop it or not. -/
theorem selectRows_eq_ok_iff {columnCount : Nat} {indexes : List Nat}
    {test : Option (Nat × Bytes)} {records : List Bytes} {rows₀ rows : List (List Bytes)} :
    selectRows columnCount indexes test records rows₀ = .ok rows ↔
      (∀ record ∈ records, (splitPipeLine record).length = columnCount) ∧
        rows = rows₀ ++ ((records.map splitPipeLine).filter (passesWhere test)).map
          (Relation.pick indexes) := by
  induction records generalizing rows₀ with
  | nil => simp [selectRows, eq_comm]
  | cons record records ih =>
      unfold selectRows
      by_cases hwidth : (splitPipeLine record).length = columnCount
      · simp only [ne_eq, hwidth, not_true_eq_false, if_false, List.forall_mem_cons,
          true_and, List.map_cons]
        by_cases hpass : passesWhere test (splitPipeLine record) = true
        · simp only [hpass, Bool.true_eq_false, if_false]
          rw [ih, List.filter_cons_of_pos hpass, List.map_cons, List.append_assoc,
            List.singleton_append]
          rfl
        · simp only [hpass, if_true]
          rw [ih, List.filter_cons_of_neg hpass]
      · simp [hwidth]

/-- The loop fails exactly on a record that is not as wide as the schema. -/
theorem selectRows_eq_error_iff {columnCount : Nat} {indexes : List Nat}
    {test : Option (Nat × Bytes)} {records : List Bytes} {rows₀ : List (List Bytes)}
    {e : SqlError} :
    selectRows columnCount indexes test records rows₀ = .error e ↔
      e = .rowColumnCountMismatch ∧
        ∃ record ∈ records, (splitPipeLine record).length ≠ columnCount := by
  induction records generalizing rows₀ with
  | nil => simp [selectRows]
  | cons record records ih =>
      unfold selectRows
      by_cases hwidth : (splitPipeLine record).length = columnCount
      · simp only [ne_eq, hwidth, not_true_eq_false, if_false, List.exists_mem_cons_iff,
          false_or]
        by_cases hpass : passesWhere test (splitPipeLine record) = true
        · simp only [hpass, Bool.true_eq_false, if_false]
          exact ih
        · simp only [hpass, if_true]
          exact ih
      · rw [if_pos hwidth, Except.error.injEq, eq_comm]
        exact (and_iff_left ⟨record, List.mem_cons_self, hwidth⟩).symm

/-- The relation a data file holds. -/
def recordRelation (columns records : List Bytes)
    (h : ∀ record ∈ records, (splitPipeLine record).length = columns.length) :
    Relation Bytes Bytes where
  heading := columns
  rows := records.map splitPipeLine
  rectangular := by
    intro row hrow
    obtain ⟨record, hrecord, rfl⟩ := List.mem_map.mp hrow
    exact h record hrecord

/-- A relation as a query result. -/
def QueryResult.ofRelation (r : Relation Bytes Bytes) : QueryResult := ⟨r.heading, r.rows⟩

/-! ## What SELECT does -/

section Outcome

variable {dbRoot : Bytes} {statement : SelectStatement} {files : FileSystem}
  {table : TableDefinition}

/-- The names of the statement resolve and the records of the data file are as
wide as the schema. -/
structure Selectable (columns records : List Bytes) (statement : SelectStatement)
    (indexes : List Nat) : Prop where
  selected : SelectsAt columns statement indexes
  filtered : ∀ clause, statement.where_ = some clause →
    ∃ i, Resolves columns clause.column i
  decoded : ∀ record ∈ records, (splitPipeLine record).length = columns.length

/-- A SELECT that succeeds answers the restricted and projected relation. -/
theorem runSelectQuery_of_selectable {indexes : List Nat}
    (hload : loadTableDefinition dbRoot statement.source files = .ok table)
    (h : Selectable table.columns (readRecords (files.content table.dataPath)) statement
      indexes) :
    ∃ test, prepareWhere table.columns statement.where_ = .ok test ∧
      runSelectQuery dbRoot statement files =
        ⟨.ok (),
          .ofRelation (((recordRelation _ _ h.decoded).restrict (passesWhere test)).project
            indexes),
          ensureDataFile table.dataPath files⟩ := by
  have hcolumns := prepareColumns_eq_ok_iff.mpr ⟨h.selected, rfl⟩
  have hwhere := prepareWhere_eq_ok_iff.mpr ⟨h.filtered, rfl⟩
  refine ⟨_, hwhere, ?_⟩
  unfold runSelectQuery
  simp only [hload, hcolumns, hwhere, content_ensureDataFile]
  rw [selectRows_eq_ok_iff.mpr ⟨h.decoded, rfl⟩]
  rfl

/-- A SELECT that fails leaves an empty result and every file as it was: a data
file that had to be created has no record to fail on. -/
theorem runSelectQuery_of_not_selectable
    (h : ∀ table indexes, loadTableDefinition dbRoot statement.source files = .ok table →
      ¬ Selectable table.columns (readRecords (files.content table.dataPath)) statement
        indexes) :
    ∃ e, runSelectQuery dbRoot statement files = ⟨.error e, .empty, files⟩ := by
  unfold runSelectQuery
  cases hload : loadTableDefinition dbRoot statement.source files with
  | error e => exact ⟨e, rfl⟩
  | ok table =>
      simp only
      cases hcolumns : prepareColumns table.columns statement with
      | error e => exact ⟨e, rfl⟩
      | ok prepared =>
          obtain ⟨indexes, projected⟩ := prepared
          simp only
          cases hwhere : prepareWhere table.columns statement.where_ with
          | error e => exact ⟨e, rfl⟩
          | ok test =>
              simp only [content_ensureDataFile]
              have hundecoded : ¬ ∀ record ∈ readRecords (files.content table.dataPath),
                  (splitPipeLine record).length = table.columns.length := by
                intro hdecoded
                exact h table indexes hload ⟨(prepareColumns_eq_ok_iff.mp hcolumns).1,
                  (prepareWhere_eq_ok_iff.mp hwhere).1, hdecoded⟩
              have hfile : ensureDataFile table.dataPath files = files := by
                cases hpath : files table.dataPath with
                | none =>
                    refine absurd ?_ hundecoded
                    simp [FileSystem.content, hpath, readRecords]
                | some content => simp [ensureDataFile, hpath]
              cases hrows : selectRows table.columns.length indexes test
                  (readRecords (files.content table.dataPath)) [] with
              | error e =>
                  rw [hfile]
                  exact ⟨e, rfl⟩
              | ok rows => exact absurd (selectRows_eq_ok_iff.mp hrows).1 hundecoded

/-- SELECT in one sentence: it answers a query of the relation in the data file,
which it creates if there is none, or it does nothing. -/
theorem runSelectQuery_cases (dbRoot : Bytes) (statement : SelectStatement)
    (files : FileSystem) :
    (∃ (table : TableDefinition) (indexes : List Nat) (test : Option (Nat × Bytes))
        (h : Selectable table.columns (readRecords (files.content table.dataPath)) statement
          indexes),
        loadTableDefinition dbRoot statement.source files = .ok table ∧
        prepareWhere table.columns statement.where_ = .ok test ∧
        runSelectQuery dbRoot statement files =
          ⟨.ok (),
            .ofRelation (((recordRelation _ _ h.decoded).restrict (passesWhere test)).project
              indexes),
            ensureDataFile table.dataPath files⟩) ∨
      ((∀ table indexes, loadTableDefinition dbRoot statement.source files = .ok table →
          ¬ Selectable table.columns (readRecords (files.content table.dataPath)) statement
            indexes) ∧
        ∃ e, runSelectQuery dbRoot statement files = ⟨.error e, .empty, files⟩) := by
  by_cases h : ∃ table indexes, loadTableDefinition dbRoot statement.source files = .ok table ∧
      Selectable table.columns (readRecords (files.content table.dataPath)) statement indexes
  · obtain ⟨table, indexes, hload, hselectable⟩ := h
    obtain ⟨test, hwhere, hout⟩ := runSelectQuery_of_selectable hload hselectable
    exact .inl ⟨table, indexes, test, hselectable, hload, hwhere, hout⟩
  · have hnot : ∀ table indexes,
        loadTableDefinition dbRoot statement.source files = .ok table →
        ¬ Selectable table.columns (readRecords (files.content table.dataPath)) statement
          indexes :=
      fun table indexes hload hselectable => h ⟨table, indexes, hload, hselectable⟩
    exact .inr ⟨hnot, runSelectQuery_of_not_selectable hnot⟩

end Outcome

/-! ## Filter, then project -/

instance (columns : List Bytes) (where_ : Option WhereClause) (values : List Bytes) :
    Decidable (Keeps columns where_ values) :=
  decidable_of_iff (∀ clause ∈ where_, ∀ i ∈ findColumnIndex columns clause.column,
    values[i]? = some clause.value) (by simp [Keeps, ← findColumnIndex_eq_some_iff])

theorem SelectsAt.unique {columns : List Bytes} {statement : SelectStatement}
    {indexes indexes' : List Nat} (h : SelectsAt columns statement indexes)
    (h' : SelectsAt columns statement indexes') : indexes = indexes' := by
  have hleft := prepareColumns_eq_ok_iff.mpr ⟨h, rfl⟩
  rw [prepareColumns_eq_ok_iff.mpr ⟨h', rfl⟩] at hleft
  exact (Prod.mk.inj (Except.ok.inj hleft)).1.symm

/-- `run_select_query` succeeds exactly when the table loads, every name resolves
and every record of the data file has as many values as the schema.  The result
is then the filtered and projected records, in file order and as wide as its
heading; otherwise it is empty. -/
theorem runSelectQuery_exact (dbRoot : Bytes) (statement : SelectStatement)
    (files : FileSystem) :
    let outcome := runSelectQuery dbRoot statement files
    (outcome.result = .ok () ↔ ∃ table indexes,
      loadTableDefinition dbRoot statement.source files = .ok table ∧
        SelectsAt table.columns statement indexes ∧
        (∀ clause, statement.where_ = some clause →
          ∃ i, Resolves table.columns clause.column i) ∧
        ∀ record ∈ readRecords (files.content table.dataPath),
          (splitPipeLine record).length = table.columns.length) ∧
      (outcome.result = .ok () → ∀ table indexes,
        loadTableDefinition dbRoot statement.source files = .ok table →
        SelectsAt table.columns statement indexes →
          outcome.query.columns = indexes.map (fun i => table.columns.getD i []) ∧
          outcome.query.rows =
            (((readRecords (files.content table.dataPath)).map splitPipeLine).filter
              (fun values => decide (Keeps table.columns statement.where_ values))).map
              (fun values => indexes.map fun i => values.getD i []) ∧
          ∀ row ∈ outcome.query.rows, row.length = outcome.query.columns.length) ∧
      (outcome.result ≠ .ok () → outcome.query = .empty) := by
  intro outcome
  rcases runSelectQuery_cases dbRoot statement files with
    ⟨table, indexes, test, h, hload, hwhere, hout⟩ | ⟨hnot, e, hout⟩
  · have houtcome : outcome = _ := hout
    rw [houtcome]
    refine ⟨⟨fun _ => ?_, fun _ => rfl⟩, fun _ => ?_, fun hne => absurd rfl hne⟩
    · exact ⟨table, indexes, hload, h.selected, h.filtered, h.decoded⟩
    · intro table' indexes' hload' hselected'
      obtain rfl : table = table' := Except.ok.inj (hload.symm.trans hload')
      obtain rfl := h.selected.unique hselected'
      refine ⟨rfl, ?_, Relation.rectangular _⟩
      show List.map _ (List.filter _ _) = List.map _ (List.filter _ _)
      congr 1
      apply List.filter_congr
      intro values hvalues
      have hlength := (recordRelation _ _ h.decoded).rectangular values hvalues
      rw [Bool.eq_iff_iff, passesWhere_iff hwhere hlength, decide_eq_true_iff]
  · have houtcome : outcome = _ := hout
    rw [houtcome]
    refine ⟨⟨fun h => ?_, fun h => ?_⟩, fun h => ?_, fun _ => rfl⟩
    · simp at h
    · obtain ⟨table, indexes, hload, hselected, hfiltered, hdecoded⟩ := h
      exact absurd ⟨hselected, hfiltered, hdecoded⟩ (hnot table indexes hload)
    · simp at h

end MiniSql
