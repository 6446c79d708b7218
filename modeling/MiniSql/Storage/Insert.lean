import MiniSql.Foundation.Overlay
import MiniSql.Storage.Table

set_option autoImplicit false

/-!
# INSERT (`append_insert_row`)

The loop overwrites a row of empty strings in place and keeps a flag for each
column it has assigned.  Its outcome is a property of the set of pairs alone:
`Insertable` says when it succeeds and `intendedRow` which row it builds.
-/

namespace MiniSql

open Foundation

/-- What `append_insert_row` answers, and `*affected_rows` and the files after it. -/
structure InsertOutcome where
  result : Except SqlError Unit
  affectedRows : Nat
  files : FileSystem

/-- The loop of `append_insert_row` over the columns and their values. -/
def placeValues (columns : List Bytes) :
    List (Bytes × Bytes) → List Bytes → List Bool → Except SqlError (List Bytes)
  | [], ordered, _ => .ok ordered
  | (name, value) :: pairs, ordered, assigned =>
      match findColumnIndex columns name with
      | none => .error (.unknownInsertColumn name)
      | some target =>
          if assigned.getD target false then .error (.duplicateInsertColumn name)
          else placeValues columns pairs (ordered.set target value) (assigned.set target true)

/-- `append_insert_row`. -/
def appendInsertRow (dbRoot : Bytes) (statement : InsertStatement) (affectedRows : Nat)
    (files : FileSystem) : InsertOutcome :=
  if statement.columns.length ≠ statement.values.length then
    ⟨.error .insertCountMismatch, affectedRows, files⟩
  else
    match loadTableDefinition dbRoot statement.target files with
    | .error e => ⟨.error e, affectedRows, files⟩
    | .ok table =>
        match placeValues table.columns (statement.columns.zip statement.values)
            (List.replicate table.columns.length [])
            (List.replicate table.columns.length false) with
        | .error e => ⟨.error e, affectedRows, files⟩
        | .ok ordered =>
            ⟨.ok (), 1, appendTextFile table.dataPath (serializeRow ordered) files⟩

/-! ## The loop -/

/-- The flag of one more column. -/
theorem getD_set_true_eq_false_iff {assigned : List Bool} {target i : Nat}
    (h : target < assigned.length) :
    (assigned.set target true).getD i false = false ↔
      target ≠ i ∧ assigned.getD i false = false := by
  by_cases hi : target = i
  · subst hi
    simp [List.getD_eq_getElem?_getD, h]
  · simp [List.getD_eq_getElem?_getD, List.getElem?_set_ne hi, hi]

/-- The loop succeeds exactly when the columns that are left can be placed on
positions not assigned yet. -/
theorem placeValues_eq_ok_iff {columns row : List Bytes} {pairs : List (Bytes × Bytes)}
    {ordered : List Bytes} {assigned : List Bool}
    (hlength : assigned.length = columns.length) :
    placeValues columns pairs ordered assigned = .ok row ↔
      Placeable (findColumnIndex columns) pairs ∧
        (∀ p ∈ pairs, ∀ i, findColumnIndex columns p.1 = some i →
          assigned.getD i false = false) ∧
        overlay (findColumnIndex columns) ordered pairs = row := by
  induction pairs generalizing ordered assigned with
  | nil => simp [placeValues, Placeable]
  | cons p pairs ih =>
      obtain ⟨name, value⟩ := p
      unfold placeValues
      cases hfind : findColumnIndex columns name with
      | none => simp [Placeable, hfind]
      | some target =>
          have htarget : target < assigned.length := hlength ▸ findColumnIndex_lt hfind
          by_cases hassigned : assigned.getD target false = true
          · simp only [hassigned, if_true]
            constructor
            · intro h
              simp at h
            · intro h
              have hfree := h.2.1 (name, value) List.mem_cons_self target hfind
              rw [hassigned] at hfree
              simp at hfree
          · simp only [hassigned, Bool.false_eq_true, if_false]
            rw [ih (by simpa using hlength)]
            have hfree : assigned.getD target false = false := by simpa using hassigned
            simp only [getD_set_true_eq_false_iff htarget]
            constructor
            · intro h
              obtain ⟨⟨hfound, hdistinct⟩, hunassigned, hrow⟩ := h
              have hfresh : ∀ q ∈ pairs, findColumnIndex columns q.1 ≠ some target :=
                fun q hq hqt => (hunassigned q hq target hqt).1 rfl
              refine ⟨⟨?_, List.pairwise_cons.mpr ⟨?_, hdistinct⟩⟩, ?_, ?_⟩
              · exact List.forall_mem_cons.mpr ⟨by simp [hfind], hfound⟩
              · intro q hq
                simpa [hfind] using (hfresh q hq).symm
              · refine List.forall_mem_cons.mpr ⟨?_, fun q hq i hi => (hunassigned q hq i hi).2⟩
                intro i hi
                rw [hfind] at hi
                rw [← Option.some.inj hi]
                exact hfree
              · rw [← overlay_cons hfind hfresh]
                exact hrow
            · intro h
              obtain ⟨⟨hfound, hdistinct⟩, hunassigned, hrow⟩ := h
              obtain ⟨hp, hdistinct⟩ := List.pairwise_cons.mp hdistinct
              have hfresh : ∀ q ∈ pairs, findColumnIndex columns q.1 ≠ some target := by
                intro q hq hqt
                exact hp q hq (hfind.trans hqt.symm)
              refine ⟨⟨(List.forall_mem_cons.mp hfound).2, hdistinct⟩, ?_, ?_⟩
              · intro q hq i hi
                refine ⟨?_, hunassigned q (List.mem_cons_of_mem _ hq) i hi⟩
                intro hti
                exact hfresh q hq (hti ▸ hi)
              · rw [← hrow, ← overlay_cons hfind hfresh]

/-! ## What INSERT does -/

/-- The statement names as many columns as values, every column exists and none
is named twice. -/
def Insertable (columns : List Bytes) (statement : InsertStatement) : Prop :=
  statement.columns.length = statement.values.length ∧
    Placeable (findColumnIndex columns) (statement.columns.zip statement.values)

instance (columns : List Bytes) (statement : InsertStatement) :
    Decidable (Insertable columns statement) := inferInstanceAs (Decidable (_ ∧ _))

/-- The row with each value in its column and empty strings elsewhere. -/
def intendedRow (columns : List Bytes) (statement : InsertStatement) : List Bytes :=
  overlay (findColumnIndex columns) (List.replicate columns.length [])
    (statement.columns.zip statement.values)

section Outcome

variable {dbRoot : Bytes} {statement : InsertStatement} {affectedRows : Nat}
  {files : FileSystem} {table : TableDefinition}

@[simp] theorem length_intendedRow (columns : List Bytes) (statement : InsertStatement) :
    (intendedRow columns statement).length = columns.length := by
  simp [intendedRow]

/-- A row has at least one value. -/
theorem intendedRow_ne_nil (table : TableDefinition) (statement : InsertStatement) :
    intendedRow table.columns statement ≠ [] := by
  intro h
  have hlength := length_intendedRow table.columns statement
  rw [h] at hlength
  exact table.accepted.1 (List.length_eq_zero_iff.mp hlength.symm)

theorem placeValues_replicate {columns row : List Bytes} (statement : InsertStatement) :
    placeValues columns (statement.columns.zip statement.values)
        (List.replicate columns.length []) (List.replicate columns.length false) = .ok row ↔
      Placeable (findColumnIndex columns) (statement.columns.zip statement.values) ∧
        intendedRow columns statement = row := by
  have hfree : ∀ i, (List.replicate columns.length false).getD i false = false := by
    intro i
    rw [List.getD_eq_getElem?_getD, List.getElem?_replicate]
    split
    · rfl
    · rfl
  rw [placeValues_eq_ok_iff (by simp)]
  simp only [hfree, implies_true, true_and, intendedRow]

theorem appendInsertRow_of_insertable
    (hload : loadTableDefinition dbRoot statement.target files = .ok table)
    (h : Insertable table.columns statement) :
    appendInsertRow dbRoot statement affectedRows files =
      ⟨.ok (), 1, appendTextFile table.dataPath
        (serializeRow (intendedRow table.columns statement)) files⟩ := by
  unfold appendInsertRow
  rw [if_neg (not_not.mpr h.1), hload]
  simp only [(placeValues_replicate statement).mpr ⟨h.2, rfl⟩]

/-- A statement that is not accepted has no effect. -/
theorem appendInsertRow_of_not_insertable
    (h : ∀ table, loadTableDefinition dbRoot statement.target files = .ok table →
      ¬ Insertable table.columns statement) :
    ∃ e, appendInsertRow dbRoot statement affectedRows files =
      ⟨.error e, affectedRows, files⟩ := by
  unfold appendInsertRow
  split
  · exact ⟨_, rfl⟩
  · rename_i hcount
    split
    · exact ⟨_, rfl⟩
    · rename_i table hload
      split
      · exact ⟨_, rfl⟩
      · rename_i ordered hplace
        exact absurd ⟨not_not.mp hcount, ((placeValues_replicate statement).mp hplace).1⟩
          (h table hload)

/-- INSERT in one sentence: it appends the intended row, or it does nothing. -/
theorem appendInsertRow_cases (dbRoot : Bytes) (statement : InsertStatement)
    (affectedRows : Nat) (files : FileSystem) :
    (∃ table, loadTableDefinition dbRoot statement.target files = .ok table ∧
        Insertable table.columns statement ∧
        appendInsertRow dbRoot statement affectedRows files =
          ⟨.ok (), 1, appendTextFile table.dataPath
            (serializeRow (intendedRow table.columns statement)) files⟩) ∨
      ((∀ table, loadTableDefinition dbRoot statement.target files = .ok table →
          ¬ Insertable table.columns statement) ∧
        ∃ e, appendInsertRow dbRoot statement affectedRows files =
          ⟨.error e, affectedRows, files⟩) := by
  by_cases h : ∃ table, loadTableDefinition dbRoot statement.target files = .ok table ∧
      Insertable table.columns statement
  · obtain ⟨table, hload, hinsertable⟩ := h
    exact .inl ⟨table, hload, hinsertable, appendInsertRow_of_insertable hload hinsertable⟩
  · have hnot : ∀ table, loadTableDefinition dbRoot statement.target files = .ok table →
        ¬ Insertable table.columns statement :=
      fun table hload hinsertable => h ⟨table, hload, hinsertable⟩
    exact .inr ⟨hnot, appendInsertRow_of_not_insertable hnot⟩

/-- An INSERT that returns true has appended its row. -/
theorem appendInsertRow_of_ok
    (hload : loadTableDefinition dbRoot statement.target files = .ok table)
    (h : (appendInsertRow dbRoot statement affectedRows files).result = .ok ()) :
    appendInsertRow dbRoot statement affectedRows files =
      ⟨.ok (), 1, appendTextFile table.dataPath
        (serializeRow (intendedRow table.columns statement)) files⟩ := by
  rcases appendInsertRow_cases dbRoot statement affectedRows files with
    ⟨table', hload', _, hout⟩ | ⟨_, e, hout⟩
  · obtain rfl : table' = table := Except.ok.inj (hload'.symm.trans hload)
    exact hout
  · rw [hout] at h
    simp at h

end Outcome

/-! ## In the words of the schema -/

section Resolved

variable {columns : List Bytes} {statement : InsertStatement}

/-- Every named column resolves, and no two to one position. -/
def DistinctColumns (columns names : List Bytes) : Prop :=
  (∀ name ∈ names, ∃ i, Resolves columns name i) ∧
    names.Pairwise fun a b => ∀ i, Resolves columns a i → ¬ Resolves columns b i

theorem insertable_iff :
    Insertable columns statement ↔
      statement.columns.length = statement.values.length ∧
        DistinctColumns columns statement.columns := by
  unfold Insertable
  refine and_congr_right fun hcount => ?_
  have hnames : (statement.columns.zip statement.values).map Prod.fst = statement.columns :=
    List.map_fst_zip (Nat.le_of_eq hcount)
  have hfound : ∀ name, (findColumnIndex columns name).isSome = true ↔
      ∃ i, Resolves columns name i := by
    intro name
    simp only [Option.isSome_iff_exists, findColumnIndex_eq_some_iff]
  unfold Placeable DistinctColumns
  constructor
  · intro h
    refine ⟨?_, ?_⟩
    · intro name hname
      rw [← hnames] at hname
      obtain ⟨p, hp, rfl⟩ := List.mem_map.mp hname
      exact (hfound p.1).mp (h.1 p hp)
    · rw [← hnames, List.pairwise_map]
      refine h.2.imp ?_
      intro p q hne i hpi hqi
      rw [← findColumnIndex_eq_some_iff] at hpi hqi
      exact hne (hpi.trans hqi.symm)
  · intro h
    have hall : ∀ p ∈ statement.columns.zip statement.values,
        (findColumnIndex columns p.1).isSome = true := by
      intro p hp
      apply (hfound p.1).mpr
      apply h.1
      rw [← hnames]
      exact List.mem_map_of_mem hp
    refine ⟨hall, ?_⟩
    have hpairwise := h.2
    rw [← hnames, List.pairwise_map] at hpairwise
    refine hpairwise.imp_of_mem ?_
    intro p q hp _ hdisjoint heq
    obtain ⟨i, hi⟩ := Option.isSome_iff_exists.mp (hall p hp)
    exact hdisjoint i (findColumnIndex_eq_some_iff.mp hi)
      (findColumnIndex_eq_some_iff.mp (heq ▸ hi))

/-- A named column holds the value it is paired with. -/
theorem intendedRow_getElem?_named (h : Insertable columns statement) {k i : Nat}
    {name value : Bytes} (hname : statement.columns[k]? = some name)
    (hvalue : statement.values[k]? = some value) (hi : Resolves columns name i) :
    (intendedRow columns statement)[i]? = some value := by
  rw [← findColumnIndex_eq_some_iff] at hi
  have hpair : (name, value) ∈ statement.columns.zip statement.values := by
    apply List.mem_of_getElem? (i := k)
    rw [List.getElem?_zip_eq_some]
    exact ⟨hname, hvalue⟩
  have hplaced := (placedAt_eq_some_iff h.2.2).mpr ⟨(name, value), hpair, hi, rfl⟩
  unfold intendedRow
  rw [getElem?_overlay, hplaced, List.getElem?_replicate, if_pos (findColumnIndex_lt hi)]
  simp

/-- A column the statement does not name holds the empty string. -/
theorem intendedRow_getElem?_unnamed {i : Nat} (hi : i < columns.length)
    (h : ∀ name ∈ statement.columns, ¬ Resolves columns name i) :
    (intendedRow columns statement)[i]? = some [] := by
  have hplaced : placedAt (findColumnIndex columns)
      (statement.columns.zip statement.values) i = none := by
    apply placedAt_eq_none
    intro p hp hpi
    exact h p.1 (List.of_mem_zip hp).1 (findColumnIndex_eq_some_iff.mp hpi)
  unfold intendedRow
  rw [getElem?_overlay, hplaced, List.getElem?_replicate, if_pos hi]
  simp

/-- The same columns paired with the same values, in another order. -/
def Reordered (statement statement' : InsertStatement) : Prop :=
  statement'.target = statement.target ∧
    statement'.columns.length = statement'.values.length ∧
    (statement.columns.zip statement.values).Perm
      (statement'.columns.zip statement'.values)

theorem Reordered.insertable {statement' : InsertStatement}
    (h : Reordered statement statement') (hins : Insertable columns statement) :
    Insertable columns statement' ∧
      intendedRow columns statement' = intendedRow columns statement :=
  ⟨⟨h.2.1, hins.2.perm h.2.2⟩, (overlay_perm hins.2 h.2.2).symm⟩

end Resolved

/-- `append_insert_row` accepts exactly the statements with as many columns as
values whose columns resolve to different positions of a schema that loads.  It
then appends the line of the intended row, and the order of the pairs plays no
part; otherwise it changes nothing. -/
theorem appendInsertRow_exact (dbRoot : Bytes) (statement : InsertStatement)
    (affectedRows : Nat) (files : FileSystem) :
    let outcome := appendInsertRow dbRoot statement affectedRows files
    (outcome.result = .ok () ↔
      statement.columns.length = statement.values.length ∧
        ∃ table, loadTableDefinition dbRoot statement.target files = .ok table ∧
          DistinctColumns table.columns statement.columns) ∧
      (outcome.result = .ok () → ∃ table row,
        loadTableDefinition dbRoot statement.target files = .ok table ∧
        row.length = table.columns.length ∧
        (∀ (k i : Nat) (name value : Bytes), statement.columns[k]? = some name →
          statement.values[k]? = some value → Resolves table.columns name i →
            row[i]? = some value) ∧
        (∀ i, i < table.columns.length →
          (∀ name ∈ statement.columns, ¬ Resolves table.columns name i) →
            row[i]? = some []) ∧
        outcome.files = Function.update files table.dataPath
          (some (files.content table.dataPath ++ serializeRow row)) ∧
        outcome.affectedRows = 1 ∧
        ∀ statement', Reordered statement statement' →
          appendInsertRow dbRoot statement' affectedRows files = outcome) ∧
      (outcome.result ≠ .ok () →
        outcome.files = files ∧ outcome.affectedRows = affectedRows) := by
  intro outcome
  rcases appendInsertRow_cases dbRoot statement affectedRows files with
    ⟨table, hload, hinsertable, hout⟩ | ⟨hnot, e, hout⟩
  · have houtcome : outcome = _ := hout
    rw [houtcome]
    refine ⟨⟨fun _ => ?_, fun _ => rfl⟩, fun _ => ?_, fun h => absurd rfl h⟩
    · obtain ⟨hcount, hdistinct⟩ := insertable_iff.mp hinsertable
      exact ⟨hcount, table, hload, hdistinct⟩
    · refine ⟨table, intendedRow table.columns statement, hload, length_intendedRow _ _,
        ?_, ?_, rfl, rfl, ?_⟩
      · intro k i name value hname hvalue hi
        exact intendedRow_getElem?_named hinsertable hname hvalue hi
      · intro i hi hunnamed
        exact intendedRow_getElem?_unnamed hi hunnamed
      · intro statement' hreordered
        obtain ⟨hinsertable', hrow⟩ := hreordered.insertable hinsertable
        have hload' : loadTableDefinition dbRoot statement'.target files = .ok table := by
          rw [hreordered.1]
          exact hload
        rw [appendInsertRow_of_insertable hload' hinsertable', hrow]
  · have houtcome : outcome = _ := hout
    rw [houtcome]
    refine ⟨⟨fun h => ?_, fun h => ?_⟩, fun h => ?_, fun _ => ⟨rfl, rfl⟩⟩
    · simp at h
    · obtain ⟨hcount, table, hload, hdistinct⟩ := h
      exact absurd (insertable_iff.mpr ⟨hcount, hdistinct⟩) (hnot table hload)
    · simp at h

end MiniSql
