import MiniSql.Foundation.Chunk
import MiniSql.Storage.Lines
import MiniSql.Storage.Select

set_option autoImplicit false

/-!
# Reading back what was written

SELECT * answers the decoded records of the data file, if they are as wide as the
schema (`runSelectQuery_star_iff`).  The records are the rows that were written
exactly when the line of each row fits the buffer of `fgets`
(`records_of_rows_iff`).
-/

namespace MiniSql

open Foundation

/-- `SELECT *` without WHERE. -/
def IsStar (statement : SelectStatement) : Prop :=
  statement.selectAll = true ∧ statement.where_ = none

/-! ## SELECT * -/

section Star

variable {dbRoot : Bytes} {statement : SelectStatement} {files : FileSystem}
  {table : TableDefinition}

/-- Every record is answered, if every record is as wide as the schema. -/
theorem runSelectQuery_star_of_decoded
    (hload : loadTableDefinition dbRoot statement.source files = .ok table)
    (hstar : IsStar statement)
    (hdecoded : ∀ record ∈ readRecords (files.content table.dataPath),
      (splitPipeLine record).length = table.columns.length) :
    runSelectQuery dbRoot statement files =
      ⟨.ok (), ⟨table.columns, (readRecords (files.content table.dataPath)).map splitPipeLine⟩,
        ensureDataFile table.dataPath files⟩ := by
  have hselectable : Selectable table.columns (readRecords (files.content table.dataPath))
      statement (List.range table.columns.length) := by
    refine ⟨?_, ?_, hdecoded⟩
    · simp [SelectsAt, hstar.1]
    · simp [hstar.2]
  obtain ⟨test, hwhere, hout⟩ := runSelectQuery_of_selectable hload hselectable
  obtain rfl : none = test := by
    rw [hstar.2] at hwhere
    exact Except.ok.inj hwhere
  have hall : ∀ r : Relation Bytes Bytes, r.restrict (passesWhere none) = r := by
    intro r
    have hrows : r.rows.filter (passesWhere none) = r.rows := by simp [passesWhere]
    cases r
    simp only [Relation.restrict, hrows]
  obtain ⟨hheading, hrows⟩ := (recordRelation table.columns _ hdecoded).project_range
  rw [hout, hall, QueryResult.ofRelation]
  exact congrArg₂ (fun columns rows => SelectOutcome.mk (.ok ()) ⟨columns, rows⟩
    (ensureDataFile table.dataPath files)) hheading hrows

theorem decoded_of_runSelectQuery_ok
    (hload : loadTableDefinition dbRoot statement.source files = .ok table)
    (h : (runSelectQuery dbRoot statement files).result = .ok ()) :
    ∀ record ∈ readRecords (files.content table.dataPath),
      (splitPipeLine record).length = table.columns.length := by
  rcases runSelectQuery_cases dbRoot statement files with
    ⟨table', indexes, test, hselectable, hload', _, _⟩ | ⟨_, e, hout⟩
  · obtain rfl : table = table' := Except.ok.inj (hload.symm.trans hload')
    exact hselectable.decoded
  · rw [hout] at h
    simp at h

/-- SELECT * answers some rows exactly when they are the decoded records and as
wide as the schema. -/
theorem runSelectQuery_star_iff
    (hload : loadTableDefinition dbRoot statement.source files = .ok table)
    (hstar : IsStar statement) {rows : List (List Bytes)} :
    ((runSelectQuery dbRoot statement files).result = .ok () ∧
        (runSelectQuery dbRoot statement files).query = ⟨table.columns, rows⟩) ↔
      (readRecords (files.content table.dataPath)).map splitPipeLine = rows ∧
        ∀ row ∈ rows, row.length = table.columns.length := by
  constructor
  · intro h
    obtain ⟨hresult, hquery⟩ := h
    have hdecoded := decoded_of_runSelectQuery_ok hload hresult
    rw [runSelectQuery_star_of_decoded hload hstar hdecoded] at hquery
    obtain rfl := (QueryResult.mk.inj hquery).2
    refine ⟨rfl, ?_⟩
    simpa using hdecoded
  · intro h
    obtain ⟨rfl, hwidth⟩ := h
    have hdecoded : ∀ record ∈ readRecords (files.content table.dataPath),
        (splitPipeLine record).length = table.columns.length := by
      simpa using hwidth
    rw [runSelectQuery_star_of_decoded hload hstar hdecoded]
    exact ⟨rfl, rfl⟩

end Star

/-! ## Records and lines -/

/-- The records of a file whose beginning leaves no record open. -/
theorem readRecords_append {taken : Bytes} (hclosed : residue recordFull taken = [])
    (rest : Bytes) :
    readRecords (taken ++ rest) =
      (cut recordFull taken).map cString ++ (cut recordFull rest).map cString := by
  rw [readRecords, cut_append_of_residue_nil rest hclosed, List.map_append]

theorem readRecords_of_nulFree {content : Bytes} (h : NulFree content) :
    readRecords content = cut recordFull content := by
  unfold readRecords
  refine (List.map_congr_left fun record hrecord => ?_).trans (List.map_id _)
  apply cString_of_nulFree
  intro hmem
  have hflatten : (cut recordFull content).flatten = content := flatten_cut content
  apply h
  rw [← hflatten]
  exact List.mem_flatten.mpr ⟨record, hrecord, hmem⟩

theorem unended_iff {s : Bytes} : Unended (· == newline) s ↔ newline ∉ s := by
  simp only [Unended, beq_eq_false_iff_ne, ne_eq]
  constructor
  · exact fun h hmem => h newline hmem rfl
  · exact fun h b hb heq => h (heq ▸ hb)

/-- A line of a data file, for the reader. -/
theorem serializeRow_line (row : List Bytes) :
    ∃ body a, Unended (· == newline) body ∧ (a == newline) = true ∧
      serializeRow row = body ++ [a] :=
  ⟨_, newline, unended_iff.mpr (newline_not_mem_body row), by simp, rfl⟩

/-- The rows of a table are read back exactly when each of their lines fits the
buffer with its newline and the terminator. -/
theorem records_of_rows_iff {rows : List (List Bytes)}
    (h : ∀ row ∈ rows, row ≠ [] ∧ ∀ value ∈ row, NulFree value) :
    (readRecords (rows.map serializeRow).flatten).map splitPipeLine = rows ↔
      ∀ row ∈ rows, (serializeRow row).length < lineCapacity := by
  have hnul : NulFree (rows.map serializeRow).flatten := by
    intro hmem
    obtain ⟨line, hline, hzero⟩ := List.mem_flatten.mp hmem
    obtain ⟨row, hrow, rfl⟩ := List.mem_map.mp hline
    exact nulFree_serializeRow (h row hrow).2 hzero
  have hlines : ∀ line ∈ rows.map serializeRow, ∃ body a,
      Unended (· == newline) body ∧ (a == newline) = true ∧ line = body ++ [a] := by
    intro line hline
    obtain ⟨row, _, rfl⟩ := List.mem_map.mp hline
    exact serializeRow_line row
  rw [readRecords_of_nulFree hnul]
  constructor
  · -- a line that does not fit is more than one record
    intro hread row hrow
    have hcount : (cut recordFull (rows.map serializeRow).flatten).length =
        (rows.map serializeRow).length := by
      rw [List.length_map]
      conv_rhs => rw [← hread]
      rw [List.length_map]
    have hfits := (length_cut_lines_eq_iff (by decide) hlines).2.mp hcount
      (serializeRow row) (List.mem_map_of_mem hrow)
    exact Nat.lt_of_le_of_lt hfits (by decide)
  · intro hfits
    have hpieces : cut recordFull (rows.map serializeRow).flatten = rows.map serializeRow := by
      apply cut_lines hlines
      intro line hline
      obtain ⟨row, hrow, rfl⟩ := List.mem_map.mp hline
      exact Nat.le_pred_of_lt (hfits row hrow)
    rw [hpieces, List.map_map]
    refine (List.map_congr_left fun row hrow => ?_).trans (List.map_id _)
    exact splitPipeLine_serializeRow (h row hrow).1

end MiniSql
