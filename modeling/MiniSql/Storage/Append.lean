import MiniSql.Storage.Decoder
import MiniSql.Storage.ReadBack

set_option autoImplicit false

/-!
# Appending behind any content

INSERT appends its line without a look at what the file ends with.  The bytes
behind the last newline have already been answered as a row, and the buffer that
holds the last of them goes on with the line.  `KeepsApart` says when this leaves
the old rows and the new one as they are.
-/

namespace MiniSql

open Foundation

/-- The bytes of the file behind its last newline. -/
def lastLine (content : Bytes) : Bytes := openLine (· == newline) content

/-- The last buffer of a file is closed, or one byte is missing from it that makes
no difference: the backslash that begins the line ends an escape sequence for a
backslash, and the row can do without it. -/
def KeepsApart (content : Bytes) (row : List Bytes) : Prop :=
  (lastLine content).length % (lineCapacity - 1) = 0 ∨
    (lastLine content).length % (lineCapacity - 1) = lineCapacity - 2 ∧
      openEscape ((lastLine content).drop ((lastLine content).length - (lineCapacity - 2))) =
        true ∧
      survivesFirstByte row = true

instance (content : Bytes) (row : List Bytes) : Decidable (KeepsApart content row) :=
  inferInstanceAs (Decidable (_ ∨ _))

/-- A file that ends with a newline, as every file does that INSERT has written to,
takes any row. -/
theorem keepsApart_of_newline (content : Bytes) (row : List Bytes) :
    KeepsApart (content ++ [newline]) row := by
  have hlast : lastLine (content ++ [newline]) = [] :=
    List.rtakeWhile_concat_neg _ _ _ (by simp)
  left
  rw [hlast]
  rfl

theorem serializeRow_of_survives {row : List Bytes} (h : survivesFirstByte row = true) :
    ∃ line, serializeRow row = backslash :: line ∧ 1 < (serializeRow row).length := by
  cases row with
  | nil => simp [survivesFirstByte] at h
  | cons value values =>
      cases value with
      | nil => simp [survivesFirstByte] at h
      | cons ch value =>
          simp only [survivesFirstByte, Bool.and_eq_true, beq_iff_eq] at h
          have hfield :
              escapeField (ch :: value) = backslash :: backslash :: escapeField value := by
            rw [h.1]
            rfl
          rw [serializeRow_cons, hfield]
          exact ⟨_, rfl, by simp⟩

/-! ## The records of the last buffer -/

section LastBuffer

variable {p : Bytes} {row : List Bytes}

/-- A line that fills the open buffer up and goes on leaves both rows as they are
when it does so with one backslash that neither of them misses. -/
theorem splitPipeLine_filled_iff {body : Bytes} {k : Nat} (hp : newline ∉ p) (hk : 0 < k)
    (hlength : k ≤ body.length) (hbody : serializeRow row = body ++ [newline])
    (hnewline : newline ∉ body) (hcr : carriageReturn ∉ body) :
    splitPipeLine (p ++ body.take k) = splitPipeLine p ∧
        splitPipeLine (body.drop k ++ [newline]) = row ↔
      k = 1 ∧ openEscape p = true ∧ survivesFirstByte row = true := by
  have hne : body.take k ≠ [] := by
    apply List.ne_nil_of_length_pos
    rw [List.length_take_of_le hlength]
    exact hk
  rw [splitPipeLine_append_eq_iff hp hne (fun h => hnewline (List.mem_of_mem_take h))
    (fun h => hcr (List.mem_of_mem_take h))]
  have hline : body.take k = [backslash] →
      serializeRow row = backslash :: (body.drop k ++ [newline]) := by
    intro hone
    calc serializeRow row = body.take k ++ body.drop k ++ [newline] := by
          rw [List.take_append_drop, hbody]
      _ = backslash :: (body.drop k ++ [newline]) := by rw [hone]; rfl
  constructor
  · intro h
    obtain ⟨⟨hone, hescape⟩, hread⟩ := h
    have hk : k = 1 := by
      rw [← List.length_take_of_le hlength, hone, List.length_singleton]
    exact ⟨hk, hescape, (splitPipeLine_tail_eq_iff (hline hone)).mp hread⟩
  · intro h
    obtain ⟨rfl, hescape, hsurvives⟩ := h
    obtain ⟨line, hrow, -⟩ := serializeRow_of_survives hsurvives
    have hone : body.take 1 = [backslash] := by
      cases body with
      | nil => simp at hlength
      | cons b body =>
          rw [hbody] at hrow
          rw [List.take_one, (List.cons.inj hrow).1]
          rfl
    exact ⟨⟨hone, hescape⟩, (splitPipeLine_tail_eq_iff (hline hone)).mpr hsurvives⟩

theorem records_open_iff (hp : Unended (· == newline) p)
    (hplength : p.length < lineCapacity - 1) (hrow : row ≠ [])
    (hlength : (serializeRow row).length < lineCapacity) :
    (cut recordFull (p ++ serializeRow row)).map splitPipeLine =
        (if p.isEmpty then [] else [p]).map splitPipeLine ++ [row] ↔
      p = [] ∨ p.length = lineCapacity - 2 ∧ openEscape p = true ∧
        survivesFirstByte row = true := by
  obtain ⟨body, hbody, hnewline, hcr⟩ : ∃ body, serializeRow row = body ++ [newline] ∧
      newline ∉ body ∧ carriageReturn ∉ body :=
    ⟨_, rfl, newline_not_mem_body row, carriageReturn_not_mem_body row⟩
  have hbodyUnended := unended_iff.mpr hnewline
  have hbodyLength : body.length + 1 < lineCapacity := by
    rw [hbody, List.length_append, List.length_singleton] at hlength
    exact hlength
  by_cases hnil : p = []
  · subst hnil
    have hone := cut_line hbodyUnended (a := newline) (by simp)
      (show body.length < lineCapacity - 1 by omega) []
    rw [List.append_nil, cut_nil, ← hbody] at hone
    have hread := splitPipeLine_serializeRow hrow
    simp [recordFull, hone, hread]
  · have hempty : p.isEmpty = false := by simpa using hnil
    simp only [hempty, hnil, false_or, Bool.false_eq_true, if_false]
    by_cases hfits : p.length + body.length < lineCapacity - 1
    · -- one record for two rows
      have hone := cut_line (hp.append hbodyUnended) (a := newline) (by simp)
        (show (p ++ body).length < lineCapacity - 1 by rwa [List.length_append]) []
      rw [List.append_nil, cut_nil, List.append_assoc, ← hbody] at hone
      refine iff_of_false ?_ ?_
      · intro hread
        have hcount := congrArg List.length hread
        simp [recordFull, hone] at hcount
      · intro h
        obtain ⟨line, -, hlong⟩ := serializeRow_of_survives h.2.2
        rw [hbody, List.length_append, List.length_singleton] at hlong
        omega
    · have htwo := cut_open_line hp hplength hbodyUnended (a := newline)
        (by simp) (by omega) (Nat.le_of_not_lt hfits)
      rw [← hbody] at htwo
      rw [recordFull, htwo]
      simp only [List.map_cons, List.map_nil, List.cons_append, List.nil_append,
        List.cons.injEq, and_true]
      have hone : lineCapacity - 1 - p.length = 1 ↔ p.length = lineCapacity - 2 := by omega
      rw [splitPipeLine_filled_iff (unended_iff.mp hp) (by omega) (by omega) hbody hnewline hcr,
        hone]

end LastBuffer

/-! ## The records of the file -/

/-- The part of the last line that the buffer holds. -/
theorem residue_recordFull (content : Bytes) :
    residue recordFull content =
      (lastLine content).drop
        ((lastLine content).length / (lineCapacity - 1) * (lineCapacity - 1)) :=
  residue_chunk (by decide) content

theorem records_append_row_iff {content : Bytes} {row : List Bytes} (hcontent : NulFree content)
    (hvalues : ∀ value ∈ row, NulFree value) (hrow : row ≠ [])
    (hlength : (serializeRow row).length < lineCapacity) :
    (readRecords (content ++ serializeRow row)).map splitPipeLine =
        (readRecords content).map splitPipeLine ++ [row] ↔
      KeepsApart content row := by
  have hopen : Unended (· == newline) (residue recordFull content) ∧
      (residue recordFull content).length < lineCapacity - 1 :=
    residue_unended (by decide) content
  have hopenLength : (residue recordFull content).length =
      (lastLine content).length % (lineCapacity - 1) :=
    length_residue_chunk (by decide) content
  rw [readRecords_of_nulFree (hcontent.append (nulFree_serializeRow hvalues)),
    readRecords_of_nulFree hcontent, cut_append, cut_eq_closed_residue content,
    List.map_append, List.map_append, List.append_assoc, List.append_cancel_left_eq,
    records_open_iff hopen.1 hopen.2 hrow hlength, ← List.length_eq_zero_iff, hopenLength]
  unfold KeepsApart
  refine or_congr_right (and_congr_right fun hfull => ?_)
  have hstart : (lastLine content).length / (lineCapacity - 1) * (lineCapacity - 1) =
      (lastLine content).length - (lineCapacity - 2) := by
    have hdivision := Nat.div_add_mod' (lastLine content).length (lineCapacity - 1)
    omega
  rw [residue_recordFull, hstart]

/-! ## INSERT behind any content -/

/-- The rows that were readable stay readable, and the new row is read behind them,
exactly when the end of the file keeps them apart. -/
theorem appendInsertRow_keeps_rows_iff (dbRoot : Bytes) (files : FileSystem)
    (insert : InsertStatement) (select : SelectStatement) (affectedRows : Nat)
    {table : TableDefinition}
    (hload : loadTableDefinition dbRoot insert.target files = .ok table)
    (hcontent : NulFree (files.content table.dataPath))
    (hvalues : ∀ value ∈ insert.values, NulFree value)
    (hsource : select.source = insert.target) (hstar : IsStar select)
    (hselect : (runSelectQuery dbRoot select files).result = .ok ())
    (hinsert : (appendInsertRow dbRoot insert affectedRows files).result = .ok ())
    (hlength : (serializeRow (intendedRow table.columns insert)).length < lineCapacity) :
    let files' := (appendInsertRow dbRoot insert affectedRows files).files
    (runSelectQuery dbRoot select files').result = .ok () ∧
        (runSelectQuery dbRoot select files').query =
          ⟨table.columns, (runSelectQuery dbRoot select files).query.rows ++
            [intendedRow table.columns insert]⟩ ↔
      KeepsApart (files.content table.dataPath) (intendedRow table.columns insert) := by
  intro files'
  have hfiles : files' = appendTextFile table.dataPath
      (serializeRow (intendedRow table.columns insert)) files :=
    congrArg InsertOutcome.files (appendInsertRow_of_ok hload hinsert)
  rw [← hsource] at hload
  have hload' : loadTableDefinition dbRoot select.source files' = .ok table := by
    rw [hfiles, loadTableDefinition_appendTextFile hload, hload]
  have hdecoded := decoded_of_runSelectQuery_ok hload hselect
  have hrows : (runSelectQuery dbRoot select files).query.rows =
      (readRecords (files.content table.dataPath)).map splitPipeLine := by
    rw [runSelectQuery_star_of_decoded hload hstar hdecoded]
  have hwidth : ∀ row ∈ (readRecords (files.content table.dataPath)).map splitPipeLine ++
      [intendedRow table.columns insert], row.length = table.columns.length := by
    intro row hrow
    rcases List.mem_append.mp hrow with hrow | hrow
    · obtain ⟨record, hrecord, rfl⟩ := List.mem_map.mp hrow
      exact hdecoded record hrecord
    · rw [List.mem_singleton.mp hrow]
      exact length_intendedRow table.columns insert
  rw [runSelectQuery_star_iff hload' hstar, hrows, hfiles, content_appendTextFile,
    and_iff_left hwidth]
  exact records_append_row_iff hcontent (intendedRow_nulFree hvalues)
    (intendedRow_ne_nil table insert) hlength

/-- A file that ends with a newline keeps its row. -/
theorem appendInsertRow_keeps_rows_newline :
    let name : QualifiedName := ⟨none, some (ascii "t")⟩
    let files : FileSystem := fun path =>
      if path = ascii "db/t.schema" then some (ascii "c")
      else if path = ascii "db/t.data" then some (ascii "a" ++ [newline]) else none
    let insert : InsertStatement := ⟨name, [ascii "c"], [ascii "b"]⟩
    let select : SelectStatement := ⟨name, true, [], none⟩
    (runSelectQuery (ascii "db") select
      (appendInsertRow (ascii "db") insert 0 files).files).query.rows =
        [[ascii "a"], [ascii "b"]] := by
  intro name files insert select
  obtain ⟨table, hload, hcolumns, hpath⟩ : ∃ table,
      loadTableDefinition (ascii "db") name files = .ok table ∧ _ :=
    loadTableDefinition_of_file (ascii "c") (by decide) (by decide) (by decide +kernel)
  have hdata : files.content table.dataPath = ascii "a" ++ [newline] := by
    rw [hpath]
    decide
  have hkeeps := (appendInsertRow_keeps_rows_iff (ascii "db") files insert select 0 hload
    (by rw [hdata]; decide) (by decide) rfl ⟨rfl, rfl⟩ (by decide +kernel) (by decide +kernel)
    (by rw [hcolumns]; decide +kernel)).mpr (by rw [hdata]; exact keepsApart_of_newline _ _)
  rw [hkeeps.2, hcolumns]
  decide +kernel

/-- A file that ends without a newline: its row and the new one become one. -/
theorem appendInsertRow_joins_rows :
    let name : QualifiedName := ⟨none, some (ascii "t")⟩
    let files : FileSystem := fun path =>
      if path = ascii "db/t.schema" then some (ascii "c")
      else if path = ascii "db/t.data" then some (ascii "a") else none
    let insert : InsertStatement := ⟨name, [ascii "c"], [ascii "b"]⟩
    let select : SelectStatement := ⟨name, true, [], none⟩
    let inserted := appendInsertRow (ascii "db") insert 0 files
    (runSelectQuery (ascii "db") select files).result = .ok () ∧
      (runSelectQuery (ascii "db") select files).query.rows = [[ascii "a"]] ∧
      inserted.result = .ok () ∧ intendedRow [ascii "c"] insert = [ascii "b"] ∧
      (serializeRow [ascii "b"]).length < lineCapacity ∧
      (runSelectQuery (ascii "db") select inserted.files).result = .ok () ∧
      (runSelectQuery (ascii "db") select inserted.files).query.rows = [[ascii "ab"]] := by
  decide +kernel

end MiniSql
