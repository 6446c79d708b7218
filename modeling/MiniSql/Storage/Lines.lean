import MiniSql.Storage.Insert

set_option autoImplicit false

/-!
# Data files as lists of lines

The lines of a file, however long, and what appending a row does to them.
-/

namespace MiniSql

open Foundation

/-- A line: bytes other than newlines, and a newline. -/
def IsLine (line : Bytes) : Prop := ∃ body, newline ∉ body ∧ line = body ++ [newline]

/-- `split_pipe_line` on a line, which it reads up to the first NUL. -/
def decodeLine (line : Bytes) : List Bytes := splitPipeLine (cString line)

/-- The decoded lines of a file. -/
def decodedLines (content : Bytes) : List (List Bytes) := (fileLines content).map decodeLine

/-- A data file for a schema of `width` columns: it is missing, or it is made of
lines that decode to `width` values each. -/
def WellFormedData (width : Nat) (data : Option Bytes) : Prop :=
  ∀ content, data = some content →
    ∃ lines : List Bytes, content = lines.flatten ∧
      ∀ line ∈ lines, IsLine line ∧ (decodeLine line).length = width

/-! ## Lines -/

theorem IsLine.cut {line : Bytes} (h : IsLine line) (rest : Bytes) :
    fileLines (line ++ rest) = line :: fileLines rest := by
  obtain ⟨body, hbody, rfl⟩ := h
  apply cut_endsWith_line
  · intro b hb
    have hne : b ≠ newline := fun h => hbody (h ▸ hb)
    simpa using hne
  · simp

/-- Cutting a list of lines gives the lines. -/
theorem fileLines_flatten {lines : List Bytes} (h : ∀ line ∈ lines, IsLine line)
    (rest : Bytes) : fileLines (lines.flatten ++ rest) = lines ++ fileLines rest := by
  induction lines with
  | nil => rfl
  | cons line lines ih =>
      obtain ⟨hline, hlines⟩ := List.forall_mem_cons.mp h
      rw [List.flatten_cons, List.append_assoc, hline.cut, ih hlines, List.cons_append]

theorem fileLines_of_flatten {lines : List Bytes} (h : ∀ line ∈ lines, IsLine line) :
    fileLines lines.flatten = lines := by
  have hnil := fileLines_flatten h []
  rwa [List.append_nil, show fileLines [] = [] from rfl, List.append_nil] at hnil

/-! ## Rows -/

theorem isLine_serializeRow (values : List Bytes) : IsLine (serializeRow values) :=
  ⟨_, newline_not_mem_body values, rfl⟩

theorem decodeLine_serializeRow {values : List Bytes} (hne : values ≠ [])
    (hnul : ∀ value ∈ values, NulFree value) : decodeLine (serializeRow values) = values := by
  rw [decodeLine, cString_of_nulFree (nulFree_serializeRow hnul),
    splitPipeLine_serializeRow hne]

theorem carriageReturn_not_mem_serializeRow (values : List Bytes) :
    carriageReturn ∉ serializeRow values := by
  rw [serializeRow, List.mem_append, not_or]
  exact ⟨carriageReturn_not_mem_body values, by decide⟩

theorem count_newline_serializeRow (values : List Bytes) :
    (serializeRow values).count newline = 1 := by
  rw [serializeRow, List.count_append, List.count_eq_zero.mpr (newline_not_mem_body values)]
  simp

/-- A row is written as one line, of which `split_pipe_line` makes the row again. -/
theorem serializeRow_exact (values : List Bytes) (hne : values ≠ [])
    (hnul : ∀ value ∈ values, NulFree value) :
    (serializeRow values).count newline = 1 ∧
      (serializeRow values).getLast? = some newline ∧
      carriageReturn ∉ serializeRow values ∧
      splitPipeLine (cString (serializeRow values)) = values := by
  refine ⟨count_newline_serializeRow values, ?_, carriageReturn_not_mem_serializeRow values,
    decodeLine_serializeRow hne hnul⟩
  simp [serializeRow]

theorem serializeRow_exact_escapes :
    splitPipeLine (cString (serializeRow [ascii "a\\", [], ascii "\\n|", [newline]])) =
      [ascii "a\\", [], ascii "\\n|", [newline]] :=
  (serializeRow_exact [ascii "a\\", [], ascii "\\n|", [newline]] (by decide)
    (by decide)).2.2.2

/-- The values of the row an INSERT builds are its own, or empty. -/
theorem intendedRow_nulFree {columns : List Bytes} {statement : InsertStatement}
    (h : ∀ value ∈ statement.values, NulFree value) :
    ∀ value ∈ intendedRow columns statement, NulFree value := by
  intro value hvalue
  rcases mem_overlay hvalue with hslot | ⟨p, hp, rfl⟩
  · rw [(List.mem_replicate.mp hslot).2]
    decide
  · exact h p.2 (List.of_mem_zip hp).2

/-! ## Appending a row -/

section Append

variable {width : Nat} {content : Bytes} {values : List Bytes}

theorem WellFormedData.of_missing : WellFormedData width none := by
  intro content h
  simp at h

theorem WellFormedData.of_empty : WellFormedData width (some []) := by
  intro content h
  obtain rfl := Option.some.inj h
  exact ⟨[], rfl, by simp⟩

/-- A row goes behind the lines there are and becomes one line more. -/
theorem WellFormedData.append_row {files : FileSystem} {path : Bytes}
    (h : WellFormedData width (files path)) (hlength : values.length = width)
    (hne : values ≠ []) (hnul : ∀ value ∈ values, NulFree value) :
    WellFormedData width (appendTextFile path (serializeRow values) files path) ∧
      decodedLines ((appendTextFile path (serializeRow values) files).content path) =
        decodedLines (files.content path) ++ [values] := by
  have hdecode := decodeLine_serializeRow hne hnul
  have hline := isLine_serializeRow values
  obtain ⟨lines, hcontent, hlines⟩ : ∃ lines : List Bytes,
      files.content path = lines.flatten ∧
        ∀ line ∈ lines, IsLine line ∧ (decodeLine line).length = width := by
    cases hfile : files path with
    | none => exact ⟨[], by simp [FileSystem.content, hfile], by simp⟩
    | some content =>
        obtain ⟨lines, rfl, hlines⟩ := h content hfile
        exact ⟨lines, by simp [FileSystem.content, hfile], hlines⟩
  have hall : ∀ line ∈ lines ++ [serializeRow values],
      IsLine line ∧ (decodeLine line).length = width := by
    intro line hmem
    rcases List.mem_append.mp hmem with hmem | hmem
    · exact hlines line hmem
    · rw [List.mem_singleton.mp hmem]
      exact ⟨hline, by rw [hdecode, hlength]⟩
  have hflatten : files.content path ++ serializeRow values =
      (lines ++ [serializeRow values]).flatten := by
    simp [hcontent]
  refine ⟨?_, ?_⟩
  · intro content hcontent'
    rw [appendTextFile_same] at hcontent'
    exact ⟨_, (Option.some.inj hcontent').symm.trans hflatten, hall⟩
  · rw [content_appendTextFile, hflatten, hcontent, decodedLines, decodedLines,
      fileLines_of_flatten (fun line hmem => (hall line hmem).1),
      fileLines_of_flatten (fun line hmem => (hlines line hmem).1), List.map_append,
      List.map_singleton, hdecode]

end Append

end MiniSql
