import MiniSql.Program.Executor

set_option autoImplicit false

/-!
# The shape of a printed table (`print_execution_result`)

The widths are wide enough for every cell, so every line but the last is as long as
the widths say.  A cell is written as it is: a newline in it breaks its line, and
nothing else does.
-/

namespace MiniSql

open Foundation

/-- The longest cell or header of a column. -/
def QueryResult.longest (query : QueryResult) (i : Nat) : Nat :=
  (query.columns :: query.rows).foldr (fun row longest => max (row.getD i []).length longest) 0

/-- 1 plus the sum over the columns of 3 plus the longest cell or header. -/
def QueryResult.lineLength (query : QueryResult) : Nat :=
  1 + ((List.range query.columns.length).map fun i => 3 + query.longest i).foldr (· + ·) 0

/-- As many lines as rows and five more, each of them but the last of one length. -/
def WellShaped (query : QueryResult) (printed : Bytes) : Prop :=
  ∃ lines : List Bytes, printed = lines.flatMap (fun line => line ++ [newline]) ∧
    (∀ line ∈ lines, newline ∉ line) ∧ lines.length = query.rows.length + 5 ∧
    ∀ line ∈ lines.dropLast, line.length = query.lineLength

/-! ## Widths and cells -/

/-- Every cell has room in its column. -/
def Fits (widths : List Nat) (cells : List Bytes) : Prop :=
  List.Forall₂ (fun width cell => cell.length ≤ width) widths cells

/-- What the widths add up to, with the two blanks and the bar of each column. -/
def totalWidth (widths : List Nat) : Nat := (widths.map fun width => 3 + width).foldr (· + ·) 0

/-- A cell between its blanks, with the bar behind it. -/
def printedCell (width : Nat) (cell : Bytes) : Bytes :=
  [space] ++ padRight width cell ++ [space, pipe]

/-- A separator without its newline. -/
def separatorLine (widths : List Nat) : Bytes :=
  ascii "+" ++ widths.flatMap fun width => List.replicate (width + 2) minus ++ ascii "+"

/-- A row without its newline. -/
def cellsLine (widths : List Nat) (cells : List Bytes) : Bytes :=
  [pipe] ++ (List.zipWith printedCell widths cells).flatten

section Lines

variable {widths : List Nat} {cells row : List Bytes}

theorem printSeparator_eq (widths : List Nat) :
    printSeparator widths = separatorLine widths ++ [newline] := rfl

theorem printCells_eq (h : cells.length = widths.length) :
    printCells widths cells = cellsLine widths cells ++ [newline] := by
  have hzip : (widths.mapIdx fun i width => printedCell width (cells.getD i [])) =
      List.zipWith printedCell widths cells := by
    induction widths generalizing cells with
    | nil =>
        obtain rfl : cells = [] := List.eq_nil_of_length_eq_zero h
        rfl
    | cons width widths ih =>
        cases cells with
        | nil => simp at h
        | cons cell cells =>
            rw [List.mapIdx_cons, List.zipWith_cons_cons, ← ih (by simpa using h)]
            rfl
  unfold printCells cellsLine
  rw [← hzip]
  rfl

theorem length_separatorLine (widths : List Nat) :
    (separatorLine widths).length = 1 + totalWidth widths := by
  induction widths with
  | nil => rfl
  | cons width widths ih =>
      simp only [separatorLine, totalWidth, List.flatMap_cons, List.map_cons, List.foldr_cons,
        List.length_append, List.length_replicate] at ih ⊢
      rw [show (ascii "+").length = 1 from rfl] at ih ⊢
      omega

theorem length_printedCell {width : Nat} {cell : Bytes} (h : cell.length ≤ width) :
    (printedCell width cell).length = 3 + width := by
  simp only [printedCell, padRight, List.length_append, List.length_replicate, List.length_cons,
    List.length_nil]
  omega

theorem length_cellsLine (h : Fits widths cells) :
    (cellsLine widths cells).length = 1 + totalWidth widths := by
  induction h with
  | nil => rfl
  | cons hcell _ ih =>
      have hlength := length_printedCell hcell
      simp only [cellsLine, totalWidth, List.zipWith_cons_cons, List.flatten_cons, List.map_cons,
        List.foldr_cons, List.length_append, List.length_singleton] at ih ⊢
      omega

theorem newline_not_mem_separatorLine (widths : List Nat) : newline ∉ separatorLine widths := by
  intro hmem
  rcases List.mem_append.mp hmem with hmem | hmem
  · exact absurd hmem (by decide)
  · obtain ⟨width, -, hmem⟩ := List.mem_flatMap.mp hmem
    rcases List.mem_append.mp hmem with hmem | hmem
    · exact absurd (List.mem_replicate.mp hmem).2 (by decide)
    · exact absurd hmem (by decide)

/-- The newlines of a printed row are those of its cells. -/
theorem count_newline_cellsLine (h : cells.length = widths.length) :
    (cellsLine widths cells).count newline = cells.flatten.count newline := by
  have hcell : ∀ (width : Nat) (cell : Bytes),
      (printedCell width cell).count newline = cell.count newline := by
    intro width cell
    have hpad : (List.replicate (width - cell.length) space).count newline = 0 :=
      List.count_eq_zero.mpr fun hmem => absurd (List.mem_replicate.mp hmem).2 (by decide)
    have hfirst : [space].count newline = 0 := by decide
    have hlast : [space, pipe].count newline = 0 := by decide
    rw [printedCell, padRight, List.count_append, List.count_append, List.count_append, hpad,
      hfirst, hlast]
    omega
  have hzip : (List.zipWith printedCell widths cells).flatten.count newline =
      cells.flatten.count newline := by
    induction widths generalizing cells with
    | nil =>
        obtain rfl : cells = [] := List.eq_nil_of_length_eq_zero h
        rfl
    | cons width widths ih =>
        cases cells with
        | nil => simp at h
        | cons cell cells =>
            rw [List.zipWith_cons_cons, List.flatten_cons, List.flatten_cons, List.count_append,
              List.count_append, hcell, ih (by simpa using h)]
  have hbar : [pipe].count newline = 0 := by decide
  rw [cellsLine, List.count_append, hzip, hbar, Nat.zero_add]

end Lines

/-! ## The widths -/

section Widths

variable {query : QueryResult} {widths : List Nat} {cells row : List Bytes}

@[simp] theorem length_widen (widths : List Nat) (row : List Bytes) :
    (widen widths row).length = widths.length := by
  simp [widen]

theorem getElem?_widen (widths : List Nat) (row : List Bytes) (i : Nat) :
    (widen widths row)[i]? = widths[i]?.map fun width => max (row.getD i []).length width := by
  unfold widen
  rw [List.getElem?_mapIdx]
  congr 1
  funext width
  simp only
  split
  · omega
  · omega

/-- The width of a column is the longest of its header and its cells. -/
theorem columnWidths_eq (query : QueryResult) :
    columnWidths query = (List.range query.columns.length).map query.longest := by
  have hfold : ∀ (rows : List (List Bytes)) (widths : List Nat) (i : Nat),
      (rows.foldl widen widths)[i]? = widths[i]?.map fun width =>
        max width (rows.foldr (fun row longest => max (row.getD i []).length longest) 0) := by
    intro rows
    induction rows with
    | nil =>
        intro widths i
        simp
    | cons row rows ih =>
        intro widths i
        rw [List.foldl_cons, ih, getElem?_widen, Option.map_map]
        congr 1
        funext width
        simp only [Function.comp, List.foldr_cons]
        omega
  apply List.ext_getElem?
  intro i
  unfold columnWidths
  rw [hfold, List.getElem?_map, List.getElem?_map]
  by_cases hi : i < query.columns.length
  · rw [List.getElem?_eq_getElem hi, List.getElem?_range hi]
    simp [QueryResult.longest, hi]
  · rw [List.getElem?_eq_none (by omega), List.getElem?_eq_none (by simp; omega)]
    rfl

theorem length_columnWidths (query : QueryResult) :
    (columnWidths query).length = query.columns.length := by
  rw [columnWidths_eq]
  simp

theorem le_longest {row : List Bytes} (h : row ∈ query.columns :: query.rows) (i : Nat) :
    (row.getD i []).length ≤ query.longest i := by
  unfold QueryResult.longest
  generalize query.columns :: query.rows = rows at h ⊢
  induction rows with
  | nil => simp at h
  | cons first rest ih =>
      rw [List.foldr_cons]
      rcases List.mem_cons.mp h with rfl | h
      · omega
      · have := ih h
        omega

/-- The widths are wide enough for the header and for every row. -/
theorem fits_columnWidths {row : List Bytes} (h : row ∈ query.columns :: query.rows)
    (hlength : row.length = query.columns.length) : Fits (columnWidths query) row := by
  unfold Fits
  rw [List.forall₂_iff_get]
  refine ⟨by rw [length_columnWidths, hlength], ?_⟩
  intro i hi hi'
  have hle := le_longest h i
  simpa [columnWidths_eq, hi'] using hle

theorem totalWidth_columnWidths (query : QueryResult) :
    1 + totalWidth (columnWidths query) = query.lineLength := by
  rw [columnWidths_eq, totalWidth, QueryResult.lineLength, List.map_map]
  rfl

end Widths

/-! ## The table -/

/-- The number of rows, as the last line says it. -/
def countLine (query : QueryResult) : Bytes :=
  ascii "(" ++ decimal query.rows.length ++ ascii " rows)"

theorem newline_not_mem_decimal (n : Nat) : newline ∉ decimal n := by
  intro hmem
  obtain ⟨c, hc, heq⟩ := List.mem_map.mp hmem
  have hdigit := Nat.isDigit_of_mem_toDigits (by decide) (by decide) hc
  simp only [Char.isDigit, Bool.and_eq_true, decide_eq_true_eq, ge_iff_le,
    UInt32.le_iff_toNat_le] at hdigit
  have hbyte : c.val.toNat % 2 ^ 8 = 10 := by
    have hnat := congrArg UInt8.toNat heq
    rwa [Char.toUInt8, UInt32.toNat_toUInt8] at hnat
  have hlow : '0'.val.toNat = 48 := rfl
  have hhigh : '9'.val.toNat = 57 := rfl
  omega

theorem newline_not_mem_countLine (query : QueryResult) : newline ∉ countLine query := by
  intro hmem
  rcases List.mem_append.mp hmem with hmem | hmem
  · rcases List.mem_append.mp hmem with hmem | hmem
    · exact absurd hmem (by decide)
    · exact newline_not_mem_decimal query.rows.length hmem
  · exact absurd hmem (by decide)

/-- The lines of a printed table but the last, were every cell on one line. -/
def tableBody (query : QueryResult) : List Bytes :=
  separatorLine (columnWidths query) :: cellsLine (columnWidths query) query.columns ::
    separatorLine (columnWidths query) :: query.rows.map (cellsLine (columnWidths query)) ++
      [separatorLine (columnWidths query)]

/-- The lines of a printed table. -/
def tableLines (query : QueryResult) : List Bytes := tableBody query ++ [countLine query]

section Table

variable {query : QueryResult}

theorem printExecutionResult_eq (h : ∀ row ∈ query.rows, row.length = query.columns.length) :
    printExecutionResult (.select query) =
      (tableLines query).flatMap fun line => line ++ [newline] := by
  have hwidths := length_columnWidths query
  have hrows : query.rows.flatMap (printCells (columnWidths query)) =
      (query.rows.map (cellsLine (columnWidths query))).flatMap fun line =>
        line ++ [newline] := by
    rw [List.flatMap_map]
    apply List.flatMap_congr
    intro row hrow
    exact printCells_eq ((h row hrow).trans hwidths.symm)
  unfold printExecutionResult tableLines tableBody
  simp only [printSeparator_eq, printCells_eq hwidths.symm, hrows, countLine, List.flatMap_cons,
    List.flatMap_append, List.flatMap_nil, List.append_assoc, List.append_nil]

theorem count_newline_lines (lines : List Bytes) :
    (lines.flatMap fun line => line ++ [newline]).count newline =
      lines.length + lines.flatten.count newline := by
  induction lines with
  | nil => rfl
  | cons line lines ih =>
      have hone : [newline].count newline = 1 := by decide
      rw [List.flatMap_cons, List.count_append, List.count_append, ih, hone, List.flatten_cons,
        List.count_append, List.length_cons]
      omega

/-- A well shaped table has as many newlines as lines. -/
theorem WellShaped.count_newline {printed : Bytes} (h : WellShaped query printed) :
    printed.count newline = query.rows.length + 5 := by
  obtain ⟨lines, rfl, hlines, hlength, -⟩ := h
  have hnone : lines.flatten.count newline = 0 := by
    rw [List.count_eq_zero]
    intro hmem
    obtain ⟨line, hline, hmem⟩ := List.mem_flatten.mp hmem
    exact hlines line hline hmem
  rw [count_newline_lines, hnone, hlength, Nat.add_zero]

/-- Beyond those of its lines a printed table has the newlines of its cells. -/
theorem count_newline_tableLines (h : ∀ row ∈ query.rows, row.length = query.columns.length) :
    (tableLines query).flatten.count newline =
      (query.columns :: query.rows).flatten.flatten.count newline := by
  have hwidths := length_columnWidths query
  have hseparator : (separatorLine (columnWidths query)).count newline = 0 :=
    List.count_eq_zero.mpr (newline_not_mem_separatorLine _)
  have hcount : (countLine query).count newline = 0 :=
    List.count_eq_zero.mpr (newline_not_mem_countLine query)
  have hrows : ∀ rows : List (List Bytes),
      (∀ row ∈ rows, row.length = query.columns.length) →
      (rows.map (cellsLine (columnWidths query))).flatten.count newline =
        rows.flatten.flatten.count newline := by
    intro rows
    induction rows with
    | nil => exact fun _ => rfl
    | cons row rows ih =>
        intro hlengths
        obtain ⟨hrow, hrest⟩ := List.forall_mem_cons.mp hlengths
        rw [List.map_cons, List.flatten_cons, List.count_append,
          count_newline_cellsLine (hrow.trans hwidths.symm), ih hrest, List.flatten_cons,
          List.flatten_append, List.count_append]
  unfold tableLines tableBody
  simp only [List.cons_append, List.flatten_cons, List.flatten_append, List.flatten_nil,
    List.count_append, hseparator, hcount, hrows query.rows h,
    count_newline_cellsLine hwidths.symm, List.count_nil, Nat.add_zero, Nat.zero_add]

theorem length_of_mem_tableBody (h : ∀ row ∈ query.rows, row.length = query.columns.length)
    {line : Bytes} (hline : line ∈ tableBody query) : line.length = query.lineLength := by
  rw [← totalWidth_columnWidths]
  have hheader := length_cellsLine (@fits_columnWidths query _ List.mem_cons_self rfl)
  simp only [tableBody, List.cons_append, List.mem_cons, List.mem_append, List.not_mem_nil,
    or_false] at hline
  rcases hline with rfl | rfl | rfl | hline | rfl
  · exact length_separatorLine _
  · exact hheader
  · exact length_separatorLine _
  · obtain ⟨row, hrow, rfl⟩ := List.mem_map.mp hline
    exact length_cellsLine (fits_columnWidths (List.mem_cons_of_mem _ hrow) (h row hrow))
  · exact length_separatorLine _

/-- A rectangular table is well shaped exactly when none of its cells holds a newline. -/
theorem wellShaped_iff (h : ∀ row ∈ query.rows, row.length = query.columns.length) :
    WellShaped query (printExecutionResult (.select query)) ↔
      ∀ row ∈ query.columns :: query.rows, ∀ cell ∈ row, newline ∉ cell := by
  have hcells : (∀ row ∈ query.columns :: query.rows, ∀ cell ∈ row, newline ∉ cell) ↔
      (tableLines query).flatten.count newline = 0 := by
    rw [count_newline_tableLines h, List.count_eq_zero]
    simp only [List.mem_flatten, not_exists, not_and, forall_exists_index, and_imp]
    exact ⟨fun hall cell row hrow hcell => hall row hrow cell hcell,
      fun hall row hrow cell hcell => hall cell row hrow hcell⟩
  have hlines : (tableLines query).length = query.rows.length + 5 := by
    simp [tableLines, tableBody]
  rw [hcells]
  constructor
  · intro hshaped
    have hcount := hshaped.count_newline
    rw [printExecutionResult_eq h, count_newline_lines, hlines] at hcount
    omega
  · intro hnone
    refine ⟨tableLines query, printExecutionResult_eq h, ?_, hlines, ?_⟩
    · intro line hline hmem
      exact List.count_eq_zero.mp hnone (List.mem_flatten.mpr ⟨line, hline, hmem⟩)
    · intro line hline
      rw [tableLines, List.dropLast_concat] at hline
      exact length_of_mem_tableBody h hline

end Table

/-- The table printed for a SELECT that succeeds is well shaped exactly when no header and
no cell of it holds a newline. -/
theorem printExecutionResult_wellShaped_iff (dbRoot : Bytes) (statement : SelectStatement)
    (files : FileSystem) (h : (runSelectQuery dbRoot statement files).result = .ok ()) :
    let query := (runSelectQuery dbRoot statement files).query
    WellShaped query (printExecutionResult (.select query)) ↔
      ∀ row ∈ query.columns :: query.rows, ∀ cell ∈ row, newline ∉ cell := by
  intro query
  obtain ⟨hok, hquery, -⟩ := runSelectQuery_exact dbRoot statement files
  obtain ⟨table, indexes, hload, hselected, -⟩ := hok.mp h
  exact wellShaped_iff (hquery h table indexes hload hselected).2.2

/-- A table of two columns, the second one as wide as its header. -/
theorem printExecutionResult_wellShaped :
    let files : FileSystem := fun path =>
      if path = ascii "db/t.schema" then some (ascii "a|long")
      else if path = ascii "db/t.data" then some (ascii "1|2\n") else none
    let query := (runSelectQuery (ascii "db") ⟨⟨none, some (ascii "t")⟩, true, [], none⟩
      files).query
    WellShaped query (printExecutionResult (.select query)) := by
  intro files query
  refine (printExecutionResult_wellShaped_iff (ascii "db") _ files (by decide +kernel)).mpr ?_
  have hquery : query = ⟨[ascii "a", ascii "long"], [[ascii "1", ascii "2"]]⟩ := by
    decide +kernel
  show ∀ row ∈ query.columns :: query.rows, ∀ cell ∈ row, newline ∉ cell
  rw [hquery]
  decide +kernel

/-- A value with a newline, escaped in its file, is printed over two lines. -/
theorem printExecutionResult_breaks_line :
    let files : FileSystem := fun path =>
      if path = ascii "db/t.schema" then some (ascii "c")
      else if path = ascii "db/t.data" then some (ascii "a\\nb\n") else none
    let outcome := runSelectQuery (ascii "db") ⟨⟨none, some (ascii "t")⟩, true, [], none⟩ files
    outcome.result = .ok () ∧ outcome.query = ⟨[ascii "c"], [[ascii "a\nb"]]⟩ ∧
      printExecutionResult (.select outcome.query) =
        ascii "+-----+\n| c   |\n+-----+\n| a\nb |\n+-----+\n(1 rows)\n" ∧
      ¬ WellShaped outcome.query (printExecutionResult (.select outcome.query)) := by
  intro files outcome
  have hquery : outcome.query = ⟨[ascii "c"], [[ascii "a\nb"]]⟩ := by decide +kernel
  have hprinted : printExecutionResult (.select outcome.query) =
      ascii "+-----+\n| c   |\n+-----+\n| a\nb |\n+-----+\n(1 rows)\n" := by
    rw [hquery]
    decide +kernel
  refine ⟨by decide +kernel, hquery, hprinted, ?_⟩
  intro h
  have hcount := h.count_newline
  rw [hprinted, hquery] at hcount
  exact absurd hcount (by decide +kernel)

end MiniSql
