import Mathlib.Data.List.DropRight
import MiniSql.Foundation.Reader
import MiniSql.Program.Main
import MiniSql.Program.Printing

set_option autoImplicit false

/-!
# Reading what the program prints

A reader for the standard output of a run.  The first separator of a table tells its
widths, and with them every cell stands at a known place, whatever bytes it holds: a pipe
or a newline in a cell does not mislead the reader.  All that cannot be read back are the
blanks at the end of a cell.
-/

namespace MiniSql

open Foundation

/-! ## The reader -/

def plus : Byte := 0x2B

/-- Without the blanks at its end. -/
def trimRight (text : Bytes) : Bytes := text.rdropWhile (· == space)

/-- A result without the blanks at the ends of its cells. -/
def ExecutionResult.trimmed : ExecutionResult → ExecutionResult
  | .insert affectedRows => .insert affectedRows
  | .select query =>
      .select ⟨query.columns.map trimRight, query.rows.map fun row => row.map trimRight⟩

/-- The number that the digits are printed for. -/
def readDigits (digits : Bytes) : Nat :=
  Nat.ofDigitChars 10 (digits.map fun digit => Char.ofNat digit.toNat) 0

/-- The widths that a separator is printed for. -/
def readSeparator : Reader Byte (List Nat) := do
  expect (ascii "+")
  repeatTill (expect [newline]) do
    let dashes ← takeUntil plus
    pure (dashes.length - 2)

def readCell (width : Nat) : Reader Byte Bytes := do
  expect [space]
  let cell ← takeExactly width
  expect [space, pipe]
  pure (trimRight cell)

def readCells (widths : List Nat) : Reader Byte (List Bytes) := do
  expect [pipe]
  let cells ← widths.mapM readCell
  expect [newline]
  pure cells

def readTable : Reader Byte ExecutionResult := do
  let widths ← readSeparator
  let columns ← readCells widths
  expect (printSeparator widths)
  let rows ← repeatTill (expect (printSeparator widths)) (readCells widths)
  expect (ascii "(" ++ decimal rows.length ++ ascii " rows)" ++ [newline])
  pure (.select ⟨columns, rows⟩)

def readInsert : Reader Byte ExecutionResult := do
  expect (ascii "INSERT ")
  let digits ← takeUntil newline
  pure (.insert (readDigits digits))

/-- One printed result. -/
def readResult : Reader Byte ExecutionResult := fun ts =>
  if ts.head? = some plus then readTable ts else readInsert ts

/-- The results on a standard output, and nothing behind them. -/
def readResults (stdout : Bytes) : Option (List ExecutionResult) :=
  match repeatTill atEnd readResult stdout with
  | .ok (results, _) => some results
  | .error _ => none

/-! ## Parts of a table -/

theorem readDigits_decimal (n : Nat) : readDigits (decimal n) = n := by
  have hdigits : ∀ c ∈ Nat.toDigits 10 n, Char.ofNat c.toUInt8.toNat = c := by
    intro c hc
    have hdigit := Nat.isDigit_of_mem_toDigits (by decide) (by decide) hc
    simp only [Char.isDigit, Bool.and_eq_true, decide_eq_true_eq, ge_iff_le,
      UInt32.le_iff_toNat_le] at hdigit
    have hhigh : '9'.val.toNat = 57 := rfl
    have hbyte : c.toUInt8.toNat = c.toNat := by
      rw [Char.toUInt8, UInt32.toNat_toUInt8, Nat.mod_eq_of_lt (by omega)]
      rfl
    rw [hbyte, Char.ofNat_toNat]
  have hmap : (decimal n).map (fun digit => Char.ofNat digit.toNat) = Nat.toDigits 10 n := by
    unfold decimal
    rw [List.map_map]
    exact (List.map_congr_left hdigits).trans (List.map_id _)
  rw [readDigits, hmap, Nat.ofDigitChars_ten_toDigits]

/-- The blanks behind a cell are blanks at its end. -/
theorem trimRight_padRight (width : Nat) (cell : Bytes) :
    trimRight (padRight width cell) = trimRight cell := by
  unfold trimRight padRight
  induction width - cell.length with
  | zero => rw [List.replicate_zero, List.append_nil]
  | succ n ih =>
      rw [List.replicate_succ', ← List.append_assoc, List.rdropWhile_concat_pos _ _ _ (by simp),
        ih]

theorem reads_readSeparator (widths : List Nat) :
    Reads readSeparator (printSeparator widths) widths := by
  have hwidth : ∀ width ∈ widths,
      Reads (do
        let dashes ← takeUntil plus
        pure (dashes.length - 2)) (List.replicate (width + 2) minus ++ ascii "+") width := by
    intro width _
    have hplus : plus ∉ List.replicate (width + 2) minus := by
      intro hmem
      exact absurd (List.mem_replicate.mp hmem).2 (by decide)
    have h := (reads_takeUntil hplus).returning fun dashes => dashes.length - 2
    rwa [List.length_replicate, Nat.add_sub_cancel] at h
  have hmany := reads_repeatTill (v := id) hwidth
    (fun width _ => refuses_expect (by decide) _ _)
    (fun width _ => by simp [List.replicate_succ]) (reads_expect [newline])
  rw [List.map_id] at hmany
  unfold printSeparator
  rw [List.append_assoc]
  exact (reads_expect _).bind hmany

theorem reads_readCell {width : Nat} {cell : Bytes} (h : cell.length ≤ width) :
    Reads (readCell width) (printedCell width cell) (trimRight cell) := by
  have hlength : (padRight width cell).length = width := by
    simp [padRight, h]
  have hcell := reads_takeExactly (padRight width cell)
  rw [hlength] at hcell
  rw [← trimRight_padRight width cell, printedCell, List.append_assoc]
  exact (reads_expect _).bind (hcell.bind ((reads_expect _).returning _))

theorem reads_readCells {widths : List Nat} {cells : List Bytes} (h : Fits widths cells) :
    Reads (readCells widths) (printCells widths cells) (cells.map trimRight) := by
  have hcells := reads_mapM (h.imp fun _ _ => reads_readCell)
  rw [printCells_eq h.length_eq.symm, cellsLine, List.append_assoc]
  exact (reads_expect _).bind (hcells.bind ((reads_expect _).returning _))

/-! ## Results -/

/-- Every row of a result is as wide as its heading. -/
def ExecutionResult.Rectangular : ExecutionResult → Prop
  | .insert _ => True
  | .select query => ∀ row ∈ query.rows, row.length = query.columns.length

theorem reads_readTable {query : QueryResult}
    (h : (ExecutionResult.select query).Rectangular) :
    Reads readTable (printExecutionResult (.select query))
      (ExecutionResult.select query).trimmed := by
  have hcolumns := reads_readCells (@fits_columnWidths query _ List.mem_cons_self rfl)
  have hrow : ∀ row ∈ query.rows, Reads (readCells (columnWidths query))
      (printCells (columnWidths query) row) (row.map trimRight) := fun row hmem =>
    reads_readCells (fits_columnWidths (List.mem_cons_of_mem _ hmem) (h row hmem))
  have hrows := reads_repeatTill hrow (fun row _ => refuses_expect (by decide) _ _)
    (fun row _ => by simp [printCells]) (reads_expect (printSeparator (columnWidths query)))
  have hcount : Reads _ (ascii "(" ++ decimal query.rows.length ++ ascii " rows)" ++ [newline]) _ :=
    (reads_expect _).returning fun _ => (ExecutionResult.select query).trimmed
  have htext : printExecutionResult (.select query) =
      printSeparator (columnWidths query) ++ (printCells (columnWidths query) query.columns ++
        (printSeparator (columnWidths query) ++ (query.rows.flatMap
          (printCells (columnWidths query)) ++ printSeparator (columnWidths query) ++
            (ascii "(" ++ decimal query.rows.length ++ ascii " rows)" ++ [newline])))) := by
    simp only [printExecutionResult, List.append_assoc]
  rw [htext]
  unfold readTable
  refine (reads_readSeparator _).bind (hcolumns.bind ((reads_expect _).bind (hrows.bind ?_)))
  rwa [List.length_map]

theorem reads_readInsert (affectedRows : Nat) :
    Reads readInsert (printExecutionResult (.insert affectedRows)) (.insert affectedRows) := by
  have hdigits := (reads_takeUntil (newline_not_mem_decimal affectedRows)).returning
    fun digits => ExecutionResult.insert (readDigits digits)
  rw [readDigits_decimal] at hdigits
  rw [printExecutionResult, List.append_assoc]
  exact (reads_expect _).bind hdigits

theorem reads_readResult {result : ExecutionResult} (h : result.Rectangular) :
    Reads readResult (printExecutionResult result) result.trimmed := by
  intro rest
  cases result with
  | insert affectedRows => exact reads_readInsert affectedRows rest
  | select query => exact reads_readTable h rest

theorem printExecutionResult_ne_nil (result : ExecutionResult) :
    printExecutionResult result ≠ [] := by
  cases result with
  | insert affectedRows => simp [printExecutionResult]
  | select query => simp [printExecutionResult]

/-- Results printed one after the other are read back. -/
theorem readResults_print {results : List ExecutionResult}
    (h : ∀ result ∈ results, result.Rectangular) :
    readResults (results.flatMap printExecutionResult) =
      some (results.map ExecutionResult.trimmed) := by
  have hrefuses : ∀ result ∈ results, Refuses atEnd (printExecutionResult result) := by
    intro result _ rest
    obtain ⟨b, printed, hprinted⟩ := List.exists_cons_of_ne_nil
      (printExecutionResult_ne_nil result)
    rw [hprinted]
    rfl
  have hend : (atEnd [] : Except Unit (Unit × Bytes)) = .ok ((), []) := rfl
  have hread := repeatTill_eq (fun result hmem => reads_readResult (h result hmem)) hrefuses
    (fun result _ => printExecutionResult_ne_nil result) hend
  rw [List.append_nil] at hread
  unfold readResults
  rw [hread]

/-! ## Runs -/

section Runs

variable {dbRoot : Bytes} {files files' : FileSystem}

/-- What a statement answers is rectangular. -/
theorem executeStatement_rectangular {statement : Statement} {result : ExecutionResult}
    (h : executeStatement dbRoot statement files = (.ok result, files')) :
    result.Rectangular := by
  cases statement with
  | insert statement =>
      unfold executeStatement at h
      cases hresult : (appendInsertRow dbRoot statement 0 files).result with
      | error e => simp [hresult, Except.map] at h
      | ok =>
          simp only [hresult, Except.map, Prod.mk.injEq, Except.ok.injEq] at h
          rw [← h.1]
          trivial
  | select statement =>
      unfold executeStatement at h
      rcases runSelectQuery_cases dbRoot statement files with
        ⟨table, indexes, test, _, _, _, hout⟩ | ⟨_, e, hout⟩
      · simp only [hout, Except.map, Prod.mk.injEq, Except.ok.injEq] at h
        rw [← h.1]
        exact Relation.rectangular _
      · simp [hout, Except.map] at h

/-- The standard output of every run can be read back: it tells the answers of the
statements that succeeded, in order, cell by cell but for the blanks at the ends. -/
theorem runSource_stdout_readBack (dbRoot source : Bytes) (files : FileSystem) :
    readResults (runSource dbRoot source files).stdout =
      some ((runScript dbRoot (parseSqlScript source).script files).outputs.map
        ExecutionResult.trimmed) := by
  have hrectangular : ∀ result ∈ (runScript dbRoot (parseSqlScript source).script files).outputs,
      result.Rectangular :=
    runAll_outputs fun statement _ _ _ _ h => executeStatement_rectangular h
  rw [← readResults_print hrectangular]
  congr 1
  cases hparse : (parseSqlScript source).result with
  | ok => exact (runSource_of_ok dbRoot files hparse).2.1
  | error e =>
      rw [runSource_of_error dbRoot files hparse, parseSqlScript_failed (by simp [hparse])]
      rfl

end Runs

end MiniSql
