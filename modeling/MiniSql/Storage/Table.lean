import MiniSql.Parser.Source
import MiniSql.Storage.Files
import MiniSql.Storage.Row

set_option autoImplicit false

/-!
# Tables (`build_table_paths`, `find_column_index`, `load_table_definition`)

A table is two files beside each other, `stem.schema` and `stem.data`.  The two
buffers `build_table_paths` formats into are exactly large enough, so no path is
cut (`buildTablePaths_eq`).  Column positions are `int`s in the source and
natural numbers here: a schema of 2^31 columns is out of reach.
-/

namespace MiniSql

/-- `build_table_paths`: the schema path and the data path. -/
def buildTablePaths (dbRoot : Bytes) (name : QualifiedName) :
    Except SqlError (Bytes × Bytes) :=
  -- a NULL pointer and an empty string are treated alike in both tests
  let schema := name.schema.getD []
  let table := name.table.getD []
  if table = [] then .error .tableNameEmpty
  else if schema ≠ [] then
    let schemaLength :=
      dbRoot.length + schema.length + table.length + (ascii ".schema").length + 3
    let dataLength :=
      dbRoot.length + schema.length + table.length + (ascii ".data").length + 3
    .ok (snprintf schemaLength
          (dbRoot ++ [slash] ++ schema ++ [slash] ++ table ++ ascii ".schema"),
        snprintf dataLength
          (dbRoot ++ [slash] ++ schema ++ [slash] ++ table ++ ascii ".data"))
  else
    let schemaLength := dbRoot.length + table.length + (ascii ".schema").length + 2
    let dataLength := dbRoot.length + table.length + (ascii ".data").length + 2
    .ok (snprintf schemaLength (dbRoot ++ [slash] ++ table ++ ascii ".schema"),
        snprintf dataLength (dbRoot ++ [slash] ++ table ++ ascii ".data"))

/-- What the two paths of a table have in common. -/
def QualifiedName.stem (name : QualifiedName) (dbRoot : Bytes) : Bytes :=
  if name.schema.getD [] = [] then dbRoot ++ [slash] ++ name.table.getD []
  else dbRoot ++ [slash] ++ name.schema.getD [] ++ [slash] ++ name.table.getD []

/-- The name of a table's schema file. -/
def QualifiedName.schemaPath (name : QualifiedName) (dbRoot : Bytes) : Bytes :=
  name.stem dbRoot ++ ascii ".schema"

/-- The name of a table's data file. -/
def QualifiedName.dataPath (name : QualifiedName) (dbRoot : Bytes) : Bytes :=
  name.stem dbRoot ++ ascii ".data"

section Paths

variable {dbRoot : Bytes} {name : QualifiedName}

theorem snprintf_of_length_lt {size : Nat} {text : Bytes} (h : text.length < size) :
    snprintf size text = text := by
  unfold snprintf
  exact List.take_of_length_le (by omega)

theorem buildTablePaths_error (h : name.table.getD [] = []) :
    buildTablePaths dbRoot name = .error .tableNameEmpty := by
  simp [buildTablePaths, h]

/-- Neither path is cut. -/
theorem buildTablePaths_eq (h : name.table.getD [] ≠ []) :
    buildTablePaths dbRoot name = .ok (name.schemaPath dbRoot, name.dataPath dbRoot) := by
  unfold buildTablePaths QualifiedName.schemaPath QualifiedName.dataPath QualifiedName.stem
  by_cases hschema : name.schema.getD [] = []
  · simp only [h, if_false, hschema, ne_eq, not_true_eq_false, if_true]
    rw [snprintf_of_length_lt, snprintf_of_length_lt]
    · simp only [List.length_append, List.length_singleton]
      omega
    · simp only [List.length_append, List.length_singleton]
      omega
  · simp only [h, if_false, hschema, ne_eq, not_false_eq_true, if_true]
    rw [snprintf_of_length_lt, snprintf_of_length_lt]
    · simp only [List.length_append, List.length_singleton]
      omega
    · simp only [List.length_append, List.length_singleton]
      omega

/-- No data path is a schema path, whatever the tables. -/
theorem dataPath_ne_schemaPath (other : QualifiedName) (otherRoot : Bytes) :
    name.dataPath dbRoot ≠ other.schemaPath otherRoot := by
  intro h
  -- the bytes in front of the last three differ
  have hdata : (name.dataPath dbRoot).reverse.take 4 = (ascii "data").reverse := by
    unfold QualifiedName.dataPath
    rw [List.reverse_append, List.take_append_of_le_length (by decide)]
    decide
  have hschema : (other.schemaPath otherRoot).reverse.take 4 = (ascii "hema").reverse := by
    unfold QualifiedName.schemaPath
    rw [List.reverse_append, List.take_append_of_le_length (by decide)]
    decide
  rw [h, hschema] at hdata
  exact absurd hdata (by decide)

/-- Two tables with one data file have one schema file. -/
theorem schemaPath_eq_of_dataPath_eq {other : QualifiedName}
    (h : name.dataPath dbRoot = other.dataPath dbRoot) :
    name.schemaPath dbRoot = other.schemaPath dbRoot := by
  unfold QualifiedName.schemaPath
  rw [List.append_cancel_right h]

end Paths

/-! ## Columns -/

/-- `find_column_index`; -1 is `none`. -/
def findColumnIndex (columns : List Bytes) (name : Bytes) : Option Nat :=
  columns.findIdx? fun column => sqlStricmp column name == 0

/-- The position is that of the first column equal to the name up to letter case. -/
def Resolves (columns : List Bytes) (name : Bytes) (i : Nat) : Prop :=
  (∃ column, columns[i]? = some column ∧ sqlStricmp column name = 0) ∧
    ∀ j column, j < i → columns[j]? = some column → sqlStricmp column name ≠ 0

theorem findColumnIndex_eq_some_iff {columns : List Bytes} {name : Bytes} {i : Nat} :
    findColumnIndex columns name = some i ↔ Resolves columns name i := by
  unfold findColumnIndex Resolves
  rw [List.findIdx?_eq_some_iff_getElem]
  constructor
  · intro h
    obtain ⟨hi, hcolumn, hfirst⟩ := h
    refine ⟨⟨columns[i], List.getElem?_eq_getElem hi, by simpa using hcolumn⟩, ?_⟩
    intro j column hj hget
    obtain ⟨hlt, rfl⟩ := List.getElem?_eq_some_iff.mp hget
    simpa using hfirst j hj
  · intro h
    obtain ⟨⟨column, hget, hcolumn⟩, hfirst⟩ := h
    obtain ⟨hi, rfl⟩ := List.getElem?_eq_some_iff.mp hget
    refine ⟨hi, by simpa using hcolumn, ?_⟩
    intro j hj
    have hlt : j < columns.length := Nat.lt_trans hj hi
    simpa using hfirst j columns[j] hj (List.getElem?_eq_getElem hlt)

theorem findColumnIndex_lt {columns : List Bytes} {name : Bytes} {i : Nat}
    (h : findColumnIndex columns name = some i) : i < columns.length := by
  obtain ⟨⟨_, hget, _⟩, _⟩ := findColumnIndex_eq_some_iff.mp h
  exact (List.getElem?_eq_some_iff.mp hget).1

/-- A name is looked up only up to letter case. -/
theorem findColumnIndex_congr {columns : List Bytes} {name name' : Bytes}
    (h : foldCase name = foldCase name') :
    findColumnIndex columns name = findColumnIndex columns name' := by
  unfold findColumnIndex
  congr 1
  funext column
  rw [sqlStricmp_congr_right h]

/-! ## Loading a table -/

/-- `TableDefinition`.  A table without a column, or whose only column has no
name, is not loaded. -/
structure TableDefinition where
  name : QualifiedName
  columns : List Bytes
  schemaPath : Bytes
  dataPath : Bytes
  accepted : columns ≠ [] ∧ columns ≠ [[]]

/-- `load_table_definition`. -/
def loadTableDefinition (dbRoot : Bytes) (name : QualifiedName) (files : FileSystem) :
    Except SqlError TableDefinition :=
  match buildTablePaths dbRoot name with
  | .error e => .error e
  | .ok (schemaPath, dataPath) =>
      match readTextFile schemaPath files with
      | .error e => .error e
      | .ok schemaContent =>
          let columns := splitPipeLine schemaContent
          if h : columns = [] ∨ columns = [[]] then .error (.schemaFileEmpty none)
          else .ok ⟨name, columns, schemaPath, dataPath, not_or.mp h⟩

section Load

variable {dbRoot : Bytes} {name : QualifiedName} {files files' : FileSystem}
  {table : TableDefinition}

/-- Loading a table reads its schema file and nothing else. -/
theorem loadTableDefinition_congr
    (h : files (name.schemaPath dbRoot) = files' (name.schemaPath dbRoot)) :
    loadTableDefinition dbRoot name files = loadTableDefinition dbRoot name files' := by
  unfold loadTableDefinition
  by_cases htable : name.table.getD [] = []
  · simp only [buildTablePaths_error htable]
  · simp only [buildTablePaths_eq htable, readTextFile, h]

theorem loadTableDefinition_paths (h : loadTableDefinition dbRoot name files = .ok table) :
    table.schemaPath = name.schemaPath dbRoot ∧ table.dataPath = name.dataPath dbRoot := by
  unfold loadTableDefinition at h
  by_cases htable : name.table.getD [] = []
  · simp [buildTablePaths_error htable] at h
  · rw [buildTablePaths_eq htable] at h
    simp only at h
    split at h
    · simp at h
    · split at h
      · simp at h
      · rw [← Except.ok.inj h]
        exact ⟨rfl, rfl⟩

/-- The columns of a table are the fields of the first line of its schema file. -/
theorem loadTableDefinition_columns (h : loadTableDefinition dbRoot name files = .ok table) :
    ∃ content, files (name.schemaPath dbRoot) = some content ∧
      table.columns = splitPipeLine (cString content) := by
  unfold loadTableDefinition at h
  by_cases htable : name.table.getD [] = []
  · simp [buildTablePaths_error htable] at h
  · rw [buildTablePaths_eq htable] at h
    simp only [readTextFile] at h
    cases hfile : files (name.schemaPath dbRoot) with
    | none => simp [hfile] at h
    | some content =>
        simp only [hfile] at h
        split at h
        · simp at h
        · rw [← Except.ok.inj h]
          exact ⟨content, rfl, rfl⟩

/-- What is written to a data file concerns no schema. -/
theorem loadTableDefinition_appendTextFile
    (h : loadTableDefinition dbRoot name files = .ok table) (line : Bytes)
    (other : QualifiedName) :
    loadTableDefinition dbRoot other (appendTextFile table.dataPath line files) =
      loadTableDefinition dbRoot other files := by
  apply loadTableDefinition_congr
  apply appendTextFile_of_ne
  rw [(loadTableDefinition_paths h).2]
  exact (dataPath_ne_schemaPath other dbRoot).symm

/-- A schema file whose first line names a column is accepted. -/
theorem loadTableDefinition_of_file (content : Bytes) (htable : name.table.getD [] ≠ [])
    (hfile : files (name.schemaPath dbRoot) = some content)
    (haccepted : splitPipeLine (cString content) ≠ [] ∧
      splitPipeLine (cString content) ≠ [[]]) :
    ∃ table, loadTableDefinition dbRoot name files = .ok table ∧
      table.columns = splitPipeLine (cString content) ∧
      table.dataPath = name.dataPath dbRoot := by
  refine ⟨⟨name, splitPipeLine (cString content), name.schemaPath dbRoot,
    name.dataPath dbRoot, haccepted⟩, ?_, rfl, rfl⟩
  unfold loadTableDefinition
  rw [buildTablePaths_eq htable]
  simp only [readTextFile, hfile]
  rw [dif_neg (not_or.mpr haccepted)]

end Load

end MiniSql
