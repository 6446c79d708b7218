import MiniSql.Program.Main

set_option autoImplicit false

/-!
# Tables do not meet

A word holds neither a slash nor a dot, so different names have different stems
and a path is one or two words below the database root.  A statement reads and
writes the two files of its own table only.
-/

namespace MiniSql

open Foundation

/-- A name that some script writes. -/
def Parsable (name : QualifiedName) : Prop :=
  ∃ source, NulFree source ∧ (parseSqlScript source).result = .ok () ∧
    ∃ statement ∈ (parseSqlScript source).script, statement.target = name

theorem Parsable.qualified {name : QualifiedName} (h : Parsable name) :
    ∃ table : TableName, name = table.qualified := by
  obtain ⟨source, hsource, hparse, statement, hmem, rfl⟩ := h
  exact (parseSqlScript_written hsource hparse statement hmem).target

/-! ## Paths -/

theorem IsWord.ne_nil {word : Bytes} (h : IsWord word) : word ≠ [] := by
  cases h with
  | mk => simp

theorem IsWord.slash_not_mem {word : Bytes} (h : IsWord word) : slash ∉ word := by
  intro hmem
  exact absurd (h.bytes slash hmem) (by decide)

/-- A file of a table, one or two words below the root. -/
inductive FileBelow (dbRoot extension : Bytes) : Bytes → Prop
  | table {table : Bytes} (htable : IsWord table) :
      FileBelow dbRoot extension (dbRoot ++ [slash] ++ table ++ extension)
  | schemaTable {schema table : Bytes} (hschema : IsWord schema) (htable : IsWord table) :
      FileBelow dbRoot extension
        (dbRoot ++ [slash] ++ schema ++ [slash] ++ table ++ extension)

section Paths

variable {dbRoot : Bytes}

theorem TableName.table_ne_nil (name : TableName) : name.qualified.table.getD [] ≠ [] :=
  name.table.property.ne_nil

/-- What stands below the root, up to the extension. -/
def TableName.below (name : TableName) : Bytes :=
  match name.schema with
  | none => name.table.val
  | some schema => schema.val ++ slash :: name.table.val

theorem TableName.stem_eq (name : TableName) :
    name.qualified.stem dbRoot = dbRoot ++ [slash] ++ name.below := by
  obtain ⟨schema, table⟩ := name
  cases schema with
  | none => simp [QualifiedName.stem, TableName.qualified, TableName.below]
  | some schema =>
      have hne := schema.property.ne_nil
      simp [QualifiedName.stem, TableName.qualified, TableName.below, hne]

theorem TableName.fileBelow (name : TableName) (extension : Bytes) :
    FileBelow dbRoot extension (name.qualified.stem dbRoot ++ extension) := by
  rw [name.stem_eq]
  obtain ⟨schema, table⟩ := name
  cases schema with
  | none => exact .table table.property
  | some schema =>
      have h : FileBelow dbRoot extension
          (dbRoot ++ [slash] ++ schema.val ++ [slash] ++ table.val ++ extension) :=
        .schemaTable schema.property table.property
      simpa [TableName.below] using h

theorem TableName.below_injective {a b : TableName} (h : a.below = b.below) : a = b := by
  obtain ⟨schemaA, tableA⟩ := a
  obtain ⟨schemaB, tableB⟩ := b
  cases schemaA with
  | none =>
      cases schemaB with
      | none =>
          obtain rfl : tableA = tableB := Subtype.ext h
          rfl
      | some schema =>
          have hmem : slash ∈ tableA.val := by
            rw [show tableA.val = schema.val ++ slash :: tableB.val from h]
            simp
          exact absurd hmem tableA.property.slash_not_mem
  | some schemaA =>
      cases schemaB with
      | none =>
          have hmem : slash ∈ tableB.val := by
            rw [show tableB.val = schemaA.val ++ slash :: tableA.val from h.symm]
            simp
          exact absurd hmem tableB.property.slash_not_mem
      | some schemaB =>
          obtain ⟨hschema, htable⟩ := append_separator_inj
            schemaA.property.slash_not_mem schemaB.property.slash_not_mem h
          obtain rfl : schemaA = schemaB := Subtype.ext hschema
          obtain rfl : tableA = tableB := Subtype.ext htable
          rfl

/-- Different names have different stems. -/
theorem TableName.stem_injective {a b : TableName}
    (h : a.qualified.stem dbRoot = b.qualified.stem dbRoot) : a = b := by
  rw [a.stem_eq, b.stem_eq] at h
  exact TableName.below_injective (List.append_cancel_left h)

theorem TableName.dataPath_injective {a b : TableName}
    (h : a.qualified.dataPath dbRoot = b.qualified.dataPath dbRoot) : a = b :=
  TableName.stem_injective (List.append_cancel_right h)

theorem TableName.schemaPath_injective {a b : TableName}
    (h : a.qualified.schemaPath dbRoot = b.qualified.schemaPath dbRoot) : a = b :=
  TableName.stem_injective (List.append_cancel_right h)

end Paths

/-! ## Effects -/

/-- A SELECT looks at the two files of its table only. -/
theorem runSelectQuery_congr {dbRoot : Bytes} {statement : SelectStatement}
    {files files' : FileSystem}
    (hschema : files (statement.source.schemaPath dbRoot) =
      files' (statement.source.schemaPath dbRoot))
    (hdata : files (statement.source.dataPath dbRoot) =
      files' (statement.source.dataPath dbRoot)) :
    (runSelectQuery dbRoot statement files).result =
        (runSelectQuery dbRoot statement files').result ∧
      (runSelectQuery dbRoot statement files).query =
        (runSelectQuery dbRoot statement files').query := by
  unfold runSelectQuery
  rw [loadTableDefinition_congr hschema]
  cases hload : loadTableDefinition dbRoot statement.source files' with
  | error e => exact ⟨rfl, rfl⟩
  | ok table =>
      simp only [content_ensureDataFile]
      have hcontent : files.content table.dataPath = files'.content table.dataPath := by
        rw [(loadTableDefinition_paths hload).2]
        simp only [FileSystem.content, hdata]
      cases prepareColumns table.columns statement with
      | error e => exact ⟨rfl, rfl⟩
      | ok prepared =>
          cases prepareWhere table.columns statement.where_ with
          | error e => exact ⟨rfl, rfl⟩
          | ok test =>
              simp only [hcontent]
              cases selectRows table.columns.length prepared.1 test
                  (readRecords (files'.content table.dataPath)) [] with
              | error e => exact ⟨rfl, rfl⟩
              | ok rows => exact ⟨rfl, rfl⟩

/-- Two different names a script can write have four different files, all below
the root and none with its name cut.  A statement on one of the tables leaves
both files of the other and its own schema file as they are, and every SELECT on
the other table answers the same before and after it. -/
theorem tables_isolated (dbRoot : Bytes) (a b : QualifiedName) (ha : Parsable a)
    (hb : Parsable b) (hne : a ≠ b) :
    ∃ schemaA dataA schemaB dataB : Bytes,
      buildTablePaths dbRoot a = .ok (schemaA, dataA) ∧
        buildTablePaths dbRoot b = .ok (schemaB, dataB) ∧
        FileBelow dbRoot (ascii ".schema") schemaA ∧ FileBelow dbRoot (ascii ".data") dataA ∧
        FileBelow dbRoot (ascii ".schema") schemaB ∧ FileBelow dbRoot (ascii ".data") dataB ∧
        [schemaA, dataA, schemaB, dataB].Nodup ∧
        ∀ (statement : Statement) (files : FileSystem), statement.target = a →
          let files' := (executeStatement dbRoot statement files).2
          files' schemaA = files schemaA ∧ files' schemaB = files schemaB ∧
            files' dataB = files dataB ∧
            ∀ query : SelectStatement, query.source = b →
              (runSelectQuery dbRoot query files').result =
                  (runSelectQuery dbRoot query files).result ∧
                (runSelectQuery dbRoot query files').query =
                  (runSelectQuery dbRoot query files).query := by
  obtain ⟨nameA, rfl⟩ := ha.qualified
  obtain ⟨nameB, rfl⟩ := hb.qualified
  have hnames : nameA ≠ nameB := fun h => hne (congrArg TableName.qualified h)
  have hschemas : nameA.qualified.schemaPath dbRoot ≠ nameB.qualified.schemaPath dbRoot :=
    fun h => hnames (TableName.schemaPath_injective h)
  have hdatas : nameA.qualified.dataPath dbRoot ≠ nameB.qualified.dataPath dbRoot :=
    fun h => hnames (TableName.dataPath_injective h)
  refine ⟨_, _, _, _, buildTablePaths_eq nameA.table_ne_nil,
    buildTablePaths_eq nameB.table_ne_nil, nameA.fileBelow _, nameA.fileBelow _,
    nameB.fileBelow _, nameB.fileBelow _, ?_, ?_⟩
  · simp only [List.nodup_cons, List.mem_cons, List.not_mem_nil, or_false, not_or,
      not_false_eq_true, List.nodup_nil, and_true]
    refine ⟨⟨?_, hschemas, ?_⟩, ⟨?_, hdatas⟩, ?_⟩
    · exact (dataPath_ne_schemaPath _ _).symm
    · exact (dataPath_ne_schemaPath _ _).symm
    · exact dataPath_ne_schemaPath _ _
    · exact (dataPath_ne_schemaPath _ _).symm
  · intro statement files htarget files'
    have hdataB : files' (nameB.qualified.dataPath dbRoot) =
        files (nameB.qualified.dataPath dbRoot) := by
      apply executeStatement_frame
      rw [htarget]
      exact hdatas.symm
    have hschemaB : files' (nameB.qualified.schemaPath dbRoot) =
        files (nameB.qualified.schemaPath dbRoot) :=
      executeStatement_schema statement nameB.qualified
    refine ⟨executeStatement_schema statement _, hschemaB, hdataB, ?_⟩
    intro query hquery
    apply runSelectQuery_congr
    · rw [hquery]
      exact hschemaB
    · rw [hquery]
      exact hdataB

/-- A table and a table of the same name in a schema. -/
theorem tables_isolated_same_table :
    let plain : QualifiedName := ⟨none, some (ascii "t")⟩
    let inSchema : QualifiedName := ⟨some (ascii "s"), some (ascii "t")⟩
    ∃ schemaA dataA schemaB dataB : Bytes,
      buildTablePaths (ascii "db") plain = .ok (schemaA, dataA) ∧
        buildTablePaths (ascii "db") inSchema = .ok (schemaB, dataB) ∧
        [schemaA, dataA, schemaB, dataB].Nodup := by
  intro plain inSchema
  have hplain : Parsable plain :=
    ⟨ascii "SELECT * FROM t", by decide, by decide +kernel,
      .select ⟨plain, true, [], none⟩, by decide +kernel, rfl⟩
  have hinSchema : Parsable inSchema :=
    ⟨ascii "SELECT * FROM s.t", by decide, by decide +kernel,
      .select ⟨inSchema, true, [], none⟩, by decide +kernel, rfl⟩
  obtain ⟨schemaA, dataA, schemaB, dataB, hpathsA, hpathsB, -, -, -, -, hnodup, -⟩ :=
    tables_isolated (ascii "db") plain inSchema hplain hinSchema (by decide)
  exact ⟨schemaA, dataA, schemaB, dataB, hpathsA, hpathsB, hnodup⟩

end MiniSql
