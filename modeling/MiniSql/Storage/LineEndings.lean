import MiniSql.Storage.ReadBack

set_option autoImplicit false

/-!
# Windows line endings

`split_pipe_line` skips a carriage return before it looks at anything else, so a
newline and a carriage return with a newline end a line alike.  The one place where
the extra byte could show is the buffer of `fgets`.
-/

namespace MiniSql

open Foundation

/-- Every newline as a carriage return and a newline. -/
def crlf (content : Bytes) : Bytes :=
  content.flatMap fun ch => if ch = newline then [carriageReturn, newline] else [ch]

/-- The files with Windows line endings in the schema file and the data file of a
table. -/
def withCrlf (dbRoot : Bytes) (name : QualifiedName) (files : FileSystem) : FileSystem :=
  fun path =>
    if path = name.schemaPath dbRoot ∨ path = name.dataPath dbRoot then (files path).map crlf
    else files path

/-! ## One line -/

section Bytes

variable {ch : Byte} {body rest : Bytes}

theorem crlf_newline : crlf (newline :: rest) = carriageReturn :: newline :: crlf rest := rfl

theorem crlf_cons (h : ch ≠ newline) : crlf (ch :: rest) = ch :: crlf rest := by
  simp [crlf, h]

theorem crlf_append (body rest : Bytes) : crlf (body ++ rest) = crlf body ++ crlf rest := by
  simp [crlf]

theorem crlf_of_not_mem (h : newline ∉ body) : crlf body = body := by
  induction body with
  | nil => rfl
  | cons ch body ih =>
      obtain ⟨hch, hbody⟩ := List.ne_and_not_mem_of_not_mem_cons h
      rw [crlf_cons (Ne.symm hch), ih hbody]

/-- The first byte behind a backslash ends an escape sequence, or none does. -/
theorem unescapeByte_crlf (h : unescapeByte ch = none) (rest : Bytes) :
    ∃ first more, crlf (ch :: rest) = first :: more ∧ unescapeByte first = none := by
  by_cases hch : ch = newline
  · subst hch
    exact ⟨carriageReturn, newline :: crlf rest, crlf_newline, by decide⟩
  · exact ⟨ch, crlf rest, crlf_cons hch, h⟩

/-- The C string is cut at the same NUL. -/
theorem cString_crlf (content : Bytes) : cString (crlf content) = crlf (cString content) := by
  induction content with
  | nil => rfl
  | cons ch content ih =>
      by_cases hzero : ch = 0
      · subst hzero
        rfl
      · have hcString : cString (ch :: content) = ch :: cString content := by
          simp [cString, hzero]
        rw [hcString]
        by_cases hch : ch = newline
        · subst hch
          rw [crlf_newline, crlf_newline, ← ih]
          rfl
        · rw [crlf_cons hch, crlf_cons hch, ← ih]
          simp [cString, hzero]

end Bytes

/-- `split_pipe_line` does not see the carriage returns. -/
theorem splitPipeFrom_crlf (buffer line : Bytes) :
    splitPipeFrom buffer (crlf line) = splitPipeFrom buffer line := by
  fun_induction splitPipeFrom buffer line with
  | case1 buffer => exact splitPipeFrom_nil
  | case2 buffer rest =>
      rw [crlf_newline, splitPipeFrom_carriageReturn, splitPipeFrom_newline]
  | case3 buffer rest hnewline ih =>
      rw [crlf_cons hnewline, splitPipeFrom_carriageReturn, ih]
  | case4 buffer rest hnewline hcr ih =>
      rw [crlf_cons hnewline, splitPipeFrom_pipe, ih]
  | case5 buffer hnewline hcr hpipe ih =>
      rw [crlf_cons hnewline]
      exact splitPipeFrom_backslash_nil.trans splitPipeFrom_nil.symm
  | case6 buffer next rest b hb hnewline hcr hpipe ih =>
      -- no escape sequence ends with a newline
      have hnext : next ≠ newline := by
        rintro rfl
        rw [show unescapeByte newline = none by decide] at hb
        simp at hb
      rw [crlf_cons hnewline, crlf_cons hnext, splitPipeFrom_backslash, hb]
      exact ih
  | case7 buffer next rest hnone hnewline hcr hpipe ih =>
      obtain ⟨first, more, hfirst, hfirstNone⟩ := unescapeByte_crlf hnone rest
      rw [hfirst] at ih
      rw [crlf_cons hnewline, hfirst, splitPipeFrom_backslash, hfirstNone]
      exact ih
  | case8 buffer ch rest hnewline hcr hpipe hbackslash ih =>
      rw [crlf_cons hnewline, splitPipeFrom_plain ⟨hnewline, hcr, hpipe, hbackslash⟩, ih]

theorem splitPipeLine_crlf (content : Bytes) :
    splitPipeLine (cString (crlf content)) = splitPipeLine (cString content) := by
  rw [cString_crlf]
  exact splitPipeFrom_crlf [] (cString content)

/-! ## The records of a file -/

/-- A line that leaves room for one byte more is one record either way. -/
theorem splitPipeLine_records_crlf {content : Bytes}
    (h : ∀ line ∈ fileLines content, line.length ≤ lineCapacity - 2) :
    (readRecords (crlf content)).map splitPipeLine =
      (readRecords content).map splitPipeLine := by
  induction hn : content.length using Nat.strong_induction_on generalizing content with
  | _ n ih =>
      by_cases hmem : newline ∈ content
      · obtain ⟨body, rest, rfl, hbody⟩ := List.eq_append_cons_of_mem hmem
        have hlines : fileLines (body ++ [newline] ++ rest) =
            (body ++ [newline]) :: fileLines rest :=
          IsLine.cut ⟨body, hbody, rfl⟩ rest
        have hsplit : body ++ newline :: rest = body ++ [newline] ++ rest := by simp
        rw [hsplit, hlines, List.forall_mem_cons] at h
        obtain ⟨hline, hrest⟩ := h
        rw [List.length_append, List.length_singleton, lineCapacity] at hline
        have hunended : Unended (· == newline) (body ++ [carriageReturn]) :=
          unended_iff.mpr (by simp [hbody, carriageReturn_ne_newline.symm])
        have hwindows : crlf (body ++ newline :: rest) =
            body ++ [carriageReturn] ++ [newline] ++ crlf rest := by
          rw [crlf_append, crlf_of_not_mem hbody, crlf_newline]
          simp
        have hfirst : cut recordFull (body ++ [carriageReturn] ++ [newline] ++ crlf rest) =
            (body ++ [carriageReturn] ++ [newline]) :: cut recordFull (crlf rest) :=
          cut_line hunended (by simp) (by simp [lineCapacity]; omega) _
        have hfirst' : cut recordFull (body ++ [newline] ++ rest) =
            (body ++ [newline]) :: cut recordFull rest :=
          cut_line (unended_iff.mpr hbody) (by simp) (by simp [lineCapacity]; omega) _
        have hrecord : body ++ [carriageReturn] ++ [newline] = crlf (body ++ [newline]) := by
          rw [crlf_append, crlf_of_not_mem hbody, List.append_assoc]
          rfl
        rw [hwindows, hsplit, readRecords, readRecords, hfirst, hfirst']
        simp only [List.map_cons]
        rw [hrecord, splitPipeLine_crlf]
        have hlength : rest.length < n := by
          rw [← hn, List.length_append, List.length_cons]
          omega
        have hrecords := ih rest.length hlength hrest rfl
        rw [readRecords, readRecords] at hrecords
        rw [hrecords]
      · rw [crlf_of_not_mem hmem]

/-- The loop of `run_select_query` reads a record only through `split_pipe_line`. -/
theorem selectRows_congr {columnCount : Nat} {indexes : List Nat}
    {test : Option (Nat × Bytes)} {records records' : List Bytes}
    (h : records'.map splitPipeLine = records.map splitPipeLine) (rows : List (List Bytes)) :
    selectRows columnCount indexes test records' rows =
      selectRows columnCount indexes test records rows := by
  induction records generalizing records' rows with
  | nil =>
      obtain rfl : records' = [] := by simpa using h
      rfl
  | cons record records ih =>
      obtain ⟨record', records', rfl, hrecord, hrecords⟩ := List.map_eq_cons_iff.mp h
      simp only [selectRows, hrecord, ih hrecords]

/-! ## Statements on the table -/

section Table

variable {dbRoot : Bytes} {name : QualifiedName} {files : FileSystem}

theorem withCrlf_dataPath (dbRoot : Bytes) (name : QualifiedName) (files : FileSystem) :
    (withCrlf dbRoot name files).content (name.dataPath dbRoot) =
      crlf (files.content (name.dataPath dbRoot)) := by
  unfold FileSystem.content withCrlf
  rw [if_pos (.inr rfl)]
  cases files (name.dataPath dbRoot) with
  | none => rfl
  | some content => rfl

theorem loadTableDefinition_crlf (dbRoot : Bytes) (name : QualifiedName) (files : FileSystem) :
    loadTableDefinition dbRoot name (withCrlf dbRoot name files) =
      loadTableDefinition dbRoot name files := by
  unfold loadTableDefinition
  by_cases htable : name.table.getD [] = []
  · simp only [buildTablePaths_error htable]
  · have hschema : withCrlf dbRoot name files (name.schemaPath dbRoot) =
        (files (name.schemaPath dbRoot)).map crlf := if_pos (.inl rfl)
    simp only [buildTablePaths_eq htable, readTextFile, hschema]
    cases files (name.schemaPath dbRoot) with
    | none => rfl
    | some content => simp only [Option.map_some, splitPipeLine_crlf]

theorem runSelectQuery_crlf (dbRoot : Bytes) (statement : SelectStatement) (files : FileSystem)
    (h : ∀ line ∈ fileLines (files.content (statement.source.dataPath dbRoot)),
      line.length ≤ lineCapacity - 2) :
    let unix := runSelectQuery dbRoot statement files
    let windows := runSelectQuery dbRoot statement (withCrlf dbRoot statement.source files)
    windows.result = unix.result ∧ windows.query = unix.query := by
  intro unix windows
  have hunix : unix = runSelectQuery dbRoot statement files := rfl
  have hwindows : windows =
      runSelectQuery dbRoot statement (withCrlf dbRoot statement.source files) := rfl
  rw [hunix, hwindows]
  unfold runSelectQuery
  rw [loadTableDefinition_crlf]
  cases hload : loadTableDefinition dbRoot statement.source files with
  | error e => exact ⟨rfl, rfl⟩
  | ok table =>
      have hrecords := splitPipeLine_records_crlf h
      rw [← withCrlf_dataPath, ← (loadTableDefinition_paths hload).2] at hrecords
      dsimp only
      cases prepareColumns table.columns statement with
      | error e => exact ⟨rfl, rfl⟩
      | ok prepared =>
          obtain ⟨indexes, projected⟩ := prepared
          dsimp only
          cases prepareWhere table.columns statement.where_ with
          | error e => exact ⟨rfl, rfl⟩
          | ok test =>
              dsimp only
              rw [content_ensureDataFile, content_ensureDataFile, selectRows_congr hrecords]
              cases selectRows table.columns.length indexes test
                  (readRecords (files.content table.dataPath)) [] with
              | error e => exact ⟨rfl, rfl⟩
              | ok rows => exact ⟨rfl, rfl⟩

/-- An INSERT looks at the schema only. -/
theorem appendInsertRow_crlf (dbRoot : Bytes) (statement : InsertStatement) (affectedRows : Nat)
    (files : FileSystem) :
    let path := statement.target.dataPath dbRoot
    let files' := withCrlf dbRoot statement.target files
    let unix := appendInsertRow dbRoot statement affectedRows files
    let windows := appendInsertRow dbRoot statement affectedRows files'
    windows.result = unix.result ∧ windows.affectedRows = unix.affectedRows ∧
      ∃ appended, unix.files.content path = files.content path ++ appended ∧
        windows.files.content path = files'.content path ++ appended := by
  intro path files' unix windows
  have hunix : unix = appendInsertRow dbRoot statement affectedRows files := rfl
  have hwindows : windows = appendInsertRow dbRoot statement affectedRows files' := rfl
  have hload' : loadTableDefinition dbRoot statement.target files' =
      loadTableDefinition dbRoot statement.target files :=
    loadTableDefinition_crlf dbRoot statement.target files
  rw [hunix, hwindows]
  unfold appendInsertRow
  rw [hload']
  split
  · exact ⟨rfl, rfl, [], by simp, by simp⟩
  · cases hload : loadTableDefinition dbRoot statement.target files with
    | error e => exact ⟨rfl, rfl, [], by simp, by simp⟩
    | ok table =>
        have hpath : path = table.dataPath := (loadTableDefinition_paths hload).2.symm
        dsimp only
        cases placeValues table.columns (statement.columns.zip statement.values)
            (List.replicate table.columns.length [])
            (List.replicate table.columns.length false) with
        | error e => exact ⟨rfl, rfl, [], by simp, by simp⟩
        | ok ordered =>
            rw [hpath]
            exact ⟨rfl, rfl, serializeRow ordered, content_appendTextFile,
              content_appendTextFile⟩

/-- With Windows line endings in the files of a table every SELECT on it answers the
same, and every INSERT into it answers the same and appends the same bytes. -/
theorem statements_crlf (dbRoot : Bytes) (name : QualifiedName) (files : FileSystem)
    (h : ∀ line ∈ fileLines (files.content (name.dataPath dbRoot)), line.length ≤ 4094) :
    (∀ statement : SelectStatement, statement.source = name →
      let unix := runSelectQuery dbRoot statement files
      let windows := runSelectQuery dbRoot statement (withCrlf dbRoot name files)
      windows.result = unix.result ∧ windows.query = unix.query) ∧
    ∀ (statement : InsertStatement) (affectedRows : Nat), statement.target = name →
      let unix := appendInsertRow dbRoot statement affectedRows files
      let windows := appendInsertRow dbRoot statement affectedRows (withCrlf dbRoot name files)
      windows.result = unix.result ∧ windows.affectedRows = unix.affectedRows ∧
        ∃ appended,
          unix.files.content (name.dataPath dbRoot) =
            files.content (name.dataPath dbRoot) ++ appended ∧
          windows.files.content (name.dataPath dbRoot) =
            (withCrlf dbRoot name files).content (name.dataPath dbRoot) ++ appended := by
  refine ⟨?_, ?_⟩
  · rintro statement rfl
    exact runSelectQuery_crlf dbRoot statement files h
  · rintro statement affectedRows rfl
    exact appendInsertRow_crlf dbRoot statement affectedRows files

/-- A row that ends with a single backslash, in front of either line ending. -/
theorem statements_crlf_backslash :
    let name : QualifiedName := ⟨none, some (ascii "t")⟩
    let files : FileSystem := fun path =>
      if path = ascii "db/t.schema" then some (ascii "c\n")
      else if path = ascii "db/t.data" then some (ascii "a\\\n") else none
    (runSelectQuery (ascii "db") ⟨name, true, [], none⟩
        (withCrlf (ascii "db") name files)).query =
      ⟨[ascii "c"], [[ascii "a\\"]]⟩ := by
  intro name files
  have hlines : ∀ line ∈ fileLines (files.content (name.dataPath (ascii "db"))),
      line.length ≤ 4094 := by
    decide +kernel
  rw [((statements_crlf (ascii "db") name files hlines).1 ⟨name, true, [], none⟩ rfl).2]
  decide +kernel

end Table

end MiniSql
