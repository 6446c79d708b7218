import MiniSql.Storage.Insert
import MiniSql.Storage.Select

set_option autoImplicit false

/-!
# When `stdio` fails

What `append_insert_row` and `run_select_query` leave and answer when the bytes of
a row reach the file only in part, or when reading the data file breaks off.
`fclose` is never asked for its result, and a read error is taken for the end of
the file.
-/

namespace MiniSql

open Foundation

/-! ## Writing -/

/-- How `size` bytes handed to `fputs` reach the file: what its own flushes and the
flush of `fclose` append, and whether `fputs` reports a flush cut short. -/
structure BufferedWrite (size : Nat) where
  byFputs : Nat
  fputsFails : Bool
  byFclose : Nat
  short : fputsFails = true → byFputs < size
  bound : byFputs + byFclose ≤ size

/-- The way each write goes, by its size. -/
abbrev WritePattern : Type := (size : Nat) → BufferedWrite size

/-- `append_text_file`; `fclose` flushes what is pending on both exits. -/
def appendTextFileWriting (path content : Bytes) (write : BufferedWrite content.length)
    (files : FileSystem) : Except Failure Unit × FileSystem :=
  let files' := appendTextFile path (content.take write.byFputs) files
  let pending := content.drop write.byFputs
  if write.fputsFails then
    (.error (.writeFailed path), appendTextFile path (pending.take write.byFclose) files')
  else (.ok (), appendTextFile path (pending.take write.byFclose) files')

/-- What `append_insert_row` answers and leaves when the system may fail. -/
structure InsertAttempt where
  result : Except Failure Unit
  affectedRows : Nat
  files : FileSystem

/-- `append_insert_row`, its row written as the pattern says. -/
def appendInsertRowWriting (pattern : WritePattern) (dbRoot : Bytes)
    (statement : InsertStatement) (affectedRows : Nat) (files : FileSystem) : InsertAttempt :=
  if statement.columns.length ≠ statement.values.length then
    ⟨.error (.sql .insertCountMismatch), affectedRows, files⟩
  else
    match loadTableDefinition dbRoot statement.target files with
    | .error e => ⟨.error (.sql e), affectedRows, files⟩
    | .ok table =>
        match placeValues table.columns (statement.columns.zip statement.values)
            (List.replicate table.columns.length [])
            (List.replicate table.columns.length false) with
        | .error e => ⟨.error (.sql e), affectedRows, files⟩
        | .ok ordered =>
            let line := serializeRow ordered
            match appendTextFileWriting table.dataPath line (pattern line.length) files with
            | (.error e, files') => ⟨.error e, affectedRows, files'⟩
            | (.ok (), files') => ⟨.ok (), 1, files'⟩

section Write

variable {path content : Bytes} {files : FileSystem}

/-- What has reached the file is a prefix of what was to be written. -/
theorem appendTextFileWriting_snd (write : BufferedWrite content.length) :
    (appendTextFileWriting path content write files).2 =
      appendTextFile path (content.take (write.byFputs + write.byFclose)) files := by
  have hfiles : appendTextFile path ((content.drop write.byFputs).take write.byFclose)
      (appendTextFile path (content.take write.byFputs) files) =
      appendTextFile path (content.take (write.byFputs + write.byFclose)) files := by
    unfold appendTextFile
    rw [Function.update_idem]
    simp only [FileSystem.content, Function.update_self, Option.getD_some, List.append_assoc,
      List.take_add]
  unfold appendTextFileWriting
  split
  · exact hfiles
  · exact hfiles

theorem appendTextFileWriting_fst_eq_ok_iff (write : BufferedWrite content.length) :
    (appendTextFileWriting path content write files).1 = .ok () ↔
      write.fputsFails = false := by
  unfold appendTextFileWriting
  cases write.fputsFails with
  | true => simp
  | false => simp

end Write

/-- Where every byte reaches the file and nothing is reported, INSERT is what it is
without failures. -/
theorem appendInsertRowWriting_complete {pattern : WritePattern}
    (hpattern : ∀ size, (pattern size).fputsFails = false ∧
      (pattern size).byFputs + (pattern size).byFclose = size)
    (dbRoot : Bytes) (statement : InsertStatement) (affectedRows : Nat) (files : FileSystem) :
    appendInsertRowWriting pattern dbRoot statement affectedRows files =
      ⟨(appendInsertRow dbRoot statement affectedRows files).result.mapError .sql,
        (appendInsertRow dbRoot statement affectedRows files).affectedRows,
        (appendInsertRow dbRoot statement affectedRows files).files⟩ := by
  have hwrite : ∀ path line : Bytes,
      appendTextFileWriting path line (pattern line.length) files =
        (.ok (), appendTextFile path line files) := by
    intro path line
    obtain ⟨hfputs, hall⟩ := hpattern line.length
    have hfirst := (@appendTextFileWriting_fst_eq_ok_iff path line files _).mpr hfputs
    have hsecond := @appendTextFileWriting_snd path line files (pattern line.length)
    rw [hall, List.take_length] at hsecond
    exact Prod.ext hfirst hsecond
  unfold appendInsertRowWriting appendInsertRow
  split
  · rfl
  · cases loadTableDefinition dbRoot statement.target files with
    | error e => rfl
    | ok table =>
        simp only [hwrite]
        cases placeValues table.columns (statement.columns.zip statement.values)
            (List.replicate table.columns.length [])
            (List.replicate table.columns.length false) with
        | error e => rfl
        | ok ordered => rfl

/-- An INSERT answers true and has appended the line of its row, or answers false
and has appended nothing. -/
def AllOrNothing (dbRoot : Bytes) (statement : InsertStatement) (files : FileSystem)
    (attempt : InsertAttempt) : Prop :=
  (attempt.result = .ok () → ∃ table,
      loadTableDefinition dbRoot statement.target files = .ok table ∧
        ∀ path, attempt.files.content path =
          if path = table.dataPath then
            files.content path ++ serializeRow (intendedRow table.columns statement)
          else files.content path) ∧
    (attempt.result ≠ .ok () →
      ∀ path, attempt.files.content path = files.content path)

section Insert

variable {dbRoot : Bytes} {statement : InsertStatement} {affectedRows : Nat}
  {files : FileSystem} {table : TableDefinition}

theorem appendInsertRowWriting_of_insertable (pattern : WritePattern)
    (hload : loadTableDefinition dbRoot statement.target files = .ok table)
    (h : Insertable table.columns statement) :
    let line := serializeRow (intendedRow table.columns statement)
    let write := pattern line.length
    let attempt := appendInsertRowWriting pattern dbRoot statement affectedRows files
    (attempt.result = .ok () ↔ write.fputsFails = false) ∧
      attempt.files =
        appendTextFile table.dataPath (line.take (write.byFputs + write.byFclose)) files := by
  intro line write attempt
  have hplace := (placeValues_replicate statement).mpr ⟨h.2, rfl⟩
  have hattempt : attempt = match appendTextFileWriting table.dataPath line write files with
      | (.error e, files') => ⟨.error e, affectedRows, files'⟩
      | (.ok (), files') => ⟨.ok (), 1, files'⟩ := by
    show appendInsertRowWriting pattern dbRoot statement affectedRows files = _
    unfold appendInsertRowWriting
    rw [if_neg (not_not.mpr h.1), hload]
    simp only [hplace]
    rfl
  rw [← @appendTextFileWriting_fst_eq_ok_iff table.dataPath line files write,
    ← @appendTextFileWriting_snd table.dataPath line files write, hattempt]
  cases appendTextFileWriting table.dataPath line write files with
  | mk answer files' =>
      cases answer with
      | error e => simp
      | ok u => simp

theorem appendInsertRowWriting_of_not_insertable (pattern : WritePattern)
    (h : ∀ table, loadTableDefinition dbRoot statement.target files = .ok table →
      ¬ Insertable table.columns statement) :
    ∃ e, appendInsertRowWriting pattern dbRoot statement affectedRows files =
      ⟨.error e, affectedRows, files⟩ := by
  unfold appendInsertRowWriting
  split
  · exact ⟨_, rfl⟩
  · rename_i hcount
    split
    · exact ⟨_, rfl⟩
    · rename_i table hload
      split
      · exact ⟨_, rfl⟩
      · rename_i ordered hplace
        exact absurd ⟨not_not.mp hcount, ((placeValues_replicate statement).mp hplace).1⟩
          (h table hload)

/-- What a prefix of the row makes of the files. -/
theorem content_appendTextFile_eq (path other content : Bytes) (files : FileSystem) :
    (appendTextFile path content files).content other =
      if other = path then files.content other ++ content else files.content other := by
  split
  · rename_i h
    rw [h, content_appendTextFile]
  · rename_i h
    rw [content_appendTextFile_of_ne h]

/-- A prefix of the row in the file is all or nothing when it is the whole row behind
an answer of true, and empty behind an answer of false. -/
theorem allOrNothing_iff {attempt : InsertAttempt} {fails : Bool} {written : Nat}
    (hload : loadTableDefinition dbRoot statement.target files = .ok table)
    (hresult : attempt.result = .ok () ↔ fails = false)
    (hfiles : attempt.files = appendTextFile table.dataPath
      ((serializeRow (intendedRow table.columns statement)).take written) files)
    (hwritten : written ≤ (serializeRow (intendedRow table.columns statement)).length) :
    AllOrNothing dbRoot statement files attempt ↔
      written = if fails then 0
        else (serializeRow (intendedRow table.columns statement)).length := by
  unfold AllOrNothing
  rw [ne_eq, hresult, hfiles]
  simp only [content_appendTextFile_eq]
  cases fails with
  | true =>
      simp only [Bool.true_eq_false, false_implies, true_and, not_false_eq_true,
        true_implies, if_true]
      constructor
      · intro h
        have hpath := h table.dataPath
        rw [if_pos rfl, List.append_right_eq_self, List.take_eq_nil_iff] at hpath
        exact hpath.resolve_right (serializeRow_ne_nil _)
      · intro h path
        rw [h, List.take_zero, List.append_nil, ite_self]
  | false =>
      simp only [true_implies, not_true_eq_false, false_implies, and_true,
        Bool.false_eq_true, if_false]
      constructor
      · intro h
        obtain ⟨table', hload', hcontent⟩ := h
        obtain rfl : table' = table := Except.ok.inj (hload'.symm.trans hload)
        have hpath := hcontent table'.dataPath
        rw [if_pos rfl, if_pos rfl, List.append_cancel_left_eq] at hpath
        have hlength := congrArg List.length hpath
        rwa [List.length_take, Nat.min_eq_left hwritten] at hlength
      · intro h
        refine ⟨table, hload, fun path => ?_⟩
        rw [h, List.take_length]

/-- INSERT is all or nothing exactly when no row is written, when all of it reaches
the file and `fputs` reports no failure, or when none of it does and `fputs`
reports one. -/
theorem appendInsertRowWriting_allOrNothing_iff (pattern : WritePattern) (dbRoot : Bytes)
    (statement : InsertStatement) (affectedRows : Nat) (files : FileSystem) :
    AllOrNothing dbRoot statement files
        (appendInsertRowWriting pattern dbRoot statement affectedRows files) ↔
      ∀ table, loadTableDefinition dbRoot statement.target files = .ok table →
        Insertable table.columns statement →
        let size := (serializeRow (intendedRow table.columns statement)).length
        let write := pattern size
        write.byFputs + write.byFclose = if write.fputsFails then 0 else size := by
  by_cases h : ∃ table, loadTableDefinition dbRoot statement.target files = .ok table ∧
      Insertable table.columns statement
  · obtain ⟨table, hload, hinsertable⟩ := h
    obtain ⟨hresult, hfiles⟩ :=
      @appendInsertRowWriting_of_insertable dbRoot statement affectedRows files table pattern
        hload hinsertable
    rw [allOrNothing_iff hload hresult hfiles (pattern _).bound]
    constructor
    · intro hwritten table' hload' _
      obtain rfl : table' = table := Except.ok.inj (hload'.symm.trans hload)
      exact hwritten
    · intro hwritten
      exact hwritten table hload hinsertable
  · have hnot : ∀ table, loadTableDefinition dbRoot statement.target files = .ok table →
        ¬ Insertable table.columns statement :=
      fun table hload hinsertable => h ⟨table, hload, hinsertable⟩
    obtain ⟨e, hattempt⟩ := @appendInsertRowWriting_of_not_insertable dbRoot statement
      affectedRows files pattern hnot
    rw [hattempt]
    constructor
    · intro _ table hload hinsertable
      exact absurd hinsertable (hnot table hload)
    · intro _
      exact ⟨fun hok => by simp at hok, fun _ _ => rfl⟩

/-- `fclose` cannot bring the row to the file: true is answered, and no row is there. -/
theorem appendInsertRowWriting_loses_row :
    let files : FileSystem := fun path =>
      if path = ascii "db/t.schema" then some (ascii "c")
      else if path = ascii "db/t.data" then some (ascii "a\n") else none
    let statement : InsertStatement := ⟨⟨none, some (ascii "t")⟩, [ascii "c"], [ascii "b"]⟩
    let pattern : WritePattern := fun size =>
      ⟨0, false, 0, fun h => by simp at h, Nat.zero_le size⟩
    let attempt := appendInsertRowWriting pattern (ascii "db") statement 0 files
    attempt.result = .ok () ∧ attempt.affectedRows = 1 ∧
      attempt.files (ascii "db/t.data") = some (ascii "a\n") ∧
      ¬ AllOrNothing (ascii "db") statement files attempt := by
  intro files statement pattern attempt
  refine ⟨by decide +kernel, by decide +kernel, by decide +kernel, ?_⟩
  intro h
  obtain ⟨table, hload, hcontent⟩ := h.1 (by decide +kernel)
  have hpath := hcontent table.dataPath
  have hdata : table.dataPath = ascii "db/t.data" := by
    rw [(loadTableDefinition_paths hload).2]
    decide +kernel
  rw [if_pos rfl, hdata] at hpath
  have hafter : attempt.files.content (ascii "db/t.data") = files.content (ascii "db/t.data") := by
    decide +kernel
  rw [hafter, List.self_eq_append_right] at hpath
  exact serializeRow_ne_nil _ hpath

end Insert

/-! ## Reading -/

/-- What the calls of `fgets` leave in `line` before the first that answers NULL: at
the end of the file, or where reading fails behind some of its bytes. -/
def fgetsRecords (content : Bytes) : Option Nat → List Bytes
  | none => readRecords content
  | some readable => (closedFrom recordFull [] (content.take readable)).map cString

/-- `run_select_query`, reading its data file up to the failure. -/
def runSelectQueryReading (failure : Option Nat) (dbRoot : Bytes) (statement : SelectStatement)
    (files : FileSystem) : SelectOutcome :=
  match loadTableDefinition dbRoot statement.source files with
  | .error e => ⟨.error e, .empty, files⟩
  | .ok table =>
      match prepareColumns table.columns statement with
      | .error e => ⟨.error e, .empty, files⟩
      | .ok (indexes, projected) =>
          match prepareWhere table.columns statement.where_ with
          | .error e => ⟨.error e, .empty, files⟩
          | .ok where_ =>
              let files' := ensureDataFile table.dataPath files
              match selectRows table.columns.length indexes where_
                  (fgetsRecords (files'.content table.dataPath) failure) [] with
              | .error e => ⟨.error e, .empty, files'⟩
              | .ok rows => ⟨.ok (), ⟨projected, rows⟩, files'⟩

section Select

variable {dbRoot : Bytes} {statement : SelectStatement} {files : FileSystem}

/-- Where reading does not fail, SELECT is what it is without failures. -/
theorem runSelectQueryReading_none (dbRoot : Bytes) (statement : SelectStatement)
    (files : FileSystem) :
    runSelectQueryReading none dbRoot statement files = runSelectQuery dbRoot statement files :=
  rfl

/-- The loop answers true exactly when the records it saw are as wide as the schema. -/
theorem runSelectQueryReading_eq_ok_iff (failure : Option Nat) :
    (runSelectQueryReading failure dbRoot statement files).result = .ok () ↔
      ∃ table indexes, loadTableDefinition dbRoot statement.source files = .ok table ∧
        Selectable table.columns (fgetsRecords (files.content table.dataPath) failure)
          statement indexes := by
  unfold runSelectQueryReading
  cases hload : loadTableDefinition dbRoot statement.source files with
  | error e => simp
  | ok table =>
      simp only [Except.ok.injEq, content_ensureDataFile]
      cases hcolumns : prepareColumns table.columns statement with
      | error e =>
          simp only [reduceCtorEq, false_iff]
          intro h
          obtain ⟨_, indexes, rfl, hselectable⟩ := h
          have hok := prepareColumns_eq_ok_iff.mpr ⟨hselectable.selected, rfl⟩
          simp [hcolumns] at hok
      | ok prepared =>
          obtain ⟨indexes, projected⟩ := prepared
          simp only
          cases hwhere : prepareWhere table.columns statement.where_ with
          | error e =>
              simp only [reduceCtorEq, false_iff]
              intro h
              obtain ⟨_, indexes, rfl, hselectable⟩ := h
              have hok := prepareWhere_eq_ok_iff.mpr ⟨hselectable.filtered, rfl⟩
              simp [hwhere] at hok
          | ok test =>
              simp only
              cases hrows : selectRows table.columns.length indexes test
                  (fgetsRecords (files.content table.dataPath) failure) [] with
              | error e =>
                  simp only [reduceCtorEq, false_iff]
                  intro h
                  obtain ⟨_, _, rfl, hselectable⟩ := h
                  rw [selectRows_eq_ok_iff.mpr ⟨hselectable.decoded, rfl⟩] at hrows
                  simp at hrows
              | ok rows =>
                  simp only [true_iff]
                  exact ⟨table, indexes, rfl, (prepareColumns_eq_ok_iff.mp hcolumns).1,
                    (prepareWhere_eq_ok_iff.mp hwhere).1, (selectRows_eq_ok_iff.mp hrows).1⟩

/-- An answer of false leaves an empty result. -/
theorem runSelectQueryReading_query_of_error (failure : Option Nat)
    (h : (runSelectQueryReading failure dbRoot statement files).result ≠ .ok ()) :
    (runSelectQueryReading failure dbRoot statement files).query = .empty := by
  unfold runSelectQueryReading at h ⊢
  split
  · rfl
  · split
    · rfl
    · split
      · rfl
      · simp only at h ⊢
        split
        · rfl
        · simp_all

/-- SELECT answers for the whole file, or false and an empty result when reading it
fails. -/
def CompleteOrEmpty (failure : Option Nat) (outcome complete : SelectOutcome) : Prop :=
  (outcome.result = .ok () → complete.result = .ok () ∧ outcome.query = complete.query) ∧
    (failure ≠ none → outcome.result ≠ .ok () ∧ outcome.query = .empty)

/-- A read error goes unnoticed exactly when the statement is answered from the
records before it. -/
theorem runSelectQueryReading_completeOrEmpty_iff (failure : Option Nat) (dbRoot : Bytes)
    (statement : SelectStatement) (files : FileSystem) :
    CompleteOrEmpty failure (runSelectQueryReading failure dbRoot statement files)
        (runSelectQuery dbRoot statement files) ↔
      failure = none ∨
        ∀ table indexes, loadTableDefinition dbRoot statement.source files = .ok table →
          ¬ Selectable table.columns (fgetsRecords (files.content table.dataPath) failure)
            statement indexes := by
  unfold CompleteOrEmpty
  constructor
  · intro h
    by_cases hfailure : failure = none
    · exact .inl hfailure
    · refine .inr fun table indexes hload hselectable => ?_
      exact (h.2 hfailure).1
        ((runSelectQueryReading_eq_ok_iff failure).mpr ⟨table, indexes, hload, hselectable⟩)
  · intro h
    rcases h with rfl | hnot
    · rw [runSelectQueryReading_none]
      exact ⟨fun hok => ⟨hok, rfl⟩, fun hne => absurd rfl hne⟩
    · have herror : (runSelectQueryReading failure dbRoot statement files).result ≠ .ok () := by
        intro hok
        obtain ⟨table, indexes, hload, hselectable⟩ :=
          (runSelectQueryReading_eq_ok_iff failure).mp hok
        exact hnot table indexes hload hselectable
      exact ⟨fun hok => absurd hok herror,
        fun _ => ⟨herror, runSelectQueryReading_query_of_error failure herror⟩⟩

/-- Reading fails behind the first of two rows: true is answered, with one row. -/
theorem runSelectQueryReading_shortens :
    let files : FileSystem := fun path =>
      if path = ascii "db/t.schema" then some (ascii "c")
      else if path = ascii "db/t.data" then some (ascii "a\nb\n") else none
    let statement : SelectStatement := ⟨⟨none, some (ascii "t")⟩, true, [], none⟩
    let outcome := runSelectQueryReading (some 2) (ascii "db") statement files
    let complete := runSelectQuery (ascii "db") statement files
    outcome.result = .ok () ∧ outcome.query.rows = [[ascii "a"]] ∧
      complete.query.rows = [[ascii "a"], [ascii "b"]] ∧
      ¬ CompleteOrEmpty (some 2) outcome complete := by
  intro files statement outcome complete
  have hresult : outcome.result = .ok () := by decide +kernel
  refine ⟨hresult, by decide +kernel, by decide +kernel, ?_⟩
  intro h
  exact (h.2 (by simp)).1 hresult

end Select

end MiniSql
