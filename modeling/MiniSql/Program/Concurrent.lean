import MiniSql.Foundation.Parties
import MiniSql.Program.Queries
import MiniSql.Program.Refinement
import MiniSql.Storage.Memory

set_option autoImplicit false

/-!
# Processes side by side

Several processes run `main` over texts of their own under one root.  A process comes to
one file call after another, and the others may come to theirs in between: an INSERT opens
its data file, which is created when it is missing, and appends its line when the stream is
flushed; a SELECT reads the data file as far as `fgets` needs it, and creates it first when
it is missing.  As long as every line fits the buffer of its stream and no SELECT empties a
data file that holds something by then, the processes do what they could have done with
whole statements, one after the other.
-/

namespace MiniSql

open Foundation

/-! ## What a statement has prepared -/

section Prepared

variable {dbRoot : Bytes} {files : FileSystem}

/-- An INSERT as a whole: its line behind the data file, or nothing. -/
theorem executeStatement_insert_of_prepared {statement : InsertStatement} {path line : Bytes}
    (h : prepareInsert dbRoot statement files = .ok (path, line)) :
    executeStatement dbRoot (.insert statement) files =
      (.ok (.insert 1), appendTextFile path line files) := by
  simp only [executeStatement, appendInsertRow_eq, h]
  rfl

theorem executeStatement_insert_of_refused {statement : InsertStatement} {e : SqlError}
    (h : prepareInsert dbRoot statement files = .error e) :
    executeStatement dbRoot (.insert statement) files = (.error e, files) := by
  simp only [executeStatement, appendInsertRow_eq, h]
  rfl

theorem executeStatement_select_of_refused {statement : SelectStatement} {e : SqlError}
    (h : prepareSelect dbRoot statement files = .error e) :
    executeStatement dbRoot (.select statement) files = (.error e, files) := by
  simp only [executeStatement, runSelectQuery_eq, h]
  rfl

/-- A SELECT as a whole: the loop over the records of its data file, which is there then. -/
theorem executeStatement_select_of_prepared {statement : SelectStatement} {plan : SelectPlan}
    (h : prepareSelect dbRoot statement files = .ok plan) :
    executeStatement dbRoot (.select statement) files =
      ((selectRows plan.table.columns.length plan.indexes plan.test
        (readRecords (files.content plan.table.dataPath)) []).map
          fun rows => .select ⟨plan.projected, rows⟩,
        ensureDataFile plan.table.dataPath files) := by
  simp only [executeStatement, runSelectQuery_eq, h, content_ensureDataFile]
  cases selectRows plan.table.columns.length plan.indexes plan.test
      (readRecords (files.content plan.table.dataPath)) [] with
  | error e => rfl
  | ok rows => rfl

/-- The loop over some records and then over others. -/
theorem selectRows_append {columnCount : Nat} {indexes : List Nat}
    {test : Option (Nat × Bytes)} {records : List Bytes} (others : List Bytes)
    {rows₀ rows : List (List Bytes)}
    (h : selectRows columnCount indexes test records rows₀ = .ok rows) :
    selectRows columnCount indexes test (records ++ others) rows₀ =
      selectRows columnCount indexes test others rows := by
  induction records generalizing rows₀ with
  | nil =>
      obtain rfl : rows₀ = rows := Except.ok.inj h
      rfl
  | cons record records ih =>
      rw [List.cons_append]
      simp only [selectRows] at h ⊢
      split at h
      · simp at h
      · rename_i hwidth
        rw [if_neg hwidth]
        split at h
        · rename_i hpass
          rw [if_pos hpass]
          exact ih h
        · rename_i hpass
          rw [if_neg hpass]
          exact ih h

end Prepared

/-! ## The file calls of a process -/

/-- The file call a process comes to next. -/
inductive ProcessPhase where
  /-- at the head of the loop of `main` -/
  | idle
  /-- the `fopen` of `append_text_file` -/
  | extending (path line : Bytes)
  /-- its flushes, with what is still in the buffer of the stream -/
  | appending (path pending : Bytes)
  /-- the first `fopen` of `run_select_query` -/
  | opening (plan : SelectPlan)
  /-- `write_text_file`, after the first `fopen` has failed -/
  | creating (plan : SelectPlan)
  /-- the second `fopen` -/
  | reopening (plan : SelectPlan)
  /-- the loop over `fgets`: the offset of the stream, what it holds in its buffer, and the
  rows of the result so far -/
  | reading (plan : SelectPlan) (offset : Nat) (buffered : Bytes) (rows : List (List Bytes))

/-- A process that runs `main`. -/
structure Process where
  progress : Progress Statement SqlError ExecutionResult
  phase : ProcessPhase

/-- A process in front of the statements of a text. -/
def Process.start (text : Bytes) : Process :=
  ⟨.start (parseSqlScript (cString text)).script, .idle⟩

/-- One file call of a process.  The calls do what they are asked to; `bufferSize` bytes
fit the buffer of a stream that is written, and what fits is flushed in one piece. -/
inductive ProcessStep (bufferSize : Nat) (dbRoot : Bytes) :
    Process → FileSystem → Process → FileSystem → Prop
  | insertRefused {statement : InsertStatement} {rest : List Statement}
      {outputs : List ExecutionResult} {files : FileSystem} {e : SqlError}
      (hrefused : prepareInsert dbRoot statement files = .error e) :
      ProcessStep bufferSize dbRoot ⟨⟨.insert statement :: rest, outputs, none⟩, .idle⟩ files
        ⟨⟨.insert statement :: rest, outputs, some e⟩, .idle⟩ files
  | insertPrepared {statement : InsertStatement} {rest : List Statement}
      {outputs : List ExecutionResult} {files : FileSystem} {path line : Bytes}
      (hprepared : prepareInsert dbRoot statement files = .ok (path, line)) :
      ProcessStep bufferSize dbRoot ⟨⟨.insert statement :: rest, outputs, none⟩, .idle⟩ files
        ⟨⟨.insert statement :: rest, outputs, none⟩, .extending path line⟩ files
  /-- the data file is created when it is missing -/
  | extended {progress : Progress Statement SqlError ExecutionResult} {files : FileSystem}
      {path line : Bytes} :
      ProcessStep bufferSize dbRoot ⟨progress, .extending path line⟩ files
        ⟨progress, .appending path line⟩ (ensureDataFile path files)
  /-- a flush before the last, of what does not fit the buffer -/
  | flushed {progress : Progress Statement SqlError ExecutionResult} {files : FileSystem}
      {path chunk pending : Bytes} (hrest : pending ≠ [])
      (hlong : bufferSize < (chunk ++ pending).length) :
      ProcessStep bufferSize dbRoot ⟨progress, .appending path (chunk ++ pending)⟩ files
        ⟨progress, .appending path pending⟩ (appendTextFile path chunk files)
  /-- the last flush, and the end of the statement -/
  | closed {statement : InsertStatement} {rest : List Statement}
      {outputs : List ExecutionResult} {files : FileSystem} {path pending : Bytes} :
      ProcessStep bufferSize dbRoot
        ⟨⟨.insert statement :: rest, outputs, none⟩, .appending path pending⟩ files
        ⟨⟨rest, outputs ++ [.insert 1], none⟩, .idle⟩ (appendTextFile path pending files)
  | selectRefused {statement : SelectStatement} {rest : List Statement}
      {outputs : List ExecutionResult} {files : FileSystem} {e : SqlError}
      (hrefused : prepareSelect dbRoot statement files = .error e) :
      ProcessStep bufferSize dbRoot ⟨⟨.select statement :: rest, outputs, none⟩, .idle⟩ files
        ⟨⟨.select statement :: rest, outputs, some e⟩, .idle⟩ files
  | selectPrepared {statement : SelectStatement} {rest : List Statement}
      {outputs : List ExecutionResult} {files : FileSystem} {plan : SelectPlan}
      (hprepared : prepareSelect dbRoot statement files = .ok plan) :
      ProcessStep bufferSize dbRoot ⟨⟨.select statement :: rest, outputs, none⟩, .idle⟩ files
        ⟨⟨.select statement :: rest, outputs, none⟩, .opening plan⟩ files
  | opened {progress : Progress Statement SqlError ExecutionResult} {files : FileSystem}
      {plan : SelectPlan} (hexists : (files plan.table.dataPath).isSome = true) :
      ProcessStep bufferSize dbRoot ⟨progress, .opening plan⟩ files
        ⟨progress, .reading plan 0 [] []⟩ files
  | openFailed {progress : Progress Statement SqlError ExecutionResult} {files : FileSystem}
      {plan : SelectPlan} (hmissing : files plan.table.dataPath = none) :
      ProcessStep bufferSize dbRoot ⟨progress, .opening plan⟩ files
        ⟨progress, .creating plan⟩ files
  /-- the file is emptied, whatever it holds by now -/
  | created {progress : Progress Statement SqlError ExecutionResult} {files : FileSystem}
      {plan : SelectPlan} :
      ProcessStep bufferSize dbRoot ⟨progress, .creating plan⟩ files
        ⟨progress, .reopening plan⟩ (writeTextFile plan.table.dataPath [] files)
  | reopened {progress : Progress Statement SqlError ExecutionResult} {files : FileSystem}
      {plan : SelectPlan} (hexists : (files plan.table.dataPath).isSome = true) :
      ProcessStep bufferSize dbRoot ⟨progress, .reopening plan⟩ files
        ⟨progress, .reading plan 0 [] []⟩ files
  /-- `fgets` needs more than the buffer holds, and the file has more -/
  | fetched {progress : Progress Statement SqlError ExecutionResult} {files : FileSystem}
      {plan : SelectPlan} {offset : Nat} {buffered chunk : Bytes} {rows : List (List Bytes)}
      (hneeds : closedFrom recordFull [] buffered = []) (hchunk : chunk ≠ [])
      (hfile : chunk <+: (files.content plan.table.dataPath).drop offset) :
      ProcessStep bufferSize dbRoot ⟨progress, .reading plan offset buffered rows⟩ files
        ⟨progress, .reading plan (offset + chunk.length) (buffered ++ chunk) rows⟩ files
  /-- `fgets` answers the first record in the buffer -/
  | taken {progress : Progress Statement SqlError ExecutionResult} {files : FileSystem}
      {plan : SelectPlan} {offset : Nat} {buffered record : Bytes} {records : List Bytes}
      {rows rows' : List (List Bytes)}
      (hrecord : closedFrom recordFull [] buffered = record :: records)
      (hrow : plan.row record rows = .ok rows') :
      ProcessStep bufferSize dbRoot ⟨progress, .reading plan offset buffered rows⟩ files
        ⟨progress, .reading plan offset (buffered.drop record.length) rows'⟩ files
  | rejected {todo : List Statement} {outputs : List ExecutionResult} {files : FileSystem}
      {plan : SelectPlan} {offset : Nat} {buffered record : Bytes} {records : List Bytes}
      {rows : List (List Bytes)} {e : SqlError}
      (hrecord : closedFrom recordFull [] buffered = record :: records)
      (hrow : plan.row record rows = .error e) :
      ProcessStep bufferSize dbRoot
        ⟨⟨todo, outputs, none⟩, .reading plan offset buffered rows⟩ files
        ⟨⟨todo, outputs, some e⟩, .idle⟩ files
  /-- the end of the file; what the buffer holds, if anything, is the last record -/
  | ended {statement : SelectStatement} {rest : List Statement}
      {outputs : List ExecutionResult} {files : FileSystem} {plan : SelectPlan} {offset : Nat}
      {buffered : Bytes} {rows rows' : List (List Bytes)}
      (hneeds : closedFrom recordFull [] buffered = [])
      (hend : (files.content plan.table.dataPath).length ≤ offset)
      (hrows : selectRows plan.table.columns.length plan.indexes plan.test
        ((cut recordFull buffered).map cString) rows = .ok rows') :
      ProcessStep bufferSize dbRoot
        ⟨⟨.select statement :: rest, outputs, none⟩, .reading plan offset buffered rows⟩ files
        ⟨⟨rest, outputs ++ [.select ⟨plan.projected, rows'⟩], none⟩, .idle⟩ files
  | endRejected {todo : List Statement} {outputs : List ExecutionResult} {files : FileSystem}
      {plan : SelectPlan} {offset : Nat} {buffered : Bytes} {rows : List (List Bytes)}
      {e : SqlError} (hneeds : closedFrom recordFull [] buffered = [])
      (hend : (files.content plan.table.dataPath).length ≤ offset)
      (hrows : selectRows plan.table.columns.length plan.indexes plan.test
        ((cut recordFull buffered).map cString) rows = .error e) :
      ProcessStep bufferSize dbRoot
        ⟨⟨todo, outputs, none⟩, .reading plan offset buffered rows⟩ files
        ⟨⟨todo, outputs, some e⟩, .idle⟩ files

/-! ## What a process knows of the files -/

/-- What a process has read agrees with the files, whoever has written to them since. -/
inductive InPhase (dbRoot : Bytes) (files : FileSystem) : Process → Prop
  | idle {progress : Progress Statement SqlError ExecutionResult} :
      InPhase dbRoot files ⟨progress, .idle⟩
  | extending {statement : InsertStatement} {rest : List Statement}
      {outputs : List ExecutionResult} {path line : Bytes}
      (hprepared : prepareInsert dbRoot statement files = .ok (path, line)) :
      InPhase dbRoot files ⟨⟨.insert statement :: rest, outputs, none⟩, .extending path line⟩
  | appending {statement : InsertStatement} {rest : List Statement}
      {outputs : List ExecutionResult} {path line : Bytes}
      (hprepared : prepareInsert dbRoot statement files = .ok (path, line)) :
      InPhase dbRoot files ⟨⟨.insert statement :: rest, outputs, none⟩, .appending path line⟩
  | opening {statement : SelectStatement} {rest : List Statement}
      {outputs : List ExecutionResult} {plan : SelectPlan}
      (hprepared : prepareSelect dbRoot statement files = .ok plan) :
      InPhase dbRoot files ⟨⟨.select statement :: rest, outputs, none⟩, .opening plan⟩
  | creating {statement : SelectStatement} {rest : List Statement}
      {outputs : List ExecutionResult} {plan : SelectPlan}
      (hprepared : prepareSelect dbRoot statement files = .ok plan) :
      InPhase dbRoot files ⟨⟨.select statement :: rest, outputs, none⟩, .creating plan⟩
  | reopening {statement : SelectStatement} {rest : List Statement}
      {outputs : List ExecutionResult} {plan : SelectPlan}
      (hprepared : prepareSelect dbRoot statement files = .ok plan)
      (hexists : (files plan.table.dataPath).isSome = true) :
      InPhase dbRoot files ⟨⟨.select statement :: rest, outputs, none⟩, .reopening plan⟩
  /-- the records `taken` from the file make up the rows, and the buffer goes on behind them -/
  | reading {statement : SelectStatement} {rest : List Statement}
      {outputs : List ExecutionResult} {plan : SelectPlan} {offset : Nat}
      {taken buffered : Bytes} {rows : List (List Bytes)}
      (hprepared : prepareSelect dbRoot statement files = .ok plan)
      (hexists : (files plan.table.dataPath).isSome = true)
      (hfile : taken ++ buffered <+: files.content plan.table.dataPath)
      (hoffset : offset = (taken ++ buffered).length) (hclosed : residue recordFull taken = [])
      (hrows : selectRows plan.table.columns.length plan.indexes plan.test
        ((cut recordFull taken).map cString) [] = .ok rows) :
      InPhase dbRoot files
        ⟨⟨.select statement :: rest, outputs, none⟩, .reading plan offset buffered rows⟩

/-- The tables under a root. -/
def Under (dbRoot : Bytes) : Bytes → QualifiedName → Prop := fun root _ => root = dbRoot

/-- What a process relies on: its lines fit the buffer of a stream. -/
structure Relies (bufferSize : Nat) (dbRoot : Bytes) (files : FileSystem) (p : Process) :
    Prop where
  phase : InPhase dbRoot files p
  fits : ∀ statement, .insert statement ∈ p.progress.todo → ∀ path line,
    prepareInsert dbRoot statement files = .ok (path, line) → line.length ≤ bufferSize

/-- The process is not about to empty a data file that holds something. -/
def Process.Spares (p : Process) (files : FileSystem) : Prop :=
  ∀ plan, p.phase = .creating plan → files.content plan.table.dataPath = []

/-- A file call that empties no data file that holds something. -/
def SparingStep (bufferSize : Nat) (dbRoot : Bytes) (p : Process) (files : FileSystem)
    (p' : Process) (files' : FileSystem) : Prop :=
  ProcessStep bufferSize dbRoot p files p' files' ∧ p.Spares files

section Rely

variable {bufferSize : Nat} {dbRoot : Bytes} {files files' whole : FileSystem} {p p' : Process}

theorem InPhase.stable (h : InPhase dbRoot files p) (hgrows : GrowsTo dbRoot files files') :
    InPhase dbRoot files' p := by
  cases h with
  | idle => exact .idle
  | extending hprepared =>
      exact .extending ((prepareInsert_congr (hgrows.schema _)).trans hprepared)
  | appending hprepared =>
      exact .appending ((prepareInsert_congr (hgrows.schema _)).trans hprepared)
  | opening hprepared => exact .opening ((prepareSelect_congr (hgrows.schema _)).trans hprepared)
  | creating hprepared =>
      exact .creating ((prepareSelect_congr (hgrows.schema _)).trans hprepared)
  | reopening hprepared hexists =>
      exact .reopening ((prepareSelect_congr (hgrows.schema _)).trans hprepared)
        (hgrows.present _ hexists)
  | reading hprepared hexists hfile hoffset hclosed hrows =>
      exact .reading ((prepareSelect_congr (hgrows.schema _)).trans hprepared)
        (hgrows.present _ hexists) (hfile.trans (hgrows.content _)) hoffset hclosed hrows

/-- A stream that has been opened stands at the start of its file. -/
theorem InPhase.opened {statement : SelectStatement} {rest : List Statement}
    {outputs : List ExecutionResult} {plan : SelectPlan}
    (hprepared : prepareSelect dbRoot statement files = .ok plan)
    (hexists : (files plan.table.dataPath).isSome = true) :
    InPhase dbRoot files ⟨⟨.select statement :: rest, outputs, none⟩, .reading plan 0 [] []⟩ := by
  have hread : ([] : Bytes) ++ [] <+: files.content plan.table.dataPath := List.nil_prefix
  exact .reading hprepared hexists hread rfl rfl rfl

/-- What a process relies on, the file calls of the others leave alone. -/
theorem Relies.stable (h : Relies bufferSize dbRoot files p)
    (hgrows : GrowsTo dbRoot files files') : Relies bufferSize dbRoot files' p := by
  refine ⟨h.phase.stable hgrows, fun statement hmem path line hprepared => ?_⟩
  rw [prepareInsert_congr (hgrows.schema _)] at hprepared
  exact h.fits statement hmem path line hprepared

theorem prepareSelect_path {statement : SelectStatement} {plan : SelectPlan}
    (h : prepareSelect dbRoot statement files = .ok plan) :
    plan.table.dataPath = statement.source.dataPath dbRoot :=
  (loadTableDefinition_paths (prepareSelect_load h)).2

/-- One file call: the files have grown at most. -/
theorem SparingStep.growsTo (h : SparingStep bufferSize dbRoot p files p' files')
    (hrelies : Relies bufferSize dbRoot files p) : GrowsTo dbRoot files files' := by
  obtain ⟨hstep, hspares⟩ := h
  obtain ⟨hphase, hfits⟩ := hrelies
  cases hstep with
  | extended =>
      cases hphase with
      | extending hprepared =>
          rw [prepareInsert_path hprepared]
          exact growsTo_ensureDataFile _
  | flushed hrest hlong =>
      cases hphase with
      | appending hprepared =>
          rw [prepareInsert_path hprepared]
          exact growsTo_appendTextFile _ _
  | closed =>
      cases hphase with
      | appending hprepared =>
          rw [prepareInsert_path hprepared]
          exact growsTo_appendTextFile _ _
  | created =>
      cases hphase with
      | creating hprepared =>
          have hempty := hspares _ rfl
          rw [prepareSelect_path hprepared] at hempty ⊢
          exact growsTo_writeTextFile_empty _ hempty
  | _ => exact .refl dbRoot files

/-- One file call: what the process relies on still holds. -/
theorem SparingStep.relies (h : SparingStep bufferSize dbRoot p files p' files')
    (hrelies : Relies bufferSize dbRoot files p) : Relies bufferSize dbRoot files' p' := by
  have hgrows := h.growsTo hrelies
  obtain ⟨hstep, hspares⟩ := h
  obtain ⟨hphase, hfits⟩ := hrelies
  cases hstep with
  | insertRefused hrefused => exact ⟨.idle, hfits⟩
  | insertPrepared hprepared => exact ⟨.extending hprepared, hfits⟩
  | extended =>
      cases hphase with
      | extending hprepared => exact Relies.stable ⟨.appending hprepared, hfits⟩ hgrows
  | flushed hrest hlong =>
      cases hphase with
      | appending hprepared =>
          exact absurd (hfits _ List.mem_cons_self _ _ hprepared) (Nat.not_le_of_lt hlong)
  | closed =>
      exact Relies.stable ⟨.idle, fun other hother => hfits other (List.mem_cons_of_mem _ hother)⟩
        hgrows
  | selectRefused hrefused => exact ⟨.idle, hfits⟩
  | selectPrepared hprepared => exact ⟨.opening hprepared, hfits⟩
  | opened hexists =>
      cases hphase with
      | opening hprepared => exact ⟨.opened hprepared hexists, hfits⟩
  | openFailed hmissing =>
      cases hphase with
      | opening hprepared => exact ⟨.creating hprepared, hfits⟩
  | created =>
      cases hphase with
      | creating hprepared =>
          have hprepared' := (prepareSelect_congr (hgrows.schema _)).trans hprepared
          refine ⟨.reopening hprepared' (by simp), fun other hother path line hline => ?_⟩
          rw [prepareInsert_congr (hgrows.schema _)] at hline
          exact hfits other hother path line hline
  | reopened hexists =>
      cases hphase with
      | reopening hprepared => exact ⟨.opened hprepared hexists, hfits⟩
  | @fetched progress files plan offset buffered chunk rows hneeds hchunk hfile =>
      cases hphase with
      | @reading statement rest outputs plan offset taken buffered rows hprepared hexists hread
          hoffset hclosed hrows =>
          refine ⟨.reading hprepared hexists ?_ ?_ hclosed hrows, hfits⟩
          · obtain ⟨unread, hcontent⟩ := hread
            rw [← hcontent, hoffset, List.drop_left] at hfile
            rw [← hcontent, ← List.append_assoc]
            exact (List.prefix_append_right_inj _).mpr hfile
          · simp [hoffset, Nat.add_assoc]
  | @taken progress files plan offset buffered record records rows rows' hrecord hrow =>
      cases hphase with
      | @reading statement rest outputs plan offset taken buffered rows hprepared hexists hread
          hoffset hclosed hrows =>
          obtain ⟨hsplit, hcut, hresidue⟩ := closed_first hrecord
          have hbytes : taken ++ record ++ buffered.drop record.length = taken ++ buffered := by
            rw [List.append_assoc, ← hsplit]
          rw [← hbytes] at hread hoffset
          refine ⟨.reading hprepared hexists hread hoffset ?_ ?_, hfits⟩
          · rw [residue_append_of_residue_nil record hclosed, hresidue]
          · rw [cut_append_of_residue_nil record hclosed, hcut, List.map_append,
              selectRows_append _ hrows]
            exact hrow
  | rejected hrecord hrow =>
      cases hphase with
      | reading => exact ⟨.idle, hfits⟩
  | ended hneeds hend hloop =>
      exact ⟨.idle, fun other hother => hfits other (List.mem_cons_of_mem _ hother)⟩
  | endRejected hneeds hend hloop => exact ⟨.idle, hfits⟩

/-- At the end of a file, the loop over all its records is the loop over those in the buffer. -/
theorem selectRows_readRecords {columnCount : Nat} {indexes : List Nat}
    {test : Option (Nat × Bytes)} {content taken buffered : Bytes} {rows : List (List Bytes)}
    (hread : taken ++ buffered <+: content) (hend : content.length ≤ (taken ++ buffered).length)
    (hclosed : residue recordFull taken = [])
    (hrows : selectRows columnCount indexes test ((cut recordFull taken).map cString) [] =
      .ok rows) :
    selectRows columnCount indexes test (readRecords content) [] =
      selectRows columnCount indexes test ((cut recordFull buffered).map cString) rows := by
  rw [← hread.eq_of_length_le hend, readRecords_append hclosed]
  exact selectRows_append _ hrows

/-- The answer of a SELECT to the records of a file is its answer to the same records in the
files that the whole statements have left. -/
theorem select_takesEffect {statement : SelectStatement} {plan : SelectPlan}
    {outcome : Except SqlError (List (List Bytes))} (hsame : Created (Under dbRoot) files whole)
    (hprepared : prepareSelect dbRoot statement files = .ok plan)
    (hexists : (files plan.table.dataPath).isSome = true)
    (hloop : selectRows plan.table.columns.length plan.indexes plan.test
      (readRecords (files.content plan.table.dataPath)) [] = outcome) :
    ∃ whole', executeStatement dbRoot (.select statement) whole =
        (outcome.map fun rows => .select ⟨plan.projected, rows⟩, whole') ∧
      Created (Under dbRoot) files whole' := by
  have hplan := (prepareSelect_congr (hsame.schema _ _)).trans hprepared
  refine ⟨_, ?_, hsame.ensured hexists⟩
  rw [executeStatement_select_of_prepared hplan, hsame.content, hloop]

/-- One file call: nothing shows, or the statement under way has taken effect as a whole. -/
theorem SparingStep.effect (h : SparingStep bufferSize dbRoot p files p' files')
    (hrelies : Relies bufferSize dbRoot files p) (hsame : Created (Under dbRoot) files whole) :
    (p'.progress = p.progress ∧ Created (Under dbRoot) files' whole) ∨
      ∃ whole', p.progress.next (executeStatement dbRoot) whole = (p'.progress, whole') ∧
        Created (Under dbRoot) files' whole' := by
  obtain ⟨hstep, hspares⟩ := h
  obtain ⟨hphase, hfits⟩ := hrelies
  cases hstep with
  | insertRefused hrefused =>
      have hinsert := executeStatement_insert_of_refused
        ((prepareInsert_congr (hsame.schema _ _)).trans hrefused)
      exact .inr ⟨whole, Progress.next_error rfl rfl hinsert, hsame⟩
  | insertPrepared hprepared => exact .inl ⟨rfl, hsame⟩
  | extended =>
      cases hphase with
      | extending hprepared =>
          rw [prepareInsert_path hprepared]
          exact .inl ⟨rfl, hsame.ensureDataFile rfl⟩
  | flushed hrest hlong =>
      cases hphase with
      | appending hprepared =>
          exact absurd (hfits _ List.mem_cons_self _ _ hprepared) (Nat.not_le_of_lt hlong)
  | closed =>
      cases hphase with
      | appending hprepared =>
          have hinsert := executeStatement_insert_of_prepared
            ((prepareInsert_congr (hsame.schema _ _)).trans hprepared)
          exact .inr ⟨_, Progress.next_ok rfl rfl hinsert, hsame.append _ _⟩
  | selectRefused hrefused =>
      have hselect := executeStatement_select_of_refused
        ((prepareSelect_congr (hsame.schema _ _)).trans hrefused)
      exact .inr ⟨whole, Progress.next_error rfl rfl hselect, hsame⟩
  | selectPrepared hprepared => exact .inl ⟨rfl, hsame⟩
  | opened hexists => exact .inl ⟨rfl, hsame⟩
  | openFailed hmissing => exact .inl ⟨rfl, hsame⟩
  | created =>
      cases hphase with
      | creating hprepared =>
          have hempty := hspares _ rfl
          rw [prepareSelect_path hprepared] at hempty ⊢
          exact .inl ⟨rfl, hsame.writeTextFile rfl hempty⟩
  | reopened hexists => exact .inl ⟨rfl, hsame⟩
  | fetched => exact .inl ⟨rfl, hsame⟩
  | taken => exact .inl ⟨rfl, hsame⟩
  | @rejected todo outputs files plan offset buffered record records rows e hrecord hrow =>
      cases hphase with
      | @reading statement rest outputs plan offset taken buffered rows hprepared hexists hread
          hoffset hclosed hrows =>
          obtain ⟨hsplit, hcut, hresidue⟩ := closed_first hrecord
          obtain ⟨unread, hcontent⟩ := hread
          have hloop : selectRows plan.table.columns.length plan.indexes plan.test
              (readRecords (files.content plan.table.dataPath)) [] = .error e := by
            rw [← hcontent, List.append_assoc, hsplit, List.append_assoc,
              readRecords_append hclosed, selectRows_append _ hrows,
              cut_append_of_residue_nil _ hresidue, hcut, List.singleton_append, selectRows_cons,
              hrow]
          obtain ⟨whole', hselect, hsame'⟩ := select_takesEffect hsame hprepared hexists hloop
          exact .inr ⟨whole', Progress.next_error rfl rfl hselect, hsame'⟩
  | @ended statement rest outputs files plan offset buffered rows rows' hneeds hend hloop =>
      cases hphase with
      | @reading statement rest outputs plan offset taken buffered rows hprepared hexists hread
          hoffset hclosed hrows =>
          rw [hoffset] at hend
          rw [← selectRows_readRecords hread hend hclosed hrows] at hloop
          obtain ⟨whole', hselect, hsame'⟩ := select_takesEffect hsame hprepared hexists hloop
          exact .inr ⟨whole', Progress.next_ok rfl rfl hselect, hsame'⟩
  | @endRejected todo outputs files plan offset buffered rows e hneeds hend hloop =>
      cases hphase with
      | @reading statement rest outputs plan offset taken buffered rows hprepared hexists hread
          hoffset hclosed hrows =>
          rw [hoffset] at hend
          rw [← selectRows_readRecords hread hend hclosed hrows] at hloop
          obtain ⟨whole', hselect, hsame'⟩ := select_takesEffect hsame hprepared hexists hloop
          exact .inr ⟨whole', Progress.next_error rfl rfl hselect, hsame'⟩

/-- A process that has a statement to run is never stuck and waits for no other: its next
file call is there to be made. -/
theorem Relies.exists_step (h : Relies bufferSize dbRoot files p)
    (hfault : p.progress.fault = none) (htodo : p.progress.todo ≠ []) :
    ∃ p' files', ProcessStep bufferSize dbRoot p files p' files' := by
  obtain ⟨hphase, -⟩ := h
  cases hphase with
  | @idle progress =>
      obtain ⟨todo, outputs, fault⟩ := progress
      obtain ⟨statement, rest, rfl⟩ := List.exists_cons_of_ne_nil htodo
      obtain rfl : fault = none := hfault
      cases statement with
      | insert statement =>
          cases hprepared : prepareInsert dbRoot statement files with
          | error e => exact ⟨_, _, .insertRefused hprepared⟩
          | ok prepared => exact ⟨_, _, .insertPrepared hprepared⟩
      | select statement =>
          cases hprepared : prepareSelect dbRoot statement files with
          | error e => exact ⟨_, _, .selectRefused hprepared⟩
          | ok plan => exact ⟨_, _, .selectPrepared hprepared⟩
  | extending => exact ⟨_, _, .extended⟩
  | appending => exact ⟨_, _, .closed⟩
  | @opening statement rest outputs plan hprepared =>
      cases hfile : files plan.table.dataPath with
      | none => exact ⟨_, _, .openFailed hfile⟩
      | some content => exact ⟨_, _, .opened (by simp [hfile])⟩
  | creating => exact ⟨_, _, .created⟩
  | reopening _ hexists => exact ⟨_, _, .reopened hexists⟩
  | @reading statement rest outputs plan offset taken buffered rows =>
      cases hrecord : closedFrom recordFull [] buffered with
      | cons record records =>
          cases hrow : plan.row record rows with
          | error e => exact ⟨_, _, .rejected hrecord hrow⟩
          | ok rows' => exact ⟨_, _, .taken hrecord hrow⟩
      | nil =>
          by_cases hend : (files.content plan.table.dataPath).length ≤ offset
          · cases hrows : selectRows plan.table.columns.length plan.indexes plan.test
                ((cut recordFull buffered).map cString) rows with
            | error e => exact ⟨_, _, .endRejected hrecord hend hrows⟩
            | ok rows' => exact ⟨_, _, .ended hrecord hend hrows⟩
          · refine ⟨_, _, .fetched hrecord ?_ List.prefix_rfl⟩
            intro hnil
            exact hend (List.drop_eq_nil_iff.mp hnil)

theorem sparingStep_linearizes (bufferSize : Nat) (dbRoot : Bytes) :
    Linearizes (SparingStep bufferSize dbRoot) (executeStatement dbRoot) Process.progress
      (Relies bufferSize dbRoot) (GrowsTo dbRoot) (Created (Under dbRoot)) where
  effect hrelies hsame hstep := by
    rcases hstep.effect hrelies hsame with hnothing | ⟨whole', hnext, hsame'⟩
    · exact .inl hnothing
    · rw [hnext]
      exact .inr ⟨rfl, hsame'⟩
  knows hrelies hstep := hstep.relies hrelies
  guarantees hrelies hstep := hstep.growsTo hrelies
  stable hgrows hrelies := hrelies.stable hgrows

end Rely

/-! ## Runs -/

section Runs

variable {π : Type} {bufferSize : Nat} {dbRoot : Bytes} {files : FileSystem}
  {texts : π → Bytes} {events : List (Event (World π Process FileSystem) π)}
  {w : World π Process FileSystem}

/-- The statements of the texts. -/
def scriptOf (texts : π → Bytes) (i : π) : List Statement :=
  (parseSqlScript (cString (texts i))).script

/-- A process for each text. -/
def sideBySide (texts : π → Bytes) (files : FileSystem) : World π Process FileSystem :=
  ⟨fun i => .start (texts i), files⟩

/-- Every line that the texts can insert fits the buffer of a stream. -/
def LinesFitStream (bufferSize : Nat) (dbRoot : Bytes) (texts : π → Bytes)
    (files : FileSystem) : Prop :=
  ∀ i statement, .insert statement ∈ scriptOf texts i → ∀ path line,
    prepareInsert dbRoot statement files = .ok (path, line) → line.length ≤ bufferSize

theorem relies_start (hfits : LinesFitStream bufferSize dbRoot texts files) (i : π) :
    Relies bufferSize dbRoot files (.start (texts i)) :=
  ⟨.idle, hfits i⟩

theorem sideBySide_shows (texts : π → Bytes) (files : FileSystem) :
    (sideBySide texts files).Shows Process.progress (Created (Under dbRoot))
      (fun i => .start (scriptOf texts i), files) :=
  ⟨rfl, .refl _ files⟩

theorem linesFitStream_of_rowsFit {db : Database} (h : Stores dbRoot files db)
    (hfits : ∀ i, RowsFit db (scriptOf texts i)) (hbuffer : lineCapacity ≤ bufferSize) :
    LinesFitStream bufferSize dbRoot texts files := by
  intro i statement hmem path line hprepared
  obtain ⟨table, hload, hinsertable, -, rfl⟩ := prepareInsert_eq_ok_iff.mp hprepared
  obtain ⟨name, hname⟩ := (parseSqlScript_cString_written (texts i) _ hmem).target
  have htarget : statement.target = name.qualified := hname
  rw [htarget] at hload
  cases hr : db name.qualified with
  | none =>
      obtain ⟨e, herror⟩ := h.absent name hr
      rw [herror] at hload
      simp at hload
  | some r =>
      obtain ⟨table', hstored⟩ := h.present name r hr
      obtain rfl : table' = table := Except.ok.inj (hstored.load.symm.trans hload)
      rw [← hstored.heading] at hinsertable ⊢
      have hlength := hfits i statement hmem r (by rw [htarget, hr]) hinsertable
      exact Nat.le_of_lt (Nat.lt_of_lt_of_le hlength hbuffer)

variable [DecidableEq π]

/-- The runs of processes side by side. -/
abbrev ConcurrentRun (bufferSize : Nat) (dbRoot : Bytes) :
    World π Process FileSystem → List (Event (World π Process FileSystem) π) →
      World π Process FileSystem → Prop :=
  Run (WorldStep (ProcessStep bufferSize dbRoot))

/-- A run of sparing steps is a run in which no data file is emptied that holds something. -/
theorem sparingRun_iff {start : World π Process FileSystem} :
    Run (WorldStep (SparingStep bufferSize dbRoot)) start events w ↔
      ConcurrentRun bufferSize dbRoot start events w ∧
        ∀ e ∈ events, (e.before.parties e.label).Spares e.before.shared := by
  constructor
  · intro h
    refine ⟨h.of_mem fun e he => ?_, fun e he => ?_⟩
    · obtain ⟨p, s, hstep, hafter⟩ := h.step_of_mem e he
      exact ⟨p, s, hstep.1, hafter⟩
    · obtain ⟨p, s, hstep, -⟩ := h.step_of_mem e he
      exact hstep.2
  · rintro ⟨h, hspares⟩
    refine h.of_mem fun e he => ?_
    obtain ⟨p, s, hstep, hafter⟩ := h.step_of_mem e he
    exact ⟨p, s, ⟨hstep, hspares e he⟩, hafter⟩

/-- Processes side by side over files that store a database: in some order of whole
statements the database answers what every process has answered, and the files store what
the database then is. -/
theorem concurrentRun_refines {db : Database} (h : Stores dbRoot files db)
    (hfits : ∀ i, RowsFit db (scriptOf texts i)) (hbuffer : lineCapacity ≤ bufferSize)
    (hrun : ConcurrentRun bufferSize dbRoot (sideBySide texts files) events w)
    (hspares : ∀ e ∈ events, (e.before.parties e.label).Spares e.before.shared) :
    ∃ order : List π, order.Sublist (events.map Event.label) ∧
      ∃ final : (π → Progress Statement Unit Answer) × Database,
        interleave Database.execute order (fun i => .start (scriptOf texts i), db) = final ∧
        Stores dbRoot w.shared final.2 ∧
        ∀ i, MirrorsProgress AnswerIs (w.parties i).progress (final.1 i) := by
  have hrelies := relies_start (linesFitStream_of_rowsFit h hfits hbuffer)
  obtain ⟨order, horder, hshows⟩ := (sparingStep_linearizes bufferSize dbRoot).run hrelies
    (sideBySide_shows texts files) (sparingRun_iff.mpr ⟨hrun, hspares⟩)
  refine ⟨order, horder, _, rfl, ?_⟩
  have hstep : ∀ i, ∀ statement ∈ (Progress.start (scriptOf texts i) :
        Progress Statement SqlError ExecutionResult).todo,
      ∀ files db', StoresUnder dbRoot db files db' → Mirrors (StoresUnder dbRoot db) AnswerIs
        (executeStatement dbRoot statement files) (db'.execute statement) := by
    intro i statement hmem files db' hstores
    exact executeStatement_mirrorsUnder hstores (parseSqlScript_cString_written (texts i))
      (hfits i) hmem
  have hmirrors := interleave_mirrors order hstep
    (fun i => MirrorsProgress.start AnswerIs (scriptOf texts i)) (⟨h, fun _ => rfl⟩ :
      StoresUnder dbRoot db files db)
  rw [hshows.progress] at hmirrors
  refine ⟨hmirrors.2.1.congr (fun name => ?_) fun path => ?_, hmirrors.1⟩
  · exact (hshows.shared.schema _ _).symm
  · exact (hshows.shared.content path).symm

end Runs

section Small

/-- One process that inserts and one that queries. -/
def besideTexts (queries : Bool) : Bytes :=
  if queries then ascii "SELECT * FROM t" else ascii "INSERT INTO t (c) VALUES ('a|b')"

theorem scriptOf_besideTexts :
    scriptOf besideTexts true = [.select ⟨⟨none, some (ascii "t")⟩, true, [], none⟩] ∧
      scriptOf besideTexts false =
        [.insert ⟨⟨none, some (ascii "t")⟩, [ascii "c"], [ascii "a|b"]⟩] := by
  decide +kernel

theorem besideTexts_fit (i : Bool) :
    RowsFit (schemaDatabase (ascii "db") oneColumn) (scriptOf besideTexts i) := by
  cases i with
  | true =>
      rw [scriptOf_besideTexts.1]
      intro statement hmem
      simp at hmem
  | false => exact pipeTexts_fit _ List.mem_cons_self

/-- Two processes. -/
def twoProcesses (queries inserts : Process) (files : FileSystem) :
    World Bool Process FileSystem :=
  ⟨fun i => if i then queries else inserts, files⟩

theorem twoProcesses_queries {queries queries' inserts : Process} {files files' : FileSystem}
    (h : ProcessStep lineCapacity (ascii "db") queries files queries' files')
    (hspares : queries.Spares files) :
    WorldStep (SparingStep lineCapacity (ascii "db")) (twoProcesses queries inserts files) true
      (twoProcesses queries' inserts files') := by
  refine ⟨queries', files', ⟨h, hspares⟩, ?_⟩
  simp only [twoProcesses, World.mk.injEq, and_true]
  funext i
  cases i <;> rfl

theorem twoProcesses_inserts {queries inserts inserts' : Process} {files files' : FileSystem}
    (h : ProcessStep lineCapacity (ascii "db") inserts files inserts' files')
    (hspares : inserts.Spares files) :
    WorldStep (SparingStep lineCapacity (ascii "db")) (twoProcesses queries inserts files) false
      (twoProcesses queries inserts' files') := by
  refine ⟨inserts', files', ⟨h, hspares⟩, ?_⟩
  simp only [twoProcesses, World.mk.injEq, and_true]
  funext i
  cases i <;> rfl

theorem spares_of_not_creating {p : Process} {files : FileSystem}
    (h : ∀ plan, p.phase ≠ .creating plan) : p.Spares files :=
  fun plan hphase => absurd hphase (h plan)

/-- The INSERT and its line. -/
def besideInsert : InsertStatement := ⟨⟨none, some (ascii "t")⟩, [ascii "c"], [ascii "a|b"]⟩

def besideLine : Bytes := serializeRow [ascii "a|b"]

theorem besideInsert_row :
    Insertable [ascii "c"] besideInsert ∧
      besideLine = serializeRow (intendedRow [ascii "c"] besideInsert) := by decide +kernel

theorem besideLine_record : closedFrom recordFull [] besideLine = [besideLine] := by
  decide +kernel

theorem besideLine_row :
    selectRows 1 (List.range 1) none [cString besideLine] [] = .ok [[ascii "a|b"]] := by
  decide +kernel

theorem sideBySide_besideTexts (files : FileSystem) :
    sideBySide besideTexts files =
      twoProcesses ⟨⟨[.select ⟨⟨none, some (ascii "t")⟩, true, [], none⟩], [], none⟩, .idle⟩
        ⟨⟨[.insert besideInsert], [], none⟩, .idle⟩ files := by
  obtain ⟨hqueries, hinserts⟩ := scriptOf_besideTexts
  simp only [sideBySide, twoProcesses, World.mk.injEq, and_true]
  funext i
  cases i with
  | true => exact congrArg (fun script => (⟨.start script, .idle⟩ : Process)) hqueries
  | false => exact congrArg (fun script => (⟨.start script, .idle⟩ : Process)) hinserts

/-- The data file is missing at first.  The SELECT finds no file, the INSERT creates it, the
SELECT creates it once more, and the line is flushed before the SELECT reads it. -/
theorem exists_concurrentRun_beside :
    ∃ events w, ConcurrentRun lineCapacity (ascii "db") (sideBySide besideTexts oneColumn)
        events w ∧
      (∀ e ∈ events, (e.before.parties e.label).Spares e.before.shared) ∧
      events.map Event.label =
        [true, true, false, false, true, true, false, true, true, true] ∧
      (w.parties true).progress.outputs = [.select ⟨[ascii "c"], [[ascii "a|b"]]⟩] := by
  obtain ⟨⟨name, columns, schemaPath, dataPath, haccepted⟩, hload, hcolumns, hpath⟩ :
      ∃ table, loadTableDefinition (ascii "db") ⟨none, some (ascii "t")⟩ oneColumn = .ok table ∧
        _ := loadTableDefinition_of_file (ascii "c") (by decide) (by decide) (by decide +kernel)
  obtain rfl : columns = [ascii "c"] := hcolumns.trans (by decide +kernel)
  obtain rfl : dataPath = ascii "db/t.data" := hpath.trans (by decide)
  let plan : SelectPlan := ⟨⟨name, [ascii "c"], schemaPath, ascii "db/t.data", haccepted⟩,
    List.range 1, [ascii "c"], none⟩
  let select (phase : ProcessPhase) : Process :=
    ⟨⟨[.select ⟨⟨none, some (ascii "t")⟩, true, [], none⟩], [], none⟩, phase⟩
  let insert (phase : ProcessPhase) : Process := ⟨⟨[.insert besideInsert], [], none⟩, phase⟩
  let inserted : Process := ⟨⟨[], [.insert 1], none⟩, .idle⟩
  let answered : Process :=
    ⟨⟨[], [.select ⟨[ascii "c"], [[ascii "a|b"]]⟩], none⟩, .idle⟩
  let opened : FileSystem := ensureDataFile (ascii "db/t.data") oneColumn
  let created : FileSystem := writeTextFile (ascii "db/t.data") [] opened
  let flushed : FileSystem := appendTextFile (ascii "db/t.data") besideLine created
  have hmissing : oneColumn (ascii "db/t.data") = none := by decide
  have hopened : opened.content (ascii "db/t.data") = [] := by
    rw [show opened.content _ = _ from content_ensureDataFile _, FileSystem.content, hmissing]
    rfl
  have hflushed : flushed.content (ascii "db/t.data") = besideLine := by
    simp only [flushed, created, content_appendTextFile, content_writeTextFile, List.nil_append]
  have hselect : prepareSelect (ascii "db") ⟨⟨none, some (ascii "t")⟩, true, [], none⟩ oneColumn =
      .ok plan := prepareSelect_star hload
  have hinsert : prepareInsert (ascii "db") besideInsert oneColumn =
      .ok (ascii "db/t.data", besideLine) :=
    prepareInsert_eq_ok_iff.mpr ⟨_, hload, besideInsert_row.1, rfl, besideInsert_row.2⟩
  have hrow : plan.row besideLine [] = .ok [[ascii "a|b"]] := besideLine_row
  have hrest : ([] ++ besideLine).drop besideLine.length = [] := by simp
  have hsteps : Run (WorldStep (SparingStep lineCapacity (ascii "db")))
      (twoProcesses (select .idle) (insert .idle) oneColumn) _
      (twoProcesses answered inserted flushed) :=
    .step (t := twoProcesses (select (.opening plan)) (insert .idle) oneColumn)
      (twoProcesses_queries (.selectPrepared hselect) (spares_of_not_creating (by simp [select])))
    <| .step (t := twoProcesses (select (.creating plan)) (insert .idle) oneColumn)
      (twoProcesses_queries (.openFailed hmissing) (spares_of_not_creating (by simp [select])))
    <| .step (t := twoProcesses (select (.creating plan))
        (insert (.extending (ascii "db/t.data") besideLine)) oneColumn)
      (twoProcesses_inserts (.insertPrepared hinsert) (spares_of_not_creating (by simp [insert])))
    <| .step (t := twoProcesses (select (.creating plan))
        (insert (.appending (ascii "db/t.data") besideLine)) opened)
      (twoProcesses_inserts .extended (spares_of_not_creating (by simp [insert])))
    <| .step (t := twoProcesses (select (.reopening plan))
        (insert (.appending (ascii "db/t.data") besideLine)) created)
      (twoProcesses_queries .created fun plan' hplan => by
        obtain rfl : plan = plan' := ProcessPhase.creating.inj hplan
        exact hopened)
    <| .step (t := twoProcesses (select (.reading plan 0 [] []))
        (insert (.appending (ascii "db/t.data") besideLine)) created)
      (twoProcesses_queries (.reopened (by simp [plan, created]))
        (spares_of_not_creating (by simp [select])))
    <| .step (t := twoProcesses (select (.reading plan 0 [] [])) inserted flushed)
      (twoProcesses_inserts .closed (spares_of_not_creating (by simp [insert])))
    <| .step (t := twoProcesses
        (select (.reading plan (0 + besideLine.length) ([] ++ besideLine) [])) inserted flushed)
      (twoProcesses_queries (.fetched rfl (serializeRow_ne_nil _)
        (by simp [plan, hflushed])) (spares_of_not_creating (by simp [select])))
    <| .step (t := twoProcesses (select (.reading plan (0 + besideLine.length)
        (([] ++ besideLine).drop besideLine.length) [[ascii "a|b"]])) inserted flushed)
      (twoProcesses_queries (.taken besideLine_record hrow)
        (spares_of_not_creating (by simp [select])))
    <| .single (twoProcesses_queries (.ended (by rw [hrest]; rfl) (by simp [plan, hflushed])
        (by rw [hrest]; rfl)) (spares_of_not_creating (by simp [select])))
  obtain ⟨hrun, hspares⟩ := sparingRun_iff.mp hsteps
  rw [sideBySide_besideTexts]
  exact ⟨_, _, hrun, hspares, rfl, rfl⟩

theorem concurrentRun_refines_beside :
    ∃ events w, ∃ order : List Bool,
      ConcurrentRun lineCapacity (ascii "db") (sideBySide besideTexts oneColumn) events w ∧
      (w.parties true).progress.outputs = [.select ⟨[ascii "c"], [[ascii "a|b"]]⟩] ∧
      order.Sublist [true, true, false, false, true, true, false, true, true, true] ∧
      ∃ final : (Bool → Progress Statement Unit Answer) × Database,
        interleave Database.execute order
          (fun i => .start (scriptOf besideTexts i), schemaDatabase (ascii "db") oneColumn) =
            final ∧
        Stores (ascii "db") w.shared final.2 ∧
        ∀ i, MirrorsProgress AnswerIs (w.parties i).progress (final.1 i) := by
  obtain ⟨events, w, hrun, hspares, hlabels, hanswer⟩ := exists_concurrentRun_beside
  obtain ⟨order, horder, hfinal⟩ := concurrentRun_refines oneColumn_stores besideTexts_fit
    (Nat.le_refl _) hrun hspares
  rw [hlabels] at horder
  exact ⟨events, w, order, hrun, hanswer, horder, hfinal⟩

end Small

end MiniSql
