import MiniSql.Storage.Memory

set_option autoImplicit false

/-!
# The storage layer without memory

Every request of the storage layer is looked at, and the file is touched behind the last
one.  So an operation does what it does without refusals, or answers false and has done
nothing.
-/

namespace MiniSql

open Foundation

section Checks

open Alloc

/-- Every refusal makes the call fail. -/
abbrev Guarded {ε α : Type} (c : Alloc Request ε α) : Prop := Checked (fun _ => False) c

theorem guarded_demand {ε : Type} (site : Request) (e : ε) : Guarded (demand site e) :=
  .demand not_false e

theorem guarded_demandBoth {ε : Type} (first second : Request) (e : ε) :
    Guarded (demandBoth first second e) :=
  .demandBoth not_false not_false e

theorem guarded_append (e : Failure) (list : List Bytes) (capacity : Nat) (value : Bytes) :
    Guarded (stringListAppend e list capacity value) :=
  stringListAppend_checked not_false not_false e list capacity value

theorem guarded_appendAll (e : Failure) (values list : List Bytes) (capacity : Nat) :
    Guarded (appendAll e values list capacity) :=
  appendAll_checked not_false not_false e values list capacity

/-! ## Rows -/

theorem splitPipeFromAlloc_guarded (buffer line : Bytes) (capacity : Nat) (values : List Bytes)
    (valuesCapacity : Nat) :
    Guarded (splitPipeFromAlloc buffer capacity values valuesCapacity line) := by
  have hfield : ∀ buffer capacity values valuesCapacity,
      Guarded (endField buffer capacity values valuesCapacity) :=
    fun _ _ _ _ => (Checked.reserve not_false _ _ _ _).bind fun _ => guarded_append _ _ _ _
  fun_induction splitPipeFromAlloc buffer capacity values valuesCapacity line with
  | case1 => exact (hfield _ _ _ _).bind fun _ => .done _
  | case2 => exact (hfield _ _ _ _).bind fun _ => .done _
  | case3 buffer capacity values valuesCapacity rest hnewline ih => exact ih
  | case4 buffer capacity values valuesCapacity rest hnewline hcr ih =>
      exact (hfield _ _ _ _).bind fun r => ih r.1 r.2
  | case5 buffer capacity values valuesCapacity ch rest hnewline hcr hpipe ihEscape ih =>
      refine (Checked.reserve not_false _ _ _ _).bind fun capacity => ?_
      have hescape := ihEscape capacity
      split
      · cases rest with
        | nil => exact hescape
        | cons next rest =>
            dsimp only
            cases unescapeByte next with
            | none => exact hescape.2
            | some b => exact hescape.1 b
      · exact ih capacity

theorem escapeFrom_guarded (value buffer : Bytes) (capacity : Nat) :
    Guarded (escapeFrom value buffer capacity) := by
  induction value generalizing buffer capacity with
  | nil => exact .done _
  | cons ch value ih => exact (Checked.reserve not_false _ _ _ _).bind fun _ => ih _ _

theorem serializeRowAlloc_guarded (values : List Bytes) : Guarded (serializeRowAlloc values) := by
  have hfields : Guarded (escapeFields values) := by
    induction values with
    | nil => exact .done _
    | cons value values ih =>
        refine ((guarded_demand _ _).bind fun _ => escapeFrom_guarded value [] 16).bind fun _ => ?_
        exact ih.bind fun _ => .done _
  refine (guarded_demand _ _).bind fun _ => hfields.bind fun escaped => ?_
  exact (guarded_demand _ _).bind fun _ => .done _

/-! ## Tables and statements -/

theorem ensureParentDirectory_guarded (path : Bytes) : Guarded (ensureParentDirectory path) := by
  unfold ensureParentDirectory
  cases parentPath path with
  | none => exact .done _
  | some parent =>
      refine (guarded_demand _ _).bind fun _ => ?_
      split
      · exact .done _
      · exact guarded_demand _ _

theorem loadTableDefinitionAlloc_guarded (dbRoot : Bytes) (name : QualifiedName)
    (files : FileSystem) : Guarded (loadTableDefinitionAlloc dbRoot name files) := by
  have hname : Guarded (copyName name) := by
    unfold copyName
    split
    · exact guarded_demandBoth _ _ _
    · exact guarded_demand _ _
  have hread : ∀ path, Guarded (readTextFileAlloc path files) := by
    intro path
    unfold readTextFileAlloc
    split
    · exact .fail _
    · exact (guarded_demand _ _).bind fun _ => .done _
  unfold loadTableDefinitionAlloc
  split
  · exact .fail _
  · refine (guarded_demandBoth _ _ _).bind fun _ => hname.bind fun _ => ?_
    refine (hread _).bind fun content => (splitPipeFromAlloc_guarded _ _ _ _ _).bind fun _ => ?_
    split
    · exact .fail _
    · exact .done _

theorem placeValuesAlloc_guarded (columns : List Bytes) (pairs : List (Bytes × Bytes))
    (ordered : List Bytes) (assigned : List Bool) :
    Guarded (placeValuesAlloc columns pairs ordered assigned) := by
  induction pairs generalizing ordered assigned with
  | nil => exact .done _
  | cons p pairs ih =>
      unfold placeValuesAlloc
      split
      · exact .fail _
      · split
        · exact .fail _
        · exact (guarded_demand _ _).bind fun _ => ih _ _

theorem prepareInsertAlloc_guarded (dbRoot : Bytes) (statement : InsertStatement)
    (files : FileSystem) : Guarded (prepareInsertAlloc dbRoot statement files) := by
  unfold prepareInsertAlloc
  split
  · exact .fail _
  · refine (loadTableDefinitionAlloc_guarded _ _ _).bind fun table => ?_
    refine (guarded_demand _ _).bind fun _ => (guarded_appendAll _ _ _ _).bind fun slots => ?_
    refine (placeValuesAlloc_guarded _ _ _ _).bind fun row => ?_
    refine (serializeRowAlloc_guarded row).bind fun line => ?_
    exact (ensureParentDirectory_guarded _).bind fun _ => .done _

theorem prepareSelectAlloc_guarded (dbRoot : Bytes) (statement : SelectStatement)
    (files : FileSystem) : Guarded (prepareSelectAlloc dbRoot statement files) := by
  have hcolumns : ∀ columns names indexes projected capacity,
      Guarded (selectColumnsAlloc columns names indexes projected capacity) := by
    intro columns names
    induction names with
    | nil => exact fun _ _ _ => .done _
    | cons name names ih =>
        intro indexes projected capacity
        unfold selectColumnsAlloc
        split
        · exact .fail _
        · exact (guarded_append _ _ _ _).bind fun r => ih _ r.1 r.2
  refine (loadTableDefinitionAlloc_guarded _ _ _).bind fun table => ?_
  refine Checked.bind ?_ fun columns => ?_
  · unfold prepareColumnsAlloc
    split
    · refine (guarded_appendAll _ _ _ _).bind fun _ => ?_
      exact (guarded_demand _ _).bind fun _ => .done _
    · exact (guarded_demand _ _).bind fun _ => hcolumns _ _ _ _ _
  · dsimp only
    split
    · exact .fail _
    · exact .done _

theorem selectRowsAlloc_guarded (plan : SelectPlan) (records : List Bytes)
    (rows : List (List Bytes)) (capacity : Nat) :
    Guarded (selectRowsAlloc plan records rows capacity) := by
  induction records generalizing rows capacity with
  | nil => exact .done _
  | cons record records ih =>
      unfold selectRowsAlloc
      refine (splitPipeFromAlloc_guarded _ _ _ _ _).bind fun values => ?_
      split
      · exact .fail _
      · split
        · exact ih rows capacity
        · refine (guarded_appendAll _ _ _ _).bind fun projected =>
            Checked.bind ?_ fun r => ih r.1 r.2
          refine (Checked.reserve not_false _ _ _ _).bind fun _ => ?_
          exact (guarded_appendAll _ _ _ _).bind fun _ => .done _

theorem appendInsertRowAlloc_guarded (dbRoot : Bytes) (statement : InsertStatement)
    (affectedRows : Nat) (files : FileSystem) :
    Guarded (appendInsertRowAlloc dbRoot statement affectedRows files) :=
  ((prepareInsertAlloc_guarded dbRoot statement files).mapError _).bind fun _ => .done _

theorem runSelectQueryAlloc_guarded (dbRoot : Bytes) (statement : SelectStatement)
    (files : FileSystem) : Guarded (runSelectQueryAlloc dbRoot statement files) := by
  refine ((prepareSelectAlloc_guarded dbRoot statement files).mapError _).bind fun plan => ?_
  refine Checked.bind (Checked.mapError ?_ _) fun _ => ?_
  · unfold prepareDataFile
    split
    · exact (ensureParentDirectory_guarded _).bind fun _ => ensureParentDirectory_guarded _
    · exact .done _
  · exact ((selectRowsAlloc_guarded plan _ _ _).mapError _).bind fun _ => .done _

end Checks

/-! ## Operations under a pattern -/

/-- An INSERT that answers false leaves the number of rows and the files as they were. -/
def InsertAttempt.Refused (affectedRows : Nat) (files : FileSystem) (attempt : InsertAttempt) :
    Prop :=
  attempt.result ≠ .ok () ∧ attempt.affectedRows = affectedRows ∧ attempt.files = files

/-- A SELECT that answers false leaves an empty result and every content as it was. -/
def SelectAttempt.Refused (files : FileSystem) (attempt : SelectAttempt) : Prop :=
  attempt.result ≠ .ok () ∧ attempt.query = .empty ∧
    ∀ path, attempt.files.content path = files.content path

/-- Every error of the call is an answer of false that has changed nothing. -/
theorem appendInsertRowAlloc_failsWith (dbRoot : Bytes) (statement : InsertStatement)
    (affectedRows : Nat) (files : FileSystem) :
    (appendInsertRowAlloc dbRoot statement affectedRows files).FailsWith
      (InsertAttempt.Refused affectedRows files) :=
  (Alloc.FailsWith.mapError (fun _ => ⟨by simp, rfl, rfl⟩) _).bind fun _ => trivial

theorem runSelectQueryAlloc_failsWith (dbRoot : Bytes) (statement : SelectStatement)
    (files : FileSystem) :
    (runSelectQueryAlloc dbRoot statement files).FailsWith (SelectAttempt.Refused files) := by
  refine (Alloc.FailsWith.mapError (fun _ => ⟨by simp, rfl, fun _ => rfl⟩) _).bind fun plan => ?_
  refine (Alloc.FailsWith.mapError (fun _ => ⟨by simp, rfl, fun _ => rfl⟩) _).bind fun _ => ?_
  refine (Alloc.FailsWith.mapError (fun _ => ⟨by simp, rfl, ?_⟩) _).bind fun _ => trivial
  exact fun path => content_ensureDataFile path

theorem appendInsertRowUnder_faithful (pattern : Nat → Bool) (dbRoot : Bytes)
    (statement : InsertStatement) (affectedRows : Nat) (files : FileSystem) :
    let attempt := appendInsertRowUnder pattern dbRoot statement affectedRows files
    let outcome := appendInsertRow dbRoot statement affectedRows files
    attempt.Refused affectedRows files ∨
      (attempt.result = .ok () ∧ outcome.result = .ok () ∧
        attempt.affectedRows = outcome.affectedRows ∧ attempt.files = outcome.files) := by
  intro attempt outcome
  unfold attempt appendInsertRowUnder
  cases hrun : (appendInsertRowAlloc dbRoot statement affectedRows files).run pattern with
  | error refused => exact .inl ((appendInsertRowAlloc_failsWith _ _ _ _).run hrun)
  | ok done =>
      have hgranted := (appendInsertRowAlloc_guarded _ _ _ _).run_ok hrun
      rw [appendInsertRowAlloc_granted] at hgranted
      cases hresult : outcome.result with
      | error e => simp [outcome, hresult] at hgranted
      | ok =>
          obtain rfl : ⟨.ok (), outcome.affectedRows, outcome.files⟩ = done := by
            simpa [outcome, hresult] using hgranted
          exact .inr ⟨rfl, rfl, rfl, rfl⟩

theorem runSelectQueryUnder_faithful (pattern : Nat → Bool) (dbRoot : Bytes)
    (statement : SelectStatement) (files : FileSystem) :
    let attempt := runSelectQueryUnder pattern dbRoot statement files
    let outcome := runSelectQuery dbRoot statement files
    attempt.Refused files ∨
      (attempt.result = .ok () ∧ outcome.result = .ok () ∧ attempt.query = outcome.query ∧
        attempt.files = outcome.files) := by
  intro attempt outcome
  unfold attempt runSelectQueryUnder
  cases hrun : (runSelectQueryAlloc dbRoot statement files).run pattern with
  | error refused => exact .inl ((runSelectQueryAlloc_failsWith _ _ _).run hrun)
  | ok done =>
      have hgranted := (runSelectQueryAlloc_guarded _ _ _).run_ok hrun
      rw [runSelectQueryAlloc_granted] at hgranted
      cases hresult : outcome.result with
      | error e => simp [outcome, hresult] at hgranted
      | ok =>
          obtain rfl : ⟨.ok (), outcome.query, outcome.files⟩ = done := by
            simpa [outcome, hresult] using hgranted
          exact .inr ⟨rfl, rfl, rfl, rfl⟩

/-- Whatever requests are refused: INSERT answers false and has changed nothing, or answers
true and has appended what it appends without refusals; SELECT answers false, leaves an
empty result and has changed no content, or answers true with the result it gives without
refusals. -/
theorem storage_refusal_faithful (pattern : Nat → Bool) (dbRoot : Bytes) (files : FileSystem) :
    (∀ (statement : InsertStatement) (affectedRows : Nat),
      let attempt := appendInsertRowUnder pattern dbRoot statement affectedRows files
      let outcome := appendInsertRow dbRoot statement affectedRows files
      (attempt.result ≠ .ok () ∧ attempt.affectedRows = affectedRows ∧ attempt.files = files) ∨
        (attempt.result = .ok () ∧ outcome.result = .ok () ∧
          attempt.affectedRows = outcome.affectedRows ∧ attempt.files = outcome.files)) ∧
    ∀ statement : SelectStatement,
      let attempt := runSelectQueryUnder pattern dbRoot statement files
      let outcome := runSelectQuery dbRoot statement files
      (attempt.result ≠ .ok () ∧ attempt.query = .empty ∧
          ∀ path, attempt.files.content path = files.content path) ∨
        (attempt.result = .ok () ∧ outcome.result = .ok () ∧ attempt.query = outcome.query ∧
          attempt.files = outcome.files) :=
  ⟨fun statement affectedRows =>
      appendInsertRowUnder_faithful pattern dbRoot statement affectedRows files,
    fun statement => runSelectQueryUnder_faithful pattern dbRoot statement files⟩

end MiniSql
