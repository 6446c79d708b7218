import MiniSql.CString

set_option autoImplicit false

/-!
# Rows as lines (`split_pipe_line`, `escape_field`, `serialize_row`)

A row is a line of fields between pipes, in which pipes, newlines, carriage
returns and backslashes stand escaped.  What is written is read back
(`splitPipeLine_serializeRow`).
-/

namespace MiniSql

/-- The byte an escape sequence stands for, given the byte behind the backslash. -/
def unescapeByte (next : Byte) : Option Byte :=
  if next = letterN then some newline
  else if next = letterR then some carriageReturn
  else if next = pipe ∨ next = backslash then some next
  else none

/-- The loop of `split_pipe_line`; `buffer` is the field begun. -/
def splitPipeFrom (buffer : Bytes) : Bytes → List Bytes
  | [] => [buffer]
  | ch :: rest =>
      if ch = newline then [buffer]
      else if ch = carriageReturn then splitPipeFrom buffer rest
      else if ch = pipe then buffer :: splitPipeFrom [] rest
      else if ch = backslash then
        -- behind the last byte stands the terminator, which no sequence begins with
        match rest with
        | [] => splitPipeFrom (buffer ++ [ch]) []
        | next :: rest' =>
            match unescapeByte next with
            | some b => splitPipeFrom (buffer ++ [b]) rest'
            | none => splitPipeFrom (buffer ++ [ch]) (next :: rest')
      else splitPipeFrom (buffer ++ [ch]) rest
  termination_by line => line.length

/-- `split_pipe_line`, when its allocations succeed. -/
def splitPipeLine (line : Bytes) : List Bytes := splitPipeFrom [] line

/-- The bytes `escape_field` writes for one byte. -/
def escapeByte (ch : Byte) : Bytes :=
  if ch = backslash then [backslash, backslash]
  else if ch = pipe then [backslash, pipe]
  else if ch = newline then [backslash, letterN]
  else if ch = carriageReturn then [backslash, letterR]
  else [ch]

/-- `escape_field`. -/
def escapeField (value : Bytes) : Bytes := value.flatMap escapeByte

/-- The second loop of `serialize_row`: the fields with a pipe between them. -/
def joinFields : List Bytes → Bytes
  | [] => []
  | [field] => field
  | field :: fields => field ++ pipe :: joinFields fields

/-- `serialize_row`. -/
def serializeRow (values : List Bytes) : Bytes :=
  joinFields (values.map escapeField) ++ [newline]

/-! ## The bytes with a meaning -/

@[simp] theorem carriageReturn_ne_newline : carriageReturn ≠ newline := by decide

@[simp] theorem pipe_ne_newline : pipe ≠ newline := by decide

@[simp] theorem pipe_ne_carriageReturn : pipe ≠ carriageReturn := by decide

@[simp] theorem backslash_ne_newline : backslash ≠ newline := by decide

@[simp] theorem backslash_ne_carriageReturn : backslash ≠ carriageReturn := by decide

@[simp] theorem backslash_ne_pipe : backslash ≠ pipe := by decide

/-- The four escape sequences. -/
theorem unescapeByte_cases {next ch : Byte} (h : unescapeByte next = some ch) :
    (next = letterN ∧ ch = newline) ∨ (next = letterR ∧ ch = carriageReturn) ∨
      (next = pipe ∧ ch = pipe) ∨ (next = backslash ∧ ch = backslash) := by
  unfold unescapeByte at h
  split at h
  · exact .inl ⟨‹_›, (Option.some.inj h).symm⟩
  · split at h
    · exact .inr (.inl ⟨‹_›, (Option.some.inj h).symm⟩)
    · split at h
      · rename_i hnext
        obtain rfl := Option.some.inj h
        rcases hnext with hpipe | hbackslash
        · exact .inr (.inr (.inl ⟨hpipe, hpipe⟩))
        · exact .inr (.inr (.inr ⟨hbackslash, hbackslash⟩))
      · simp at h

@[simp] theorem unescapeByte_backslash : unescapeByte backslash = some backslash := by decide

@[simp] theorem escapeByte_backslash : escapeByte backslash = [backslash, backslash] := by decide

/-! ## The reader, byte by byte -/

section Steps

variable {buffer rest : Bytes} {ch : Byte}

@[simp] theorem splitPipeFrom_nil : splitPipeFrom buffer [] = [buffer] := by
  rw [splitPipeFrom]

@[simp] theorem splitPipeFrom_newline :
    splitPipeFrom buffer (newline :: rest) = [buffer] := by
  rw [splitPipeFrom.eq_def]
  simp

@[simp] theorem splitPipeFrom_pipe :
    splitPipeFrom buffer (pipe :: rest) = buffer :: splitPipeFrom [] rest := by
  rw [splitPipeFrom.eq_def]
  simp

@[simp] theorem splitPipeFrom_carriageReturn :
    splitPipeFrom buffer (carriageReturn :: rest) = splitPipeFrom buffer rest := by
  rw [splitPipeFrom.eq_def]
  simp

theorem splitPipeFrom_backslash {next : Byte} :
    splitPipeFrom buffer (backslash :: next :: rest) =
      match unescapeByte next with
      | some b => splitPipeFrom (buffer ++ [b]) rest
      | none => splitPipeFrom (buffer ++ [backslash]) (next :: rest) := by
  rw [splitPipeFrom.eq_def]
  simp

@[simp] theorem splitPipeFrom_backslash_nil :
    splitPipeFrom buffer [backslash] = [buffer ++ [backslash]] := by
  rw [splitPipeFrom.eq_def]
  simp

/-- A byte with no meaning of its own in a line. -/
def Plain (ch : Byte) : Prop :=
  ch ≠ newline ∧ ch ≠ carriageReturn ∧ ch ≠ pipe ∧ ch ≠ backslash

instance (ch : Byte) : Decidable (Plain ch) := inferInstanceAs (Decidable (_ ∧ _))

theorem splitPipeFrom_plain (h : Plain ch) :
    splitPipeFrom buffer (ch :: rest) = splitPipeFrom (buffer ++ [ch]) rest := by
  rw [splitPipeFrom.eq_def]
  simp [h.1, h.2.1, h.2.2.1, h.2.2.2]

end Steps

/-! ## What is written is read back -/

/-- A byte is plain and stands for itself, or its escape sequence stands for it. -/
theorem escapeByte_cases (ch : Byte) :
    (Plain ch ∧ escapeByte ch = [ch]) ∨
      ∃ next, escapeByte ch = [backslash, next] ∧ unescapeByte next = some ch := by
  unfold escapeByte
  split
  · rename_i h
    exact .inr ⟨backslash, by rw [h]; decide⟩
  · rename_i hbackslash
    split
    · rename_i h
      exact .inr ⟨pipe, by rw [h]; decide⟩
    · rename_i hpipe
      split
      · rename_i h
        exact .inr ⟨letterN, by rw [h]; decide⟩
      · rename_i hnewline
        split
        · rename_i h
          exact .inr ⟨letterR, by rw [h]; decide⟩
        · rename_i hcr
          exact .inl ⟨⟨hnewline, hcr, hpipe, hbackslash⟩, rfl⟩

theorem splitPipeFrom_escapeByte (buffer rest : Bytes) (ch : Byte) :
    splitPipeFrom buffer (escapeByte ch ++ rest) = splitPipeFrom (buffer ++ [ch]) rest := by
  rcases escapeByte_cases ch with ⟨hplain, hescape⟩ | ⟨next, hescape, hnext⟩
  · rw [hescape]
    exact splitPipeFrom_plain hplain
  · rw [hescape, List.cons_append, List.singleton_append, splitPipeFrom_backslash, hnext]

theorem splitPipeFrom_escapeField (buffer value rest : Bytes) :
    splitPipeFrom buffer (escapeField value ++ rest) =
      splitPipeFrom (buffer ++ value) rest := by
  induction value generalizing buffer with
  | nil => simp [escapeField]
  | cons ch value ih =>
      have hsplit : escapeField (ch :: value) ++ rest =
          escapeByte ch ++ (escapeField value ++ rest) := by
        simp [escapeField]
      rw [hsplit, splitPipeFrom_escapeByte, ih, List.append_assoc, List.singleton_append]

theorem splitPipeFrom_joinFields (buffer value : Bytes) (values : List Bytes) :
    splitPipeFrom buffer (joinFields ((value :: values).map escapeField) ++ [newline]) =
      (buffer ++ value) :: values := by
  induction values generalizing buffer value with
  | nil =>
      simp only [List.map_cons, List.map_nil, joinFields]
      rw [splitPipeFrom_escapeField, splitPipeFrom_newline]
  | cons next values ih =>
      have hjoin : joinFields ((value :: next :: values).map escapeField) ++ [newline] =
          escapeField value ++
            (pipe :: (joinFields ((next :: values).map escapeField) ++ [newline])) := by
        simp [joinFields]
      rw [hjoin, splitPipeFrom_escapeField, splitPipeFrom_pipe, ih, List.nil_append]

/-- A row that is written is read back byte for byte. -/
theorem splitPipeLine_serializeRow {values : List Bytes} (h : values ≠ []) :
    splitPipeLine (serializeRow values) = values := by
  cases values with
  | nil => exact absurd rfl h
  | cons value values =>
      rw [splitPipeLine, serializeRow, splitPipeFrom_joinFields, List.nil_append]

/-! ## The bytes of a line that is written -/

theorem forall_mem_joinFields {P : Byte → Prop} (hpipe : P pipe) {fields : List Bytes}
    (h : ∀ field ∈ fields, ∀ b ∈ field, P b) : ∀ b ∈ joinFields fields, P b := by
  induction fields with
  | nil => simp [joinFields]
  | cons field fields ih =>
      cases fields with
      | nil => simpa [joinFields] using h field List.mem_cons_self
      | cons next fields =>
          intro b hb
          rw [joinFields] at hb
          · rcases List.mem_append.mp hb with hb | hb
            · exact h field List.mem_cons_self b hb
            · rcases List.mem_cons.mp hb with hb | hb
              · rw [hb]
                exact hpipe
              · exact ih (fun f hf => h f (List.mem_cons_of_mem field hf)) b hb
          · simp

/-- A line is made of the bytes of escape sequences, of pipes and of the plain
bytes of its values. -/
theorem forall_mem_body {P : Byte → Prop} (hbackslash : P backslash) (hn : P letterN)
    (hr : P letterR) (hpipe : P pipe) {values : List Bytes}
    (h : ∀ value ∈ values, ∀ b ∈ value, Plain b → P b) :
    ∀ b ∈ joinFields (values.map escapeField), P b := by
  apply forall_mem_joinFields hpipe
  intro field hfield b hb
  obtain ⟨value, hvalue, rfl⟩ := List.mem_map.mp hfield
  obtain ⟨ch, hch, hb⟩ := List.mem_flatMap.mp hb
  rcases escapeByte_cases ch with ⟨hplain, hescape⟩ | ⟨next, hescape, hnext⟩
  · rw [hescape] at hb
    rw [List.mem_singleton.mp hb]
    exact h value hvalue ch hch hplain
  · rw [hescape] at hb
    rcases List.mem_cons.mp hb with hb | hb
    · rwa [hb]
    · rw [List.mem_singleton.mp hb]
      rcases unescapeByte_cases hnext with ⟨h, -⟩ | ⟨h, -⟩ | ⟨h, -⟩ | ⟨h, -⟩
      · rwa [h]
      · rwa [h]
      · rwa [h]
      · rwa [h]

/-- A byte that no escape sequence holds is in a line only as a plain byte. -/
theorem not_mem_body {c : Byte} (hc : c ∉ [backslash, letterN, letterR, pipe])
    {values : List Bytes} (h : ∀ value ∈ values, ∀ b ∈ value, Plain b → b ≠ c) :
    c ∉ joinFields (values.map escapeField) := by
  intro hmem
  simp only [List.mem_cons, List.not_mem_nil, or_false, not_or] at hc
  obtain ⟨hbackslash, hn, hr, hpipe⟩ := hc
  exact forall_mem_body (P := fun b => b ≠ c) (Ne.symm hbackslash) (Ne.symm hn) (Ne.symm hr)
    (Ne.symm hpipe) h c hmem rfl

theorem serializeRow_ne_nil (values : List Bytes) : serializeRow values ≠ [] := by
  simp [serializeRow]

theorem newline_not_mem_body (values : List Bytes) :
    newline ∉ joinFields (values.map escapeField) :=
  not_mem_body (by decide) fun _ _ _ _ hplain => hplain.1

theorem carriageReturn_not_mem_body (values : List Bytes) :
    carriageReturn ∉ joinFields (values.map escapeField) :=
  not_mem_body (by decide) fun _ _ _ _ hplain => hplain.2.1

theorem nulFree_serializeRow {values : List Bytes} (h : ∀ value ∈ values, NulFree value) :
    NulFree (serializeRow values) := by
  refine NulFree.append (not_mem_body (by decide) ?_) (by decide)
  intro value hvalue b hb _ hzero
  exact h value hvalue (hzero ▸ hb)

end MiniSql
