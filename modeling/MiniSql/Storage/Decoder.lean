import MiniSql.Storage.Row

set_option autoImplicit false

/-!
# Lines that are cut or continued

`split_pipe_line` as a machine over the bytes of a line (`Decoder`), which has an
answer at every byte.  Two questions about a line decide what a file means that
does not end with a newline: when more bytes leave the answer as it is
(`splitPipeLine_append_eq_iff`), and when a row survives the loss of the first
byte of its line (`splitPipeLine_tail_eq_iff`).
-/

namespace MiniSql

/-- The fields closed so far, the field begun, and whether a backslash stands
before the next byte. -/
structure Decoder where
  fields : List Bytes
  buffer : Bytes
  pending : Bool

namespace Decoder

def start : Decoder := ⟨[], [], false⟩

/-- A byte that no backslash stands before. -/
def feedByte (d : Decoder) (ch : Byte) : Decoder :=
  if ch = carriageReturn then d
  else if ch = pipe then ⟨d.fields ++ [d.buffer], [], d.pending⟩
  else if ch = backslash then ⟨d.fields, d.buffer, true⟩
  else ⟨d.fields, d.buffer ++ [ch], d.pending⟩

/-- The next byte of a line, a newline apart. -/
def feed (d : Decoder) (ch : Byte) : Decoder :=
  if d.pending then
    match unescapeByte ch with
    | some b => ⟨d.fields, d.buffer ++ [b], false⟩
    | none => feedByte ⟨d.fields, d.buffer ++ [backslash], false⟩ ch
  else feedByte d ch

/-- The answer if the line ends here. -/
def finish (d : Decoder) : List Bytes :=
  d.fields ++ [if d.pending then d.buffer ++ [backslash] else d.buffer]

/-- The bytes of the answer so far, with a separator behind each closed field. -/
def weight (d : Decoder) : Nat :=
  (d.fields.flatMap fun field => field ++ [pipe]).length + d.buffer.length +
    if d.pending then 1 else 0

end Decoder

/-- Whether a line ends with a backslash that begins an escape sequence. -/
def openEscape (line : Bytes) : Bool :=
  line.foldl (fun open_ ch => ch == backslash && !open_) false

/-! ## The machine is the loop -/

section Machine

variable {d : Decoder} {ch : Byte} {line : Bytes}

theorem unescapeByte_none_cases (h : unescapeByte ch = none) :
    ch ≠ pipe ∧ ch ≠ backslash := by
  constructor
  · intro hch
    rw [hch] at h
    exact absurd h (by decide)
  · intro hch
    simp [hch] at h

theorem unescapeByte_eq_backslash (h : unescapeByte ch = some backslash) :
    ch = backslash := by
  rcases unescapeByte_cases h with ⟨-, h⟩ | ⟨-, h⟩ | ⟨-, h⟩ | ⟨h, -⟩
  · simp at h
  · simp at h
  · simp at h
  · exact h

namespace Decoder

theorem feedByte_carriageReturn : d.feedByte carriageReturn = d := by simp [feedByte]

theorem feedByte_pipe : d.feedByte pipe = ⟨d.fields ++ [d.buffer], [], d.pending⟩ := by
  simp [feedByte]

theorem feedByte_backslash : d.feedByte backslash = ⟨d.fields, d.buffer, true⟩ := by
  simp [feedByte]

theorem feedByte_plain (h : Plain ch) :
    d.feedByte ch = ⟨d.fields, d.buffer ++ [ch], d.pending⟩ := by
  simp [feedByte, h.2.1, h.2.2.1, h.2.2.2]

theorem feed_unescaped (hpending : d.pending = true) {b : Byte}
    (h : unescapeByte ch = some b) : d.feed ch = ⟨d.fields, d.buffer ++ [b], false⟩ := by
  simp [feed, hpending, h]

theorem feed_literal (hpending : d.pending = true) (h : unescapeByte ch = none) :
    d.feed ch = feedByte ⟨d.fields, d.buffer ++ [backslash], false⟩ ch := by
  simp [feed, hpending, h]

theorem feed_of_not_pending (hpending : d.pending = false) : d.feed ch = d.feedByte ch := by
  simp [feed, hpending]

end Decoder

/-- A byte other than a newline is one of the four the loop tells apart. -/
theorem byte_cases (h : ch ≠ newline) :
    ch = carriageReturn ∨ ch = pipe ∨ ch = backslash ∨ Plain ch := by
  by_cases hcr : ch = carriageReturn
  · exact .inl hcr
  · by_cases hpipe : ch = pipe
    · exact .inr (.inl hpipe)
    · by_cases hbackslash : ch = backslash
      · exact .inr (.inr (.inl hbackslash))
      · exact .inr (.inr (.inr ⟨h, hcr, hpipe, hbackslash⟩))

/-- The part of a line that the machine has read but not decoded. -/
def Decoder.unread (d : Decoder) : Bytes := if d.pending then [backslash] else []

/-- One turn of the loop without a backslash before it. -/
theorem splitPipeFrom_feedByte (hpending : d.pending = false) (h : ch ≠ newline)
    (rest : Bytes) :
    d.fields ++ splitPipeFrom d.buffer (ch :: rest) =
      (d.feedByte ch).fields ++
        splitPipeFrom (d.feedByte ch).buffer ((d.feedByte ch).unread ++ rest) := by
  rcases byte_cases h with rfl | rfl | rfl | hplain
  · rw [splitPipeFrom_carriageReturn, Decoder.feedByte_carriageReturn]
    simp [Decoder.unread, hpending]
  · rw [splitPipeFrom_pipe, Decoder.feedByte_pipe]
    simp [Decoder.unread, hpending]
  · rw [Decoder.feedByte_backslash]
    simp [Decoder.unread]
  · rw [splitPipeFrom_plain hplain, Decoder.feedByte_plain hplain]
    simp [Decoder.unread, hpending]

theorem splitPipeFrom_feed (h : ch ≠ newline) (rest : Bytes) :
    d.fields ++ splitPipeFrom d.buffer (d.unread ++ ch :: rest) =
      (d.feed ch).fields ++
        splitPipeFrom (d.feed ch).buffer ((d.feed ch).unread ++ rest) := by
  cases hpending : d.pending with
  | false =>
      rw [Decoder.feed_of_not_pending hpending, ← splitPipeFrom_feedByte hpending h]
      simp [Decoder.unread, hpending]
  | true =>
      have hunread : d.unread ++ ch :: rest = backslash :: ch :: rest := by
        simp [Decoder.unread, hpending]
      rw [hunread, splitPipeFrom_backslash]
      cases hch : unescapeByte ch with
      | some b =>
          rw [Decoder.feed_unescaped hpending hch]
          simp [Decoder.unread]
      | none =>
          rw [Decoder.feed_literal hpending hch]
          exact splitPipeFrom_feedByte (d := ⟨d.fields, d.buffer ++ [backslash], false⟩) rfl h
            rest

/-- `split_pipe_line` on a line without its newline. -/
theorem splitPipeFrom_eq_finish (h : newline ∉ line) :
    d.fields ++ splitPipeFrom d.buffer (d.unread ++ line) = (line.foldl Decoder.feed d).finish := by
  induction line generalizing d with
  | nil =>
      cases hpending : d.pending with
      | false => simp [Decoder.unread, Decoder.finish, hpending]
      | true => simp [Decoder.unread, Decoder.finish, hpending]
  | cons ch rest ih =>
      obtain ⟨hch, hrest⟩ := List.ne_and_not_mem_of_not_mem_cons h
      rw [splitPipeFrom_feed (Ne.symm hch), ih hrest, List.foldl_cons]

theorem splitPipeLine_eq_finish (h : newline ∉ line) :
    splitPipeLine line = (line.foldl Decoder.feed .start).finish :=
  splitPipeFrom_eq_finish (d := .start) h

/-! ## What one byte adds -/

theorem Decoder.pending_feed (d : Decoder) (ch : Byte) :
    (d.feed ch).pending = (ch == backslash && !d.pending) := by
  have hbyte : ∀ d : Decoder, d.pending = false →
      (d.feedByte ch).pending = (ch == backslash) := by
    intro d hpending
    unfold feedByte
    split
    · rename_i hch
      simp [hch, hpending, backslash_ne_carriageReturn.symm]
    · split
      · rename_i hch
        simp [hch, hpending, backslash_ne_pipe.symm]
      · split
        · rename_i hch
          simp [hch]
        · rename_i hch
          simp [hch, hpending]
  cases hpending : d.pending with
  | false => rw [feed_of_not_pending hpending, hbyte d hpending, Bool.not_false, Bool.and_true]
  | true =>
      cases hch : unescapeByte ch with
      | some b => simp [feed_unescaped hpending hch]
      | none =>
          rw [feed_literal hpending hch, hbyte _ rfl]
          simp [(unescapeByte_none_cases hch).2]

/-- The machine waits behind a backslash that begins an escape sequence. -/
theorem pending_foldl_feed (line : Bytes) :
    (line.foldl Decoder.feed .start).pending = openEscape line := by
  have h : ∀ d : Decoder, (line.foldl Decoder.feed d).pending =
      line.foldl (fun open_ ch => ch == backslash && !open_) d.pending := by
    induction line with
    | nil => exact fun d => rfl
    | cons ch rest ih =>
        intro d
        rw [List.foldl_cons, List.foldl_cons, ih, Decoder.pending_feed]
  exact h .start

theorem Decoder.weight_feedByte (hpending : d.pending = false) (hnewline : ch ≠ newline)
    (hcr : ch ≠ carriageReturn) : (d.feedByte ch).weight = d.weight + 1 := by
  rcases byte_cases hnewline with rfl | rfl | rfl | hplain
  · exact absurd rfl hcr
  · rw [feedByte_pipe]
    simp [weight, hpending]
    omega
  · rw [feedByte_backslash]
    simp [weight, hpending]
  · rw [feedByte_plain hplain]
    simp [weight, hpending]
    omega

/-- A byte adds one to the answer, unless it ends an escape sequence. -/
theorem Decoder.weight_feed (hnewline : ch ≠ newline) (hcr : ch ≠ carriageReturn) :
    (d.feed ch).weight =
      d.weight + if d.pending && (unescapeByte ch).isSome then 0 else 1 := by
  cases hpending : d.pending with
  | false =>
      rw [feed_of_not_pending hpending, weight_feedByte hpending hnewline hcr]
      simp
  | true =>
      cases hch : unescapeByte ch with
      | some b =>
          rw [feed_unescaped hpending hch]
          simp [weight, hpending]
          omega
      | none =>
          rw [feed_literal hpending hch, weight_feedByte rfl hnewline hcr]
          simp [weight, hpending]
          omega

theorem Decoder.weight_foldl_feed (hnewline : newline ∉ line) (hcr : carriageReturn ∉ line) :
    d.weight ≤ (line.foldl Decoder.feed d).weight := by
  induction line generalizing d with
  | nil => exact Nat.le_refl _
  | cons ch rest ih =>
      obtain ⟨hch, hrest⟩ := List.ne_and_not_mem_of_not_mem_cons hnewline
      obtain ⟨hch', hrest'⟩ := List.ne_and_not_mem_of_not_mem_cons hcr
      have hstep := weight_feed (d := d) (Ne.symm hch) (Ne.symm hch')
      have hfold := ih (d := d.feed ch) hrest hrest'
      rw [List.foldl_cons]
      omega

/-- Behind no open escape sequence, more bytes add to the answer. -/
theorem Decoder.weight_lt_foldl_feed (hpending : d.pending = false) (hne : line ≠ [])
    (hnewline : newline ∉ line) (hcr : carriageReturn ∉ line) :
    d.weight < (line.foldl Decoder.feed d).weight := by
  cases line with
  | nil => exact absurd rfl hne
  | cons ch rest =>
      obtain ⟨hch, hrest⟩ := List.ne_and_not_mem_of_not_mem_cons hnewline
      obtain ⟨hch', hrest'⟩ := List.ne_and_not_mem_of_not_mem_cons hcr
      have hstep := weight_feed (d := d) (Ne.symm hch) (Ne.symm hch')
      have hfold := weight_foldl_feed (d := d.feed ch) hrest hrest'
      rw [hpending, Bool.false_and, if_neg Bool.false_ne_true] at hstep
      rw [List.foldl_cons]
      omega

/-- The answer determines the weight. -/
theorem Decoder.weight_of_finish (d : Decoder) :
    (d.finish.flatMap fun field => field ++ [pipe]).length = d.weight + 1 := by
  cases hpending : d.pending with
  | false =>
      simp [finish, weight, hpending]
      omega
  | true =>
      simp [finish, weight, hpending]
      omega

end Machine

/-! ## A line that goes on -/

/-- Only a backslash behind an open escape sequence leaves the answer as it is. -/
theorem Decoder.finish_foldl_feed_eq_iff {d : Decoder} {more : Bytes} (hne : more ≠ [])
    (hnewline : newline ∉ more) (hcr : carriageReturn ∉ more) :
    (more.foldl Decoder.feed d).finish = d.finish ↔
      more = [backslash] ∧ d.pending = true := by
  cases more with
  | nil => exact absurd rfl hne
  | cons ch rest =>
      obtain ⟨hch, hrest⟩ := List.ne_and_not_mem_of_not_mem_cons hnewline
      obtain ⟨hch', hrest'⟩ := List.ne_and_not_mem_of_not_mem_cons hcr
      have hstep := weight_feed (d := d) (Ne.symm hch) (Ne.symm hch')
      rw [List.foldl_cons]
      constructor
      · intro heq
        have hweight : (rest.foldl Decoder.feed (d.feed ch)).weight = d.weight := by
          have h := weight_of_finish (rest.foldl Decoder.feed (d.feed ch))
          rw [heq, weight_of_finish] at h
          omega
        have hfold := weight_foldl_feed (d := d.feed ch) hrest hrest'
        -- the first byte adds nothing, so it ends the sequence that is open
        have hends : (d.pending && (unescapeByte ch).isSome) = true := by
          by_contra hgrows
          rw [if_neg hgrows] at hstep
          omega
        obtain ⟨hpending, hsome⟩ := Bool.and_eq_true_iff.mp hends
        obtain ⟨b, hb⟩ := Option.isSome_iff_exists.mp hsome
        have hfeed := feed_unescaped hpending hb
        -- no sequence is open behind it, so nothing follows it
        have hlast : rest = [] := by
          by_contra hne
          have hgrows := weight_lt_foldl_feed (d := d.feed ch) (by rw [hfeed]) hne hrest hrest'
          omega
        subst hlast
        rw [List.foldl_nil, hfeed] at heq
        have hbyte : b = backslash := by simpa [finish, hpending] using heq
        rw [hbyte] at hb
        rw [unescapeByte_eq_backslash hb]
        exact ⟨rfl, hpending⟩
      · intro h
        obtain ⟨hmore, hpending⟩ := h
        obtain ⟨rfl, rfl⟩ := List.cons.inj hmore
        have hfeed : d.feed backslash = ⟨d.fields, d.buffer ++ [backslash], false⟩ :=
          feed_unescaped hpending unescapeByte_backslash
        rw [List.foldl_nil, hfeed]
        simp [finish, hpending]

theorem splitPipeLine_append_eq_iff {line more : Bytes} (hline : newline ∉ line)
    (hne : more ≠ []) (hnewline : newline ∉ more) (hcr : carriageReturn ∉ more) :
    splitPipeLine (line ++ more) = splitPipeLine line ↔
      more = [backslash] ∧ openEscape line = true := by
  have hboth : newline ∉ line ++ more :=
    fun h => (List.mem_append.mp h).elim hline hnewline
  rw [splitPipeLine_eq_finish hboth, splitPipeLine_eq_finish hline, List.foldl_append,
    Decoder.finish_foldl_feed_eq_iff hne hnewline hcr, pending_foldl_feed]

/-! ## A line without its first byte -/

/-- Whether a backslash in front of the escaped value is read as one in front of
the value.  It is, unless the value begins, after any backslashes, with a byte that
ends an escape sequence or is written as one, or is over and a pipe follows. -/
def takesBackslash (values : List Bytes) : Bytes → Bool
  | [] => values.isEmpty
  | ch :: rest =>
      if ch = backslash then takesBackslash values rest
      else ch ∉ [newline, carriageReturn, pipe, letterN, letterR]

/-- Whether the line of a row begins with a backslash and decodes to the row without
it too. -/
def survivesFirstByte : List Bytes → Bool
  | (ch :: value) :: values => ch == backslash && takesBackslash values value
  | _ => false

/-- What stands in a line behind the first value. -/
def rowTail : List Bytes → Bytes
  | [] => [newline]
  | value :: values => pipe :: serializeRow (value :: values)

section FirstByte

variable {buffer line : Bytes} {value : Bytes} {values : List Bytes}

theorem serializeRow_cons (value : Bytes) (values : List Bytes) :
    serializeRow (value :: values) = escapeField value ++ rowTail values := by
  cases values with
  | nil => rfl
  | cons next values => simp [serializeRow, joinFields, rowTail]

theorem splitPipeFrom_rowTail : splitPipeFrom buffer (rowTail values) = buffer :: values := by
  cases values with
  | nil => exact splitPipeFrom_newline
  | cons value values =>
      have hvalues := splitPipeLine_serializeRow (List.cons_ne_nil value values)
      rw [rowTail, splitPipeFrom_pipe]
      exact congrArg (buffer :: ·) hvalues

/-- The first field goes on from the field begun. -/
theorem splitPipeFrom_head (buffer line : Bytes) :
    ∃ more fields, splitPipeFrom buffer line = (buffer ++ more) :: fields := by
  induction buffer, line using splitPipeFrom.induct with
  | case1 buffer => exact ⟨[], [], by simp⟩
  | case2 buffer rest => exact ⟨[], [], by simp⟩
  | case3 buffer rest _ ih =>
      rw [splitPipeFrom_carriageReturn]
      exact ih
  | case4 buffer rest => exact ⟨[], splitPipeFrom [] rest, by simp⟩
  | case5 buffer => exact ⟨[backslash], [], by simp⟩
  | case6 buffer next rest b hnext _ _ _ ih =>
      obtain ⟨more, fields, heq⟩ := ih
      refine ⟨b :: more, fields, ?_⟩
      rw [splitPipeFrom_backslash, hnext]
      simpa using heq
  | case7 buffer next rest hnext _ _ _ ih =>
      obtain ⟨more, fields, heq⟩ := ih
      refine ⟨backslash :: more, fields, ?_⟩
      rw [splitPipeFrom_backslash, hnext]
      simpa using heq
  | case8 buffer ch rest hnewline hcr hpipe hbackslash ih =>
      obtain ⟨more, fields, heq⟩ := ih
      refine ⟨ch :: more, fields, ?_⟩
      rw [splitPipeFrom_plain ⟨hnewline, hcr, hpipe, hbackslash⟩]
      simpa using heq

/-- A field that has gone wrong stays wrong. -/
theorem splitPipeFrom_ne {b ch : Byte} (h : b ≠ ch) :
    splitPipeFrom (buffer ++ [b]) line ≠ (buffer ++ ch :: value) :: values := by
  intro heq
  obtain ⟨more, fields, hhead⟩ := splitPipeFrom_head (buffer ++ [b]) line
  rw [hhead, List.append_assoc] at heq
  have hbytes := List.append_cancel_left (List.cons.inj heq).1
  exact h (List.cons.inj hbytes).1

/-- A plain byte behind a backslash: it must not end an escape sequence. -/
theorem splitPipeFrom_backslash_plain {ch : Byte} (hplain : Plain ch) :
    splitPipeFrom buffer (backslash :: ch :: (escapeField value ++ rowTail values)) =
        (buffer ++ backslash :: ch :: value) :: values ↔
      ch ≠ letterN ∧ ch ≠ letterR := by
  rw [splitPipeFrom_backslash]
  cases hch : unescapeByte ch with
  | some b =>
      have hb : b ≠ backslash := by
        intro hb
        rw [hb] at hch
        exact hplain.2.2.2 (unescapeByte_eq_backslash hch)
      refine iff_of_false (splitPipeFrom_ne hb) ?_
      intro hneither
      rcases unescapeByte_cases hch with ⟨h, -⟩ | ⟨h, -⟩ | ⟨h, -⟩ | ⟨h, -⟩
      · exact hneither.1 h
      · exact hneither.2 h
      · exact hplain.2.2.1 h
      · exact hplain.2.2.2 h
  | none =>
      simp only
      rw [splitPipeFrom_plain hplain, splitPipeFrom_escapeField, splitPipeFrom_rowTail]
      refine iff_of_true (by simp) ⟨?_, ?_⟩
      · intro h
        rw [h] at hch
        exact absurd hch (by decide)
      · intro h
        rw [h] at hch
        exact absurd hch (by decide)

/-- The second byte of an escape sequence other than that of a backslash means
nothing, or closes the field, when the backslash before it has been read. -/
theorem splitPipeFrom_second {next ch : Byte} (hnext : unescapeByte next = some ch)
    (hch : ch ≠ backslash) (buffer line value : Bytes) (values : List Bytes) :
    splitPipeFrom buffer (next :: line) ≠ (buffer ++ ch :: value) :: values := by
  rcases unescapeByte_cases hnext with ⟨rfl, rfl⟩ | ⟨rfl, rfl⟩ | ⟨rfl, rfl⟩ | ⟨-, h⟩
  · rw [splitPipeFrom_plain (by decide)]
    exact splitPipeFrom_ne (by decide)
  · rw [splitPipeFrom_plain (by decide)]
    exact splitPipeFrom_ne (by decide)
  · rw [splitPipeFrom_pipe]
    simp
  · exact absurd h hch

theorem splitPipeFrom_backslash_escapeField (values : List Bytes) (value buffer : Bytes) :
    splitPipeFrom buffer (backslash :: (escapeField value ++ rowTail values)) =
        (buffer ++ backslash :: value) :: values ↔
      takesBackslash values value = true := by
  induction value generalizing buffer with
  | nil =>
      cases values with
      | nil =>
          have hliteral : unescapeByte newline = none := by decide
          have hline : backslash :: (escapeField [] ++ rowTail []) = [backslash, newline] := rfl
          rw [hline, splitPipeFrom_backslash, hliteral]
          simp [takesBackslash]
      | cons next values =>
          have hpipe : unescapeByte pipe = some pipe := by decide
          have hline : backslash :: (escapeField [] ++ rowTail (next :: values)) =
              backslash :: pipe :: serializeRow (next :: values) := rfl
          rw [hline, splitPipeFrom_backslash, hpipe]
          simp only [takesBackslash, List.isEmpty_cons, Bool.false_eq_true, iff_false]
          exact splitPipeFrom_ne (by decide)
  | cons ch value ih =>
      have hfield : escapeField (ch :: value) ++ rowTail values =
          escapeByte ch ++ (escapeField value ++ rowTail values) := by
        simp [escapeField]
      rw [hfield]
      by_cases hbackslash : ch = backslash
      · -- one sequence is read, and the backslash is in front of the rest
        have hrest := ih (buffer ++ [backslash])
        rw [List.append_assoc, List.singleton_append] at hrest
        rw [hbackslash, escapeByte_backslash, List.cons_append, List.singleton_append,
          splitPipeFrom_backslash, unescapeByte_backslash]
        simpa [takesBackslash] using hrest
      · rcases escapeByte_cases ch with ⟨hplain, hbyte⟩ | ⟨next, hbyte, hnext⟩
        · rw [hbyte, List.singleton_append, splitPipeFrom_backslash_plain hplain]
          simp [takesBackslash, hbackslash, hplain.1, hplain.2.1, hplain.2.2.1]
        · -- the two backslashes are one sequence, and the byte behind them is left
          rw [hbyte, List.cons_append, List.singleton_append, splitPipeFrom_backslash,
            unescapeByte_backslash]
          have hwrong := splitPipeFrom_second hnext hbackslash (buffer ++ [backslash])
            (escapeField value ++ rowTail values) value values
          rw [List.append_assoc, List.singleton_append] at hwrong
          refine iff_of_false hwrong ?_
          rw [takesBackslash, if_neg hbackslash]
          rcases unescapeByte_cases hnext with ⟨-, h⟩ | ⟨-, h⟩ | ⟨-, h⟩ | ⟨-, h⟩
          · simp [h]
          · simp [h]
          · simp [h]
          · exact absurd h hbackslash

/-- A row whose line begins with a backslash, read from the byte behind it. -/
theorem splitPipeLine_tail_eq_iff {row : List Bytes} (h : serializeRow row = backslash :: line) :
    splitPipeLine line = row ↔ survivesFirstByte row = true := by
  cases row with
  | nil => exact absurd (List.cons.inj h).1 (by decide)
  | cons value values =>
      rw [serializeRow_cons] at h
      cases value with
      | nil =>
          cases values with
          | nil => exact absurd (List.cons.inj h).1 (by decide)
          | cons next values => exact absurd (List.cons.inj h).1 (by decide)
      | cons ch value =>
          have hfield : escapeField (ch :: value) ++ rowTail values =
              escapeByte ch ++ (escapeField value ++ rowTail values) := by
            simp [escapeField]
          rw [hfield] at h
          by_cases hbackslash : ch = backslash
          · rw [hbackslash, escapeByte_backslash] at h
            rw [← (List.cons.inj h).2, hbackslash, splitPipeLine]
            have hread := splitPipeFrom_backslash_escapeField values value []
            simpa [survivesFirstByte] using hread
          · refine iff_of_false ?_ (by simp [survivesFirstByte, hbackslash])
            rcases escapeByte_cases ch with ⟨hplain, hbyte⟩ | ⟨next, hbyte, hnext⟩
            · rw [hbyte] at h
              exact absurd (List.cons.inj h).1 hbackslash
            · rw [hbyte] at h
              rw [← (List.cons.inj h).2, splitPipeLine]
              exact splitPipeFrom_second hnext hbackslash [] _ value values

end FirstByte

end MiniSql
