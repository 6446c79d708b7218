import MiniSql.Foundation.Buffer
import MiniSql.Memory
import MiniSql.Parser.Tokenizer
import MiniSql.Storage.Row

set_option autoImplicit false

/-!
# The buffers of `read_string_token`, `split_pipe_line`, `escape_field` and `serialize_row`

The four functions once more, with the blocks they write to and every write to them.  A
write that is not below the capacity of its block ends them in a fault; none does, and the
blocks hold what the functions compute, with a terminator behind it.  Every request for
memory is granted; a refused one ends a function before its next write.
-/

namespace MiniSql

open Foundation

/-- A `char *` with its `length` and its `capacity`. -/
abbrev Buffer : Type := Growing Byte

/-- The C string that begins a block. -/
def readCString (block : Block Byte) : Except Fault Bytes := block.read (· == 0)

/-- The capacity test of `read_string_token` and `split_pipe_line`, with the `realloc`
that follows it. -/
def Buffer.ensure (buffer : Buffer) (extra : Nat) : Buffer :=
  buffer.reserve extra (doubled 16 buffer.capacity)

/-! ## `read_string_token` -/

/-- The loop, up to the closing quote. -/
def readStringLoopCells :
    Bytes → Buffer → Nat → Except Fault (Option (Buffer × Bytes × Nat))
  | [], _, _ => .ok none
  | ch :: tail, buffer, column =>
      if ch = quote then
        match tail with
        | [] => .ok (some (buffer, [], column))
        | next :: tail' =>
            if next = quote then do
              let buffer ← (buffer.ensure 1).push quote
              readStringLoopCells tail' buffer (column + 2)
            else .ok (some (buffer, next :: tail', column))
      else do
        let buffer ← (buffer.ensure 1).push ch
        readStringLoopCells tail buffer (column + 1)

/-- The loop and the terminator; nothing for a literal without a closing quote. -/
def readStringCells (tail : Bytes) (column : Nat) :
    Except Fault (Option (Block Byte × Bytes × Nat)) := do
  match ← readStringLoopCells tail .empty column with
  | none => .ok none
  | some (buffer, rest, column) =>
      let block ← buffer.close 0
      .ok (some (block, rest, column))

/-! ## `split_pipe_line` -/

/-- The end of a field: the string that `string_list_append` copies. -/
def endFieldCells (buffer : Buffer) : Except Fault Bytes := do
  let block ← buffer.close 0
  readCString block

/-- The loop of `split_pipe_line`.  Room is made before the byte behind a backslash is
looked at. -/
def splitPipeFromCells (buffer : Buffer) : Bytes → Except Fault (List Bytes)
  | [] => do
      let field ← endFieldCells buffer
      .ok [field]
  | ch :: rest =>
      if ch = newline then do
        let field ← endFieldCells buffer
        .ok [field]
      else if ch = carriageReturn then splitPipeFromCells buffer rest
      else if ch = pipe then do
        let field ← endFieldCells buffer
        let fields ← splitPipeFromCells .empty rest
        .ok (field :: fields)
      else if ch = backslash then
        match rest with
        | [] => do
            let buffer ← (buffer.ensure 2).push ch
            splitPipeFromCells buffer []
        | next :: rest' =>
            match unescapeByte next with
            | some b => do
                let buffer ← (buffer.ensure 2).push b
                splitPipeFromCells buffer rest'
            | none => do
                let buffer ← (buffer.ensure 2).push ch
                splitPipeFromCells buffer (next :: rest')
      else do
        let buffer ← (buffer.ensure 2).push ch
        splitPipeFromCells buffer rest
  termination_by line => line.length

def splitPipeLineCells (line : Bytes) : Except Fault (List Bytes) :=
  splitPipeFromCells .empty line

/-! ## `escape_field` and `serialize_row` -/

/-- The local `extra` of `escape_field`. -/
def escapeExtra (ch : Byte) : Nat :=
  if ch = backslash ∨ ch = pipe ∨ ch = newline ∨ ch = carriageReturn then 2 else 1

/-- The loop of `escape_field`. -/
def escapeLoopCells (buffer : Buffer) : Bytes → Except Fault Buffer
  | [] => .ok buffer
  | ch :: value => do
      let extra := escapeExtra ch
      let buffer := buffer.reserve (extra + 1) (buffer.capacity * 2 + extra + 1)
      let buffer ← buffer.pushAll (escapeByte ch)
      escapeLoopCells buffer value

def escapeFieldCells (value : Bytes) : Except Fault (Block Byte) := do
  let buffer ← escapeLoopCells (.allocate 16) value
  buffer.terminate 0

/-- `strcat`. -/
def strcat (block : Block Byte) (source : Bytes) : Except Fault (Block Byte) := do
  let content ← readCString block
  block.writeAll content.length (source ++ [0])

/-- The first loop of `serialize_row`: the escaped fields, as `strlen` and `strcat` see
them. -/
def escapedCells : List Bytes → Except Fault (List Bytes)
  | [] => .ok []
  | value :: values => do
      let block ← escapeFieldCells value
      let field ← readCString block
      let fields ← escapedCells values
      .ok (field :: fields)

/-- The `total` of `serialize_row`. -/
def rowTotal (escaped : List Bytes) : Nat :=
  escaped.foldl (fun total field => total + (field.length + 1)) 2

/-- The second loop of `serialize_row`. -/
def joinCells (output : Block Byte) : List Bytes → Except Fault (Block Byte)
  | [] => .ok output
  | [field] => strcat output field
  | field :: fields => do
      let output ← strcat output field
      let output ← strcat output [pipe]
      joinCells output fields

def serializeRowCells (values : List Bytes) : Except Fault (Block Byte) := do
  let escaped ← escapedCells values
  let output ← (Block.allocate (rowTotal escaped)).write 0 0
  let output ← joinCells output escaped
  strcat output [newline]

/-! ## One write -/

/-- A buffer that is empty, or has room for its content and `extra` more. -/
structure Roomy (buffer : Buffer) (extra : Nat) (content : Bytes) : Prop where
  holds : buffer.Holds content
  room : buffer.capacity = 0 ∨ content.length + extra ≤ buffer.capacity

section Writes

variable {buffer : Buffer} {extra : Nat} {content : Bytes}

theorem roomy_empty (extra : Nat) : Roomy .empty extra [] := ⟨Growing.holds_empty, .inl rfl⟩

/-- One byte behind the content of a buffer whose capacity was tested. -/
theorem Roomy.push (h : Roomy buffer extra content) (hpos : 0 < extra) (hextra : extra < 16)
    (b : Byte) :
    ∃ buffer', (buffer.ensure extra).push b = .ok buffer' ∧
      Roomy buffer' extra (content ++ [b]) := by
  have hempty : buffer.capacity = 0 → content.length = 0 := by
    intro hzero
    have hlength := List.IsPrefix.length_le h.holds.block
    rw [← h.holds.capacity, List.length_map] at hlength
    omega
  have hgrow : content.length + extra ≥ buffer.capacity →
      content.length + extra < doubled 16 buffer.capacity ∧
        buffer.capacity ≤ doubled 16 buffer.capacity := by
    have hroom := h.room
    unfold doubled
    split <;> omega
  obtain ⟨hholds, hlt⟩ := h.holds.reserve hgrow
  obtain ⟨buffer', hpush, hholds', hcapacity⟩ := hholds.push (by omega) b
  refine ⟨buffer', hpush, hholds', .inr ?_⟩
  rw [hcapacity, List.length_append, List.length_singleton]
  omega

/-- What follows such a write, for all buffers it may leave. -/
theorem Roomy.push_bind {β : Type} {next : Buffer → Except Fault β} {result : β}
    (h : Roomy buffer extra content) (hpos : 0 < extra) (hextra : extra < 16) {b : Byte}
    (hnext : ∀ buffer', Roomy buffer' extra (content ++ [b]) → next buffer' = .ok result) :
    (do let buffer ← (buffer.ensure extra).push b
        next buffer) = .ok result := by
  obtain ⟨buffer', hpush, hroomy⟩ := h.push hpos hextra b
  rw [hpush]
  exact hnext buffer' hroomy

/-- The terminator fits, as a null pointer is given its one byte. -/
theorem Roomy.close (h : Roomy buffer extra content) (hpos : 0 < extra) :
    ∃ block, buffer.close 0 = .ok block ∧ block.Holds (content ++ [0]) := by
  have hroom := h.room
  exact h.holds.close (fun hne => by omega) 0

theorem readCString_eq {block : Block Byte} (h : block.Holds (content ++ [0])) :
    readCString block = .ok (cString content) :=
  h.read rfl

end Writes

/-! ## No write is out of bounds -/

theorem readStringLoopCells_ok (tail : Bytes) (buffer : Buffer) (content : Bytes) (column : Nat)
    (h : Roomy buffer 1 content) :
    (readStringLoop tail content column = none ∧
      readStringLoopCells tail buffer column = .ok none) ∨
    ∃ content' rest column' buffer',
      readStringLoop tail content column = some (content', rest, column') ∧
      readStringLoopCells tail buffer column = .ok (some (buffer', rest, column')) ∧
      Roomy buffer' 1 content' := by
  fun_induction readStringLoop tail content column generalizing buffer with
  | case1 => exact .inl ⟨rfl, rfl⟩
  | case2 content column =>
      refine .inr ⟨content, [], column, buffer, rfl, ?_, h⟩
      unfold readStringLoopCells
      rfl
  | case3 content column tail' ih =>
      obtain ⟨buffer', hpush, hroomy⟩ := h.push (by decide) (by decide) quote
      have hcells : readStringLoopCells (quote :: quote :: tail') buffer column =
          readStringLoopCells tail' buffer' (column + 2) := by
        rw [readStringLoopCells, if_pos rfl]
        simp only [if_pos]
        rw [hpush]
        rfl
      rw [hcells]
      exact ih buffer' hroomy
  | case4 content column next tail' hnext =>
      refine .inr ⟨content, next :: tail', column, buffer, rfl, ?_, h⟩
      rw [readStringLoopCells, if_pos rfl]
      simp only [if_neg hnext]
  | case5 ch tail content column hch ih =>
      obtain ⟨buffer', hpush, hroomy⟩ := h.push (by decide) (by decide) ch
      have hcells : readStringLoopCells (ch :: tail) buffer column =
          readStringLoopCells tail buffer' (column + 1) := by
        rw [readStringLoopCells.eq_def]
        simp only [if_neg hch]
        rw [hpush]
        rfl
      rw [hcells]
      exact ih buffer' hroomy

/-- The literal and its terminator. -/
theorem readStringCells_ok (tail : Bytes) (column : Nat) :
    ∃ result, readStringCells tail column = .ok result ∧
      (result = none ↔ readStringLoop tail [] column = none) ∧
      ∀ block rest column', result = some (block, rest, column') →
        ∃ content, readStringLoop tail [] column = some (content, rest, column') ∧
          block.Holds (content ++ [0]) := by
  unfold readStringCells
  rcases readStringLoopCells_ok tail .empty [] column (roomy_empty 1) with
    ⟨hloop, hcells⟩ | ⟨content, rest, column', buffer, hloop, hcells, hroomy⟩
  · rw [hcells]
    exact ⟨none, rfl, by simp [hloop], by simp⟩
  · obtain ⟨block, hclose, hholds⟩ := hroomy.close (by decide)
    refine ⟨some (block, rest, column'), ?_, by simp [hloop], ?_⟩
    · rw [hcells]
      simp only [bind, Except.bind]
      rw [hclose]
    · intro block' rest' column'' heq
      simp only [Option.some.injEq, Prod.mk.injEq] at heq
      obtain ⟨rfl, rfl, rfl⟩ := heq
      exact ⟨content, hloop, hholds⟩

theorem endFieldCells_ok {buffer : Buffer} {content : Bytes} (h : Roomy buffer 2 content) :
    endFieldCells buffer = .ok (cString content) := by
  obtain ⟨block, hclose, hholds⟩ := h.close (by decide)
  unfold endFieldCells
  rw [hclose]
  exact readCString_eq hholds

theorem splitPipeFromCells_ok (line : Bytes) (buffer : Buffer) (content : Bytes)
    (h : Roomy buffer 2 content) :
    splitPipeFromCells buffer line = .ok ((splitPipeFrom content line).map cString) := by
  fun_induction splitPipeFrom content line generalizing buffer with
  | case1 content =>
      rw [splitPipeFromCells, endFieldCells_ok h]
      rfl
  | case2 content rest =>
      rw [splitPipeFromCells.eq_def]
      simp only [if_pos]
      rw [endFieldCells_ok h]
      rfl
  | case3 content rest hnewline ih =>
      rw [splitPipeFromCells.eq_def]
      simp only [if_neg hnewline, if_pos]
      exact ih buffer h
  | case4 content rest hnewline hreturn ih =>
      rw [splitPipeFromCells.eq_def]
      simp only [if_neg hnewline, if_neg hreturn, if_pos]
      rw [endFieldCells_ok h, ih .empty (roomy_empty 2)]
      rfl
  | case5 content hnewline hreturn hpipe ih =>
      rw [splitPipeFromCells.eq_def]
      simp only [if_neg hnewline, if_neg hreturn, if_neg hpipe, if_pos]
      exact h.push_bind (by decide) (by decide) ih
  | case6 content next rest' b hescape hnewline hreturn hpipe ih =>
      rw [splitPipeFromCells.eq_def]
      simp only [if_neg hnewline, if_neg hreturn, if_neg hpipe, if_pos, hescape]
      exact h.push_bind (by decide) (by decide) ih
  | case7 content next rest' hescape hnewline hreturn hpipe ih =>
      rw [splitPipeFromCells.eq_def]
      simp only [if_neg hnewline, if_neg hreturn, if_neg hpipe, if_pos, hescape]
      exact h.push_bind (by decide) (by decide) ih
  | case8 content ch rest hnewline hreturn hpipe hbackslash ih =>
      rw [splitPipeFromCells.eq_def]
      simp only [if_neg hnewline, if_neg hreturn, if_neg hpipe, if_neg hbackslash]
      exact h.push_bind (by decide) (by decide) ih

theorem splitPipeLineCells_ok (line : Bytes) :
    splitPipeLineCells line = .ok ((splitPipeLine line).map cString) :=
  splitPipeFromCells_ok line .empty [] (roomy_empty 2)

/-- `extra` is the number of bytes written. -/
theorem length_escapeByte (ch : Byte) : (escapeByte ch).length = escapeExtra ch := by
  unfold escapeByte escapeExtra
  grind

theorem escapeLoopCells_ok (value : Bytes) (buffer : Buffer) (content : Bytes)
    (h : buffer.Holds content) (hroom : content.length < buffer.capacity) :
    ∃ buffer', escapeLoopCells buffer value = .ok buffer' ∧
      buffer'.Holds (content ++ escapeField value) ∧
      (content ++ escapeField value).length < buffer'.capacity := by
  induction value generalizing buffer content with
  | nil =>
      refine ⟨buffer, rfl, ?_, ?_⟩
      · simpa [escapeField] using h
      · simpa [escapeField] using hroom
  | cons ch value ih =>
      have hextra := length_escapeByte ch
      obtain ⟨hholds, hlt⟩ := h.reserve (fun _ => (by omega :
        content.length + (escapeExtra ch + 1) < buffer.capacity * 2 + escapeExtra ch + 1 ∧
          buffer.capacity ≤ buffer.capacity * 2 + escapeExtra ch + 1))
      obtain ⟨buffer', hpush, hholds', hcapacity⟩ := hholds.pushAll (escapeByte ch) (by omega)
      obtain ⟨buffer'', hrest, hholds'', hroom''⟩ := ih buffer' (content ++ escapeByte ch) hholds'
        (by rw [List.length_append]; omega)
      have hcontent : content ++ escapeByte ch ++ escapeField value =
          content ++ escapeField (ch :: value) := by
        simp [escapeField]
      rw [hcontent] at hholds'' hroom''
      refine ⟨buffer'', ?_, hholds'', hroom''⟩
      unfold escapeLoopCells
      simp only []
      rw [hpush]
      exact hrest

theorem escapeFieldCells_ok (value : Bytes) :
    ∃ block, escapeFieldCells value = .ok block ∧ block.Holds (escapeField value ++ [0]) := by
  obtain ⟨buffer, hloop, hholds, hroom⟩ := escapeLoopCells_ok value (.allocate 16) []
    (Growing.holds_allocate 16) (by decide)
  obtain ⟨block, hterminate, hblock⟩ := hholds.terminate hroom 0
  refine ⟨block, ?_, hblock⟩
  unfold escapeFieldCells
  rw [hloop]
  exact hterminate

theorem cString_escapeField (value : Bytes) :
    cString (escapeField value) = escapeField (cString value) := by
  induction value with
  | nil => rfl
  | cons ch value ih =>
      by_cases hch : ch = 0
      · subst hch
        rfl
      · have hbytes : ∀ b ∈ escapeByte ch, (b != 0) = true := by
          unfold escapeByte
          grind [backslash, pipe, letterN, letterR]
        have hcons : cString (ch :: value) = ch :: cString value := by
          simp [cString, hch]
        rw [hcons]
        unfold escapeField cString at *
        rw [List.flatMap_cons, List.takeWhile_append_of_pos hbytes, ih, List.flatMap_cons]

theorem escapedCells_ok (values : List Bytes) :
    escapedCells values = .ok ((values.map cString).map escapeField) := by
  induction values with
  | nil => rfl
  | cons value values ih =>
      obtain ⟨block, hblock, hholds⟩ := escapeFieldCells_ok value
      unfold escapedCells
      rw [hblock]
      simp only [bind, Except.bind]
      rw [readCString_eq hholds, ih, cString_escapeField]
      rfl

theorem strcat_ok {block : Block Byte} {content : Bytes} (source : Bytes)
    (h : block.Holds (content ++ [0])) (hcontent : NulFree content)
    (hroom : content.length + source.length + 1 ≤ block.length) :
    ∃ block', strcat block source = .ok block' ∧
      block'.Holds (content ++ source ++ [0]) ∧ block'.length = block.length := by
  have hfront : block.Holds content := by
    obtain ⟨rest, rfl⟩ := h
    exact ⟨[some 0] ++ rest, by simp⟩
  obtain ⟨block', hwrite, hholds, hlength⟩ :=
    hfront.writeAll (source ++ [0]) (by simp; omega)
  rw [← List.append_assoc] at hholds
  refine ⟨block', ?_, hholds, hlength⟩
  unfold strcat
  rw [readCString_eq h, cString_of_nulFree hcontent]
  exact hwrite

theorem joinCells_ok (fields : List Bytes) {output : Block Byte} {content : Bytes}
    (h : output.Holds (content ++ [0])) (hcontent : NulFree content)
    (hfields : ∀ field ∈ fields, NulFree field)
    (hroom : content.length + (joinFields fields).length + 1 ≤ output.length) :
    ∃ output', joinCells output fields = .ok output' ∧
      output'.Holds (content ++ joinFields fields ++ [0]) ∧
      output'.length = output.length := by
  fun_induction joinFields fields generalizing output content with
  | case1 => exact ⟨output, rfl, by simpa using h, rfl⟩
  | case2 field => exact strcat_ok field h hcontent hroom
  | case3 field fields hne ih =>
      rw [List.length_append, List.length_cons] at hroom
      obtain ⟨first, hfield, hholds, hlength⟩ := strcat_ok field h hcontent (by omega)
      have hcontent' := hcontent.append (hfields field (List.mem_cons_self ..))
      obtain ⟨second, hpipe, hholds', hlength'⟩ :=
        strcat_ok [pipe] hholds hcontent' (by simp; omega)
      obtain ⟨output', hrest, hholds'', hlength''⟩ := ih hholds'
        (hcontent'.append (by decide)) (fun f hf => hfields f (List.mem_cons_of_mem _ hf))
        (by simp; omega)
      refine ⟨output', ?_, by simpa using hholds'', by omega⟩
      rw [joinCells.eq_def]
      cases fields with
      | nil => exact absurd rfl hne
      | cons next fields =>
          simp only []
          rw [hfield]
          simp only [bind, Except.bind]
          rw [hpipe]
          exact hrest

/-- The total leaves room for the pipes, the newline and the terminator. -/
theorem length_joinFields_le (fields : List Bytes) :
    (joinFields fields).length + 2 ≤ rowTotal fields := by
  have htotal : ∀ (fields : List Bytes) (start : Nat), start + (joinFields fields).length ≤
      fields.foldl (fun total field => total + (field.length + 1)) start := by
    intro fields
    induction fields using joinFields.induct with
    | case1 => exact fun start => le_refl start
    | case2 field =>
        intro start
        simp only [List.foldl_cons, List.foldl_nil, joinFields]
        omega
    | case3 field fields hne ih =>
        intro start
        have hrest := ih (start + (field.length + 1))
        rw [List.foldl_cons, joinFields, List.length_append, List.length_cons]
        · omega
        · exact hne
  have := htotal fields 2
  unfold rowTotal
  omega

theorem serializeRowCells_ok (values : List Bytes) :
    ∃ block, serializeRowCells values = .ok block ∧
      block.Holds (serializeRow (values.map cString) ++ [0]) := by
  have hfields : ∀ field ∈ (values.map cString).map escapeField, NulFree field := by
    intro field hmem
    simp only [List.map_map, List.mem_map, Function.comp] at hmem
    obtain ⟨value, -, rfl⟩ := hmem
    rw [← cString_escapeField]
    exact cString_nulFree _
  have hjoined : NulFree (joinFields ((values.map cString).map escapeField)) := by
    have hrow : NulFree (serializeRow (values.map cString)) := nulFree_serializeRow (by
      intro value hmem
      obtain ⟨content, -, rfl⟩ := List.mem_map.mp hmem
      exact cString_nulFree content)
    exact fun hmem => hrow (List.mem_append_left _ hmem)
  have htotal := length_joinFields_le ((values.map cString).map escapeField)
  unfold serializeRowCells serializeRow
  rw [escapedCells_ok]
  simp only [bind, Except.bind]
  generalize (values.map cString).map escapeField = escaped at hfields hjoined htotal
  obtain ⟨output, hfirst, hholds, hlength⟩ :=
    (Block.holds_nil (Block.allocate (rowTotal escaped))).write
      (by rw [Block.length_allocate, List.length_nil]; omega) (0 : Byte)
  rw [Block.length_allocate] at hlength
  obtain ⟨joined, hjoin, hholds', hlength'⟩ :=
    joinCells_ok escaped hholds (by decide) hfields (by simp; omega)
  rw [List.nil_append] at hholds'
  obtain ⟨block, hline, hholds'', -⟩ :=
    strcat_ok [newline] hholds' hjoined (by simp; omega)
  refine ⟨block, ?_, hholds''⟩
  rw [List.length_nil] at hfirst
  rw [hfirst]
  simp only []
  rw [hjoin]
  exact hline

/-- Every write of the four functions is below the capacity that was allocated by then,
whatever they are given; behind what they compute stands a terminator. -/
theorem writes_in_bounds :
    (∀ tail column, ∃ result, readStringCells tail column = .ok result ∧
      (result = none ↔ readStringLoop tail [] column = none) ∧
      ∀ block rest column', result = some (block, rest, column') →
        ∃ content, readStringLoop tail [] column = some (content, rest, column') ∧
          block.Holds (content ++ [0])) ∧
    (∀ line, splitPipeLineCells line = .ok ((splitPipeLine line).map cString)) ∧
    (∀ value, ∃ block, escapeFieldCells value = .ok block ∧
      block.Holds (escapeField value ++ [0])) ∧
    ∀ values, ∃ block, serializeRowCells values = .ok block ∧
      block.Holds (serializeRow (values.map cString) ++ [0]) :=
  ⟨readStringCells_ok, splitPipeLineCells_ok, escapeFieldCells_ok, serializeRowCells_ok⟩

/-- A literal that fills its first buffer, a field that does not fit in it, and a row. -/
example :
    ((readStringCells (List.replicate 15 0x61 ++ [quote]) 1).toOption.join.map
      fun result => result.1.length) = some 16 ∧
    ((escapeFieldCells (List.replicate 8 pipe)).toOption.map List.length) = some 35 ∧
    ((serializeRowCells [[pipe], [0x61]]).toOption.map List.length) = some 7 := by
  decide +kernel

end MiniSql
