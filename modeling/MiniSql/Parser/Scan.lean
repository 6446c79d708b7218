import MiniSql.Foundation.Cursor
import MiniSql.Parser.Tokenizer

set_option autoImplicit false

/-!
# The tokenizer and its index

`tokenize_sql` once more, with the index it reads `source` through.  A read behind the
terminator ends the run in a stop of its own, and so would a read behind the end token
later on.  The tokenizer over the rest of the source computes the same, so it never stops
that way.  A refused request for memory would end a run earlier, with no further read; the
runs here are those in which none is refused.
-/

namespace MiniSql

open Foundation

/-- What ends `parse_sql_script` early. -/
inductive Stop where
  /-- a read behind the terminator of the source -/
  | behindSource (index : Nat)
  /-- a read behind the last token -/
  | behindTokens (index : Nat)
  | error (e : SqlError)
  deriving DecidableEq, Repr

/-- The source with its terminator. -/
def sourceCells (source : Bytes) : Bytes := source ++ [0]

/-- `source[index]`. -/
def byteAt (source : Bytes) (index : Nat) : Except Stop Byte :=
  readAt .behindSource (sourceCells source) index

/-- `test && p(source[index + 1])`: the byte behind is read only where the test holds. -/
def alsoNext (source : Bytes) (index : Nat) (test : Bool) (p : Byte → Bool) :
    Except Stop Bool :=
  if test then do
    let next ← byteAt source (index + 1)
    .ok (p next)
  else .ok false

/-- The locals of `tokenize_sql` at the head of its `while` loop. -/
structure ScanState where
  index : Nat
  line : Nat
  column : Nat
  tokens : List Token
  deriving DecidableEq, Repr

def ScanState.start : ScanState := { index := 0, line := 1, column := 1, tokens := [] }

/-- The loop inside a block comment: it ends at the closing `*/` or at the terminator. -/
def blockCommentLoopAt (source : Bytes) (index line column : Nat) :
    Except Stop (Nat × Nat × Nat) :=
  match _hread : byteAt source index with
  | .error e => .error e
  | .ok ch =>
      if ch = 0 then .ok (index, line, column)
      else
        match alsoNext source index (ch == star) (· == slash) with
        | .error e => .error e
        | .ok true => .ok (index, line, column)
        | .ok false =>
            if ch = newline then blockCommentLoopAt source (index + 1) (line + 1) 1
            else blockCommentLoopAt source (index + 1) line (column + 1)
  termination_by (sourceCells source).length - index
  decreasing_by
    all_goals
      have := readAt_lt _hread
      omega

/-- The loop of `read_string_token`: it ends at the closing quote or at the terminator. -/
def readStringLoopAt (source : Bytes) (cursor : Nat) (buffer : Bytes) (column : Nat) :
    Except Stop (Bytes × Nat × Nat) :=
  match _hread : byteAt source cursor with
  | .error e => .error e
  | .ok ch =>
      if ch = 0 then .ok (buffer, cursor, column)
      else if ch = quote then
        match byteAt source (cursor + 1) with
        | .error e => .error e
        | .ok next =>
            if next = quote then
              readStringLoopAt source (cursor + 2) (buffer ++ [quote]) (column + 2)
            else .ok (buffer, cursor, column)
      else readStringLoopAt source (cursor + 1) (buffer ++ [ch]) (column + 1)
  termination_by (sourceCells source).length - cursor
  decreasing_by
    all_goals
      have := readAt_lt _hread
      omega

/-- `read_string_token`, called with the index on the opening quote. -/
def readStringTokenAt (source : Bytes) (s : ScanState) : Except Stop ScanState := do
  let (buffer, cursor, column) ← readStringLoopAt source (s.index + 1) [] s.column
  let ch ← byteAt source cursor
  if ch ≠ quote then .error (.error (.atPosition "unterminated string literal" s.line s.column))
  else
    .ok { s with
      index := cursor + 1
      column := column + 1
      tokens := s.tokens ++ [⟨.string, buffer, s.line, s.column⟩] }

/-- A comment up to the end of its line. -/
def lineCommentAt (source : Bytes) (s : ScanState) : Except Stop ScanState := do
  let (index, column) ← skipWhile .behindSource (fun b => b != 0 && b != newline)
    (sourceCells source) (s.index + 2) (s.column + 2)
  .ok { s with index, column }

def blockCommentAt (source : Bytes) (s : ScanState) : Except Stop ScanState := do
  let (index, line, column) ← blockCommentLoopAt source (s.index + 2) s.line (s.column + 2)
  let ch ← byteAt source index
  if ch = 0 then .error (.error .unterminatedBlockComment)
  else .ok { s with index := index + 2, line, column := column + 2 }

/-- An identifier or a keyword. -/
def wordAt (source : Bytes) (s : ScanState) : Except Stop ScanState := do
  let (index, column) ←
    skipWhile .behindSource isWordByte (sourceCells source) s.index s.column
  let lexeme ← slice .behindSource (sourceCells source) s.index index
  .ok { s with
    index
    column
    tokens := s.tokens ++ [⟨keywordType lexeme, lexeme, s.line, s.column⟩] }

def numberAt (source : Bytes) (s : ScanState) : Except Stop ScanState := do
  let (index, column) ←
    skipWhile .behindSource isdigit (sourceCells source) (s.index + 1) (s.column + 1)
  let lexeme ← slice .behindSource (sourceCells source) s.index index
  .ok { s with
    index
    column
    tokens := s.tokens ++ [⟨.number, lexeme, s.line, s.column⟩] }

/-- The `switch` over the characters that are tokens by themselves. -/
def simpleTokenAt (s : ScanState) (ch : Byte) : Except Stop ScanState :=
  match simpleTokenType ch with
  | none => .error (.error (.unexpectedCharacter ch s.line s.column))
  | some type =>
      .ok { s with
        index := s.index + 1
        column := s.column + 1
        tokens := s.tokens ++ [⟨type, [ch], s.line, s.column⟩] }

/-- One iteration of the `while` loop of `tokenize_sql`, at `source[index] = ch`. -/
def tokenizeStepAt (source : Bytes) (s : ScanState) (ch : Byte) : Except Stop ScanState :=
  if isspace ch then
    if ch = newline then
      .ok { s with index := s.index + 1, line := s.line + 1, column := 1 }
    else .ok { s with index := s.index + 1, column := s.column + 1 }
  else do
    let lineComment ← alsoNext source s.index (ch == minus) (· == minus)
    if lineComment then lineCommentAt source s
    else do
      let blockComment ← alsoNext source s.index (ch == slash) (· == star)
      if blockComment then blockCommentAt source s
      else if isWordStart ch then wordAt source s
      else do
        let negative ← alsoNext source s.index (!isdigit ch && ch == minus) isdigit
        if isdigit ch || negative then numberAt source s
        else if ch = quote then readStringTokenAt source s
        else simpleTokenAt s ch

/-! ## Every iteration moves the index on -/

theorem bind_eq_ok {α β : Type} {x : Except Stop α} {f : α → Except Stop β} {b : β}
    (h : x.bind f = .ok b) : ∃ a, x = .ok a ∧ f a = .ok b := by
  cases x with
  | error e => cases h
  | ok a => exact ⟨a, rfl, h⟩

/-- One round, once its byte is read. -/
theorem blockCommentLoopAt_eq {source : Bytes} {index : Nat} {ch : Byte}
    (h : byteAt source index = .ok ch) (line column : Nat) :
    blockCommentLoopAt source index line column =
      if ch = 0 then .ok (index, line, column)
      else
        match alsoNext source index (ch == star) (· == slash) with
        | .error e => .error e
        | .ok true => .ok (index, line, column)
        | .ok false =>
            if ch = newline then blockCommentLoopAt source (index + 1) (line + 1) 1
            else blockCommentLoopAt source (index + 1) line (column + 1) := by
  rw [blockCommentLoopAt.eq_def]
  split
  · rename_i hread
    rw [h] at hread
    cases hread
  · rename_i hread
    rw [h] at hread
    cases hread
    rfl

theorem readStringLoopAt_eq {source : Bytes} {cursor : Nat} {ch : Byte}
    (h : byteAt source cursor = .ok ch) (buffer : Bytes) (column : Nat) :
    readStringLoopAt source cursor buffer column =
      if ch = 0 then .ok (buffer, cursor, column)
      else if ch = quote then
        match byteAt source (cursor + 1) with
        | .error e => .error e
        | .ok next =>
            if next = quote then
              readStringLoopAt source (cursor + 2) (buffer ++ [quote]) (column + 2)
            else .ok (buffer, cursor, column)
      else readStringLoopAt source (cursor + 1) (buffer ++ [ch]) (column + 1) := by
  rw [readStringLoopAt.eq_def]
  split
  · rename_i hread
    rw [h] at hread
    cases hread
  · rename_i hread
    rw [h] at hread
    cases hread
    rfl

theorem blockCommentLoopAt_le {source : Bytes} {index line column : Nat} {r : Nat × Nat × Nat}
    (h : blockCommentLoopAt source index line column = .ok r) : index ≤ r.1 := by
  fun_induction blockCommentLoopAt source index line column with
  | case1 => cases h
  | case2 => cases h; exact Nat.le_refl _
  | case3 => cases h
  | case4 => cases h; exact Nat.le_refl _
  | case5 _ _ _ _ _ _ ih => exact Nat.le_of_succ_le (ih h)
  | case6 _ _ _ _ _ _ _ _ ih => exact Nat.le_of_succ_le (ih h)

theorem readStringLoopAt_le {source buffer : Bytes} {cursor column : Nat}
    {r : Bytes × Nat × Nat} (h : readStringLoopAt source cursor buffer column = .ok r) :
    cursor ≤ r.2.1 := by
  fun_induction readStringLoopAt source cursor buffer column with
  | case1 => cases h
  | case2 => cases h; exact Nat.le_refl _
  | case3 => cases h
  | case4 _ _ _ _ _ _ ih =>
      have := ih h
      omega
  | case5 => cases h; exact Nat.le_refl _
  | case6 _ _ _ _ _ _ _ ih => exact Nat.le_of_succ_le (ih h)

section Progress

variable {source : Bytes} {s s' : ScanState} {ch : Byte}

theorem readStringTokenAt_lt (h : readStringTokenAt source s = .ok s') : s.index < s'.index := by
  obtain ⟨⟨buffer, cursor, column⟩, hloop, h⟩ := bind_eq_ok h
  obtain ⟨stop, -, h⟩ := bind_eq_ok h
  have hle : s.index + 1 ≤ cursor := readStringLoopAt_le hloop
  split at h
  · cases h
  · cases h
    show s.index < cursor + 1
    omega

theorem lineCommentAt_lt (h : lineCommentAt source s = .ok s') : s.index < s'.index := by
  obtain ⟨⟨index, column⟩, hskip, h⟩ := bind_eq_ok h
  have hle := skipWhile_le hskip
  cases h
  show s.index < index
  omega

theorem blockCommentAt_lt (h : blockCommentAt source s = .ok s') : s.index < s'.index := by
  obtain ⟨⟨index, line, column⟩, hloop, h⟩ := bind_eq_ok h
  obtain ⟨stop, -, h⟩ := bind_eq_ok h
  have hle : s.index + 2 ≤ index := blockCommentLoopAt_le hloop
  split at h
  · cases h
  · cases h
    show s.index < index + 2
    omega

/-- A word is not empty, as its first byte is a byte of a word. -/
theorem wordAt_lt (hread : byteAt source s.index = .ok ch) (hstart : isWordStart ch = true)
    (h : wordAt source s = .ok s') : s.index < s'.index := by
  obtain ⟨⟨index, column⟩, hskip, h⟩ := bind_eq_ok h
  obtain ⟨lexeme, -, h⟩ := bind_eq_ok h
  have hbyte := (isWordStart_excludes hstart).2.2.2
  rw [skipWhile_eq hread, if_pos hbyte] at hskip
  have hle := skipWhile_le hskip
  cases h
  exact hle

theorem numberAt_lt (h : numberAt source s = .ok s') : s.index < s'.index := by
  obtain ⟨⟨index, column⟩, hskip, h⟩ := bind_eq_ok h
  obtain ⟨lexeme, -, h⟩ := bind_eq_ok h
  have hle := skipWhile_le hskip
  cases h
  exact hle

theorem simpleTokenAt_lt (h : simpleTokenAt s ch = .ok s') : s.index < s'.index := by
  unfold simpleTokenAt at h
  split at h
  · cases h
  · cases h
    exact Nat.lt_succ_self _

theorem tokenizeStepAt_lt (hread : byteAt source s.index = .ok ch)
    (h : tokenizeStepAt source s ch = .ok s') : s.index < s'.index := by
  unfold tokenizeStepAt at h
  split at h
  · split at h
    · cases h
      exact Nat.lt_succ_self _
    · cases h
      exact Nat.lt_succ_self _
  · obtain ⟨lineComment, -, h⟩ := bind_eq_ok h
    split at h
    · exact lineCommentAt_lt h
    · obtain ⟨blockComment, -, h⟩ := bind_eq_ok h
      split at h
      · exact blockCommentAt_lt h
      · split at h
        · exact wordAt_lt hread ‹_› h
        · obtain ⟨negative, -, h⟩ := bind_eq_ok h
          split at h
          · exact numberAt_lt h
          · split at h
            · exact readStringTokenAt_lt h
            · exact simpleTokenAt_lt h

end Progress

/-- The `while` loop of `tokenize_sql`. -/
def tokenizeLoopAt (source : Bytes) (s : ScanState) : Except Stop ScanState :=
  match _hread : byteAt source s.index with
  | .error e => .error e
  | .ok ch =>
      if ch = 0 then .ok s
      else
        match _hstep : tokenizeStepAt source s ch with
        | .error e => .error e
        | .ok s' => tokenizeLoopAt source s'
  termination_by (sourceCells source).length - s.index
  decreasing_by
    have := readAt_lt _hread
    have := tokenizeStepAt_lt _hread _hstep
    omega

/-- `tokenize_sql`. -/
def tokenizeSqlAt (source : Bytes) : Except Stop (List Token) := do
  let s ← tokenizeLoopAt source .start
  .ok (s.tokens ++ [⟨.end_, [], s.line, s.column⟩])

/-! ## The bytes in front of the index -/

/-- These bytes are left in front of the terminator, and none of them is NUL. -/
structure Remains (source : Bytes) (index : Nat) (rest : Bytes) : Prop where
  ahead : Ahead (sourceCells source) index (rest ++ [0])
  nulFree : NulFree rest

section Remains

variable {source body rest tail : Bytes} {index : Nat} {ch : Byte}

theorem Remains.start (h : NulFree source) : Remains source 0 source :=
  ⟨⟨rfl, by simp⟩, h⟩

theorem Remains.byteAt (h : Remains source index rest) :
    byteAt source index = .ok (rest.headD 0) := by
  cases rest with
  | nil => exact h.ahead.read
  | cons ch rest => exact h.ahead.read

theorem Remains.skip (h : Remains source index (body ++ rest)) :
    Remains source (index + body.length) rest := by
  have hahead := h.ahead
  rw [List.append_assoc] at hahead
  exact ⟨hahead.skip (by simp), fun hmem => h.nulFree (List.mem_append_right _ hmem)⟩

theorem Remains.next (h : Remains source index (ch :: tail)) :
    Remains source (index + 1) tail := by
  have hbytes : Remains source index ([ch] ++ tail) := h
  exact hbytes.skip

theorem Remains.ne_zero (h : Remains source index (ch :: tail)) : ch ≠ 0 :=
  fun hch => h.nulFree (by simp [hch])

/-- A byte that was read and is not the terminator is the first of what is left. -/
theorem Remains.exists_cons (h : Remains source index rest)
    (hread : MiniSql.byteAt source index = .ok ch) (hch : ch ≠ 0) :
    ∃ tail, rest = ch :: tail := by
  rw [h.byteAt] at hread
  cases rest with
  | nil => exact absurd (Except.ok.inj hread).symm hch
  | cons ch' tail =>
      obtain rfl : ch' = ch := Except.ok.inj hread
      exact ⟨tail, rfl⟩

theorem Remains.alsoNext (h : Remains source index (ch :: tail)) (test : Bool)
    (p : Byte → Bool) :
    alsoNext source index test p = .ok (test && p (tail.headD 0)) := by
  cases test with
  | false => rfl
  | true =>
      unfold MiniSql.alsoNext
      rw [if_pos rfl, h.next.byteAt]
      rfl

/-- A class without NUL stops in front of the terminator. -/
theorem Remains.skipWhile (h : Remains source index rest) {p : Byte → Bool} (hp : p 0 = false)
    (column : Nat) :
    skipWhile Stop.behindSource p (sourceCells source) index column =
        .ok (index + (rest.takeWhile p).length, column + (rest.takeWhile p).length) ∧
      Remains source (index + (rest.takeWhile p).length) (rest.dropWhile p) := by
  have hhead : ∀ b ∈ (rest.dropWhile p ++ [0]).head?, p b = false := by
    cases hdrop : rest.dropWhile p with
    | nil =>
        intro b hb
        obtain rfl : 0 = b := by simpa using hb
        exact hp
    | cons c t =>
        have hstop := head?_dropWhile_eq_false p rest
        rw [hdrop] at hstop
        exact hstop
  have htake : (rest ++ [0]).takeWhile p = rest.takeWhile p := by
    have hbody : ∀ b ∈ rest.takeWhile p, p b = true := fun b hb => List.mem_takeWhile_imp hb
    have hrun := takeWhile_run hbody hhead
    rwa [← List.append_assoc, List.takeWhile_append_dropWhile] at hrun
  have hsplit : Remains source index (rest.takeWhile p ++ rest.dropWhile p) := by
    rw [List.takeWhile_append_dropWhile]
    exact h
  have hskip := (h.ahead.skipWhile ⟨0, by simp, hp⟩ column :
    Foundation.skipWhile Stop.behindSource p (sourceCells source) index column = _ ∧ _).1
  rw [htake] at hskip
  exact ⟨hskip, hsplit.skip⟩

theorem Remains.slice (h : Remains source index (body ++ rest)) :
    slice Stop.behindSource (sourceCells source) index (index + body.length) = .ok body := by
  have hahead := h.ahead
  rw [List.append_assoc] at hahead
  exact hahead.slice (by simp)

end Remains

/-- Without NUL there is no need to test for it. -/
theorem takeWhile_of_nulFree {s : Bytes} (h : NulFree s) (p : Byte → Bool) :
    (s.takeWhile fun b => b != 0 && p b) = s.takeWhile p ∧
      (s.dropWhile fun b => b != 0 && p b) = s.dropWhile p := by
  induction s with
  | nil => exact ⟨rfl, rfl⟩
  | cons b s ih =>
      have hb : (b != 0) = true := by
        simp only [bne_iff_ne, ne_eq]
        exact fun hzero => h (by simp [hzero])
      obtain ⟨htake, hdrop⟩ := ih fun hmem => h (List.mem_cons_of_mem b hmem)
      rw [List.takeWhile_cons, List.takeWhile_cons, List.dropWhile_cons, List.dropWhile_cons,
        htake, hdrop, hb, Bool.true_and]
      exact ⟨rfl, rfl⟩

/-! ## The loops of comments and literals -/

/-- Where the loop stops: at the `*/` behind which the comment ends, or at the terminator. -/
theorem blockCommentLoopAt_remains {source rest : Bytes} {index : Nat}
    (h : Remains source index rest) (line column : Nat) :
    ∃ index' line' column',
      blockCommentLoopAt source index line column = .ok (index', line', column') ∧
      ((skipBlockComment rest line column = none ∧ Remains source index' []) ∨
        ∃ rest', skipBlockComment rest line column = some (rest', line', column' + 2) ∧
          Remains source index' (star :: slash :: rest')) := by
  induction rest generalizing index line column with
  | nil =>
      refine ⟨index, line, column, ?_, .inl ⟨rfl, h⟩⟩
      rw [blockCommentLoopAt_eq h.byteAt]
      rfl
  | cons ch tail ih =>
      have hread : byteAt source index = .ok ch := h.byteAt
      rw [blockCommentLoopAt_eq hread, if_neg h.ne_zero, h.alsoNext, skipBlockComment]
      by_cases hclose : ch = star ∧ tail.head? = some slash
      · rw [if_pos hclose]
        obtain ⟨rfl, hslash⟩ := hclose
        obtain ⟨rest', rfl⟩ := exists_cons_of_mem_head? hslash
        exact ⟨index, line, column, rfl, .inr ⟨rest', rfl, h⟩⟩
      · have hnext : ((ch == star) && tail.headD 0 == slash) = false := by
          cases tail with
          | nil => simp [show (0 : Byte) ≠ slash by decide]
          | cons next tail =>
              simpa using hclose
        rw [if_neg hclose, hnext]
        simp only []
        split
        · exact ih h.next (line + 1) 1
        · exact ih h.next line (column + 1)

/-- Where the loop stops: at the closing quote or at the terminator. -/
theorem readStringLoopAt_remains {source rest : Bytes} {cursor : Nat}
    (h : Remains source cursor rest) (buffer : Bytes) (column : Nat) :
    ∃ buffer' cursor' column',
      readStringLoopAt source cursor buffer column = .ok (buffer', cursor', column') ∧
      ((readStringLoop rest buffer column = none ∧ Remains source cursor' []) ∨
        ∃ rest', readStringLoop rest buffer column = some (buffer', rest', column') ∧
          Remains source cursor' (quote :: rest')) := by
  fun_induction readStringLoop rest buffer column generalizing cursor with
  | case1 buffer column =>
      refine ⟨buffer, cursor, column, ?_, .inl ⟨rfl, h⟩⟩
      rw [readStringLoopAt_eq h.byteAt]
      rfl
  | case2 buffer column =>
      refine ⟨buffer, cursor, column, ?_, .inr ⟨[], rfl, h⟩⟩
      rw [readStringLoopAt_eq h.byteAt, h.next.byteAt]
      rfl
  | case3 buffer column tail ih =>
      have hnext : byteAt source (cursor + 1) = .ok quote := h.next.byteAt
      have heq := readStringLoopAt_eq h.byteAt buffer column
      rw [hnext] at heq
      rw [heq]
      exact ih h.next.next
  | case4 buffer column next tail hne =>
      refine ⟨buffer, cursor, column, ?_, .inr ⟨next :: tail, rfl, h⟩⟩
      have hnext : byteAt source (cursor + 1) = .ok next := h.next.byteAt
      have heq := readStringLoopAt_eq h.byteAt buffer column
      rw [hnext] at heq
      rw [heq]
      simp only []
      rw [if_neg hne]
      rfl
  | case5 ch tail buffer column hch ih =>
      have hread : byteAt source cursor = .ok ch := h.byteAt
      rw [readStringLoopAt_eq hread, if_neg h.ne_zero, if_neg hch]
      exact ih h.next

/-! ## The tokenizer over the rest of the source -/

/-- The state without its index. -/
def ScanState.at (s : ScanState) (rest : Bytes) : LexState :=
  { rest, line := s.line, column := s.column, tokens := s.tokens }

/-- The same answer, with the index in front of what is left. -/
inductive Agrees (source : Bytes) : Except Stop ScanState → Except SqlError LexState → Prop where
  | ok {s : ScanState} {rest : Bytes} (remains : Remains source s.index rest) :
      Agrees source (.ok s) (.ok (s.at rest))
  | error (e : SqlError) : Agrees source (.error (.error e)) (.error e)

section Steps

variable {source tail : Bytes} {s : ScanState} {ch : Byte}

theorem lineCommentAt_agrees (h : Remains source s.index (minus :: minus :: tail)) :
    Agrees source (lineCommentAt source s)
      (.ok { s.at [] with
        rest := tail.dropWhile (· != newline)
        column := s.column + 2 + (tail.takeWhile (· != newline)).length }) := by
  have hafter : Remains source (s.index + 2) tail := h.next.next
  obtain ⟨hskip, hremains⟩ :=
    hafter.skipWhile (p := fun b => b != 0 && b != newline) (by decide) (s.column + 2)
  obtain ⟨htake, hdrop⟩ := takeWhile_of_nulFree hafter.nulFree (· != newline)
  rw [htake] at hskip hremains
  rw [hdrop] at hremains
  unfold lineCommentAt
  rw [hskip]
  exact .ok (s := ⟨_, s.line, _, s.tokens⟩) hremains

theorem blockCommentAt_agrees (h : Remains source s.index (slash :: star :: tail)) :
    Agrees source (blockCommentAt source s)
      (match skipBlockComment tail s.line (s.column + 2) with
        | none => .error .unterminatedBlockComment
        | some (rest, line, column) => .ok { s.at [] with rest, line, column }) := by
  obtain ⟨index, line, column, hloop, hstop⟩ :=
    blockCommentLoopAt_remains h.next.next s.line (s.column + 2)
  unfold blockCommentAt
  rw [hloop]
  rcases hstop with ⟨hnone, hremains⟩ | ⟨rest, hsome, hremains⟩
  · have hread : byteAt source index = .ok 0 := hremains.byteAt
    rw [hnone]
    simp only [bind, Except.bind]
    rw [hread]
    exact .error _
  · have hread : byteAt source index = .ok star := hremains.byteAt
    rw [hsome]
    simp only [bind, Except.bind]
    rw [hread]
    exact .ok (s := ⟨index + 2, line, column + 2, s.tokens⟩) hremains.next.next

theorem readStringTokenAt_agrees (h : Remains source s.index (quote :: tail)) :
    Agrees source (readStringTokenAt source s) (readStringToken (s.at (quote :: tail)) tail) := by
  obtain ⟨buffer, cursor, column, hloop, hstop⟩ := readStringLoopAt_remains h.next [] s.column
  unfold readStringTokenAt readStringToken
  rw [hloop]
  rcases hstop with ⟨hnone, hremains⟩ | ⟨rest, hsome, hremains⟩
  · have hread : byteAt source cursor = .ok 0 := hremains.byteAt
    have hnone' : readStringLoop tail [] (s.at (quote :: tail)).column = none := hnone
    rw [hnone']
    simp only [bind, Except.bind]
    rw [hread]
    exact .error _
  · have hread : byteAt source cursor = .ok quote := hremains.byteAt
    have hsome' : readStringLoop tail [] (s.at (quote :: tail)).column =
        some (buffer, rest, column) := hsome
    rw [hsome']
    simp only [bind, Except.bind]
    rw [hread]
    exact .ok (s := ⟨cursor + 1, s.line, column + 1, _⟩) hremains.next

theorem wordAt_agrees (h : Remains source s.index (ch :: tail)) :
    Agrees source (wordAt source s)
      (.ok { s.at [] with
        rest := (ch :: tail).dropWhile isWordByte
        column := s.column + ((ch :: tail).takeWhile isWordByte).length
        tokens := s.tokens ++ [⟨keywordType ((ch :: tail).takeWhile isWordByte),
          (ch :: tail).takeWhile isWordByte, s.line, s.column⟩] }) := by
  obtain ⟨hskip, hremains⟩ := h.skipWhile (by decide : isWordByte 0 = false) s.column
  have hslice : slice Stop.behindSource (sourceCells source) s.index
      (s.index + ((ch :: tail).takeWhile isWordByte).length) =
        .ok ((ch :: tail).takeWhile isWordByte) := by
    have hsplit := h
    rw [← List.takeWhile_append_dropWhile (p := isWordByte) (l := ch :: tail)] at hsplit
    exact hsplit.slice
  unfold wordAt
  rw [hskip]
  simp only [bind, Except.bind]
  rw [hslice]
  exact .ok (s := ⟨_, s.line, _, _⟩) hremains

theorem numberAt_agrees (h : Remains source s.index (ch :: tail)) :
    Agrees source (numberAt source s)
      (.ok { s.at [] with
        rest := tail.dropWhile isdigit
        column := s.column + (ch :: tail.takeWhile isdigit).length
        tokens := s.tokens ++
          [⟨.number, ch :: tail.takeWhile isdigit, s.line, s.column⟩] }) := by
  obtain ⟨hskip, hremains⟩ := h.next.skipWhile (by decide : isdigit 0 = false) (s.column + 1)
  have hindex : s.index + 1 + (tail.takeWhile isdigit).length =
      s.index + (ch :: tail.takeWhile isdigit).length := by
    rw [List.length_cons]
    omega
  have hcolumn : s.column + 1 + (tail.takeWhile isdigit).length =
      s.column + (ch :: tail.takeWhile isdigit).length := by
    rw [List.length_cons]
    omega
  rw [hindex] at hskip hremains
  rw [hcolumn] at hskip
  have hslice : slice Stop.behindSource (sourceCells source) s.index
      (s.index + (ch :: tail.takeWhile isdigit).length) = .ok (ch :: tail.takeWhile isdigit) := by
    have hsplit : Remains source s.index
        (ch :: tail.takeWhile isdigit ++ tail.dropWhile isdigit) := by
      rw [List.cons_append, List.takeWhile_append_dropWhile]
      exact h
    exact hsplit.slice
  unfold numberAt
  rw [hskip]
  simp only [bind, Except.bind]
  rw [hslice]
  exact .ok (s := ⟨_, s.line, _, _⟩) hremains

theorem simpleTokenAt_agrees (h : Remains source s.index (ch :: tail)) :
    Agrees source (simpleTokenAt s ch)
      (match simpleTokenType ch with
        | none => .error (.unexpectedCharacter ch s.line s.column)
        | some type =>
            .ok { s.at [] with
              rest := tail
              column := s.column + 1
              tokens := s.tokens ++ [⟨type, [ch], s.line, s.column⟩] }) := by
  unfold simpleTokenAt
  cases simpleTokenType ch with
  | none => exact .error _
  | some type => exact .ok (s := ⟨_, s.line, _, _⟩) h.next

/-- A look-ahead, over the rest of the source and through the index. -/
theorem lookahead_iff {tail : Bytes} {ch c next : Byte} (hnext : next ≠ 0) :
    ((ch == c) && tail.headD 0 == next) = true ↔ ch = c ∧ tail.head? = some next := by
  cases tail with
  | nil => simp [Ne.symm hnext]
  | cons b t => simp

theorem numberStart_eq (ch : Byte) (tail : Bytes) :
    (isdigit ch || (!isdigit ch && ch == minus && isdigit (tail.headD 0))) =
      (isdigit ch || (ch == minus && tail.head?.any isdigit)) := by
  have hhead : tail.head?.any isdigit = isdigit (tail.headD 0) := by
    cases tail with
    | nil => rfl
    | cons b t => rfl
  rw [hhead]
  cases isdigit ch <;> simp

/-- One iteration, over the rest of the source and through the index. -/
theorem tokenizeStepAt_agrees (h : Remains source s.index (ch :: tail)) :
    Agrees source (tokenizeStepAt source s ch) (tokenizeStep (s.at (ch :: tail)) ch tail) := by
  unfold tokenizeStepAt tokenizeStep
  rw [h.alsoNext, h.alsoNext, h.alsoNext]
  split
  · split
    · exact .ok (s := ⟨_, _, _, s.tokens⟩) h.next
    · exact .ok (s := ⟨_, s.line, _, s.tokens⟩) h.next
  · simp only [bind, Except.bind]
    simp only [lookahead_iff (by decide : minus ≠ 0), lookahead_iff (by decide : star ≠ 0),
      numberStart_eq]
    split
    · rename_i hcomment
      obtain ⟨rfl, hhead⟩ := hcomment
      obtain ⟨input, rfl⟩ := exists_cons_of_mem_head? hhead
      exact lineCommentAt_agrees h
    · split
      · rename_i hcomment
        obtain ⟨rfl, hhead⟩ := hcomment
        obtain ⟨input, rfl⟩ := exists_cons_of_mem_head? hhead
        exact blockCommentAt_agrees h
      · split
        · exact wordAt_agrees h
        · split
          · exact numberAt_agrees h
          · split
            · rename_i hquote
              subst hquote
              exact readStringTokenAt_agrees h
            · exact simpleTokenAt_agrees h

end Steps

/-- A whole run, by induction on it: every round begins in front of what the round before
has left. -/
theorem tokenizeLoopAt_agrees {source : Bytes} {s : ScanState} {rest : Bytes}
    (h : Remains source s.index rest) :
    Agrees source (tokenizeLoopAt source s) (tokenizeLoop (s.at rest)) := by
  fun_induction tokenizeLoopAt source s generalizing rest with
  | case1 s e hread =>
      rw [h.byteAt] at hread
      cases hread
  | case2 s hread =>
      cases rest with
      | nil =>
          rw [tokenizeLoop_nil rfl]
          exact .ok h
      | cons ch tail =>
          rw [h.byteAt] at hread
          exact absurd (Except.ok.inj hread) h.ne_zero
  | case3 s ch hread hch e hstep =>
      obtain ⟨tail, rfl⟩ := h.exists_cons hread hch
      have hagrees := tokenizeStepAt_agrees h
      rw [hstep] at hagrees
      generalize hstep' : tokenizeStep (s.at (ch :: tail)) ch tail = answer at hagrees
      cases hagrees with
      | error e =>
          rw [tokenizeLoop_of_error rfl hstep']
          exact .error e
  | case4 s ch hread hch s' hstep ih =>
      obtain ⟨tail, rfl⟩ := h.exists_cons hread hch
      have hagrees := tokenizeStepAt_agrees h
      rw [hstep] at hagrees
      generalize hstep' : tokenizeStep (s.at (ch :: tail)) ch tail = answer at hagrees
      cases hagrees with
      | ok remains =>
          rw [tokenizeLoop_of_ok rfl hstep']
          exact ih remains

/-- What `tokenize_sql` computes through its index. -/
theorem tokenizeSqlAt_eq {source : Bytes} (h : NulFree source) :
    tokenizeSqlAt source = (tokenizeSql source).mapError .error := by
  have hagrees := tokenizeLoopAt_agrees (s := ScanState.start) (Remains.start h)
  unfold tokenizeSqlAt tokenizeSql
  have hstart : ScanState.start.at source = LexState.start source := rfl
  rw [hstart] at hagrees
  generalize tokenizeLoopAt source .start = answer at hagrees
  generalize tokenizeLoop (.start source) = answer' at hagrees
  cases hagrees with
  | ok remains => rfl
  | error e => rfl

end MiniSql
