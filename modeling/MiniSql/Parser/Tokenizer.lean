import MiniSql.Foundation.Munch
import MiniSql.Parser.Ast

set_option autoImplicit false

/-!
# The tokenizer (`tokenize_sql`)

The index into `source` is modelled by the suffix of the source that is still
to be read: `source[index]` is its head, the end of the list is the terminator,
and `source[index + 1]` is the head of its tail.  One iteration of the `while`
loop is `tokenizeStep`; its inner loops are definitions of their own.
-/

namespace MiniSql

open Foundation

/-- `TokenType`. -/
inductive TokenType where
  | identifier | string | number
  | comma | dot | lparen | rparen | semicolon | star | equal
  | insert | into | values | select | from_ | where_
  | end_
  deriving DecidableEq, Repr

/-- `Token`. -/
structure Token where
  type : TokenType
  lexeme : Bytes
  line : Nat
  column : Nat
  deriving DecidableEq, Repr

/-- `keyword_type`. -/
def keywordType (lexeme : Bytes) : TokenType :=
  if sqlStricmp lexeme (ascii "INSERT") = 0 then .insert
  else if sqlStricmp lexeme (ascii "INTO") = 0 then .into
  else if sqlStricmp lexeme (ascii "VALUES") = 0 then .values
  else if sqlStricmp lexeme (ascii "SELECT") = 0 then .select
  else if sqlStricmp lexeme (ascii "FROM") = 0 then .from_
  else if sqlStricmp lexeme (ascii "WHERE") = 0 then .where_
  else .identifier

/-- The `switch` over the characters that are tokens by themselves. -/
def simpleTokenType (ch : Byte) : Option TokenType :=
  if ch = comma then some .comma
  else if ch = dot then some .dot
  else if ch = lparen then some .lparen
  else if ch = rparen then some .rparen
  else if ch = semicolon then some .semicolon
  else if ch = star then some .star
  else if ch = equal then some .equal
  else none

/-- The characters a word may start with, and those it may go on with. -/
def isWordStart (ch : Byte) : Bool := isalpha ch || ch == underscore

def isWordByte (ch : Byte) : Bool := isalnum ch || ch == underscore

/-- The locals of `tokenize_sql` at the head of its `while` loop. -/
structure LexState where
  rest : Bytes
  line : Nat
  column : Nat
  tokens : List Token
  deriving DecidableEq, Repr

/-- The state in which `tokenize_sql` enters its loop. -/
def LexState.start (source : Bytes) : LexState :=
  { rest := source, line := 1, column := 1, tokens := [] }

/-- The loop inside a block comment, up to its closing `*/` or the end. -/
def skipBlockComment : Bytes → Nat → Nat → Option (Bytes × Nat × Nat)
  | [], _, _ => none
  | ch :: tail, line, column =>
      if ch = star ∧ tail.head? = some slash then some (tail.tail, line, column + 2)
      else if ch = newline then skipBlockComment tail (line + 1) 1
      else skipBlockComment tail line (column + 1)

/-- The loop of `read_string_token`: the content of the literal, what follows
its closing quote and the column counted so far, or nothing at the end of the
source. -/
def readStringLoop : Bytes → Bytes → Nat → Option (Bytes × Bytes × Nat)
  | [], _, _ => none
  | ch :: tail, buffer, column =>
      if ch = quote then
        match tail with
        | [] => some (buffer, [], column)
        | next :: tail' =>
            if next = quote then readStringLoop tail' (buffer ++ [quote]) (column + 2)
            else some (buffer, next :: tail', column)
      else readStringLoop tail (buffer ++ [ch]) (column + 1)

/-- `read_string_token`, called with the index on the opening quote and `tail`
behind it.  The line is left as it is, whatever the literal contains. -/
def readStringToken (s : LexState) (tail : Bytes) : Except SqlError LexState :=
  match readStringLoop tail [] s.column with
  | none => .error (.atPosition "unterminated string literal" s.line s.column)
  | some (buffer, rest, column) =>
      .ok { s with
        rest := rest
        column := column + 1
        tokens := s.tokens ++ [⟨.string, buffer, s.line, s.column⟩] }

/-- One iteration of the `while` loop of `tokenize_sql`, at `source[index] = ch`
with `tail` behind it. -/
def tokenizeStep (s : LexState) (ch : Byte) (tail : Bytes) : Except SqlError LexState :=
  if isspace ch then
    if ch = newline then .ok { s with rest := tail, line := s.line + 1, column := 1 }
    else .ok { s with rest := tail, column := s.column + 1 }
  else if ch = minus ∧ tail.head? = some minus then
    let body := tail.tail.takeWhile (· != newline)
    .ok { s with
      rest := tail.tail.dropWhile (· != newline)
      column := s.column + 2 + body.length }
  else if ch = slash ∧ tail.head? = some star then
    match skipBlockComment tail.tail s.line (s.column + 2) with
    | none => .error .unterminatedBlockComment
    | some (rest, line, column) => .ok { s with rest, line, column }
  else if isWordStart ch then
    let lexeme := (ch :: tail).takeWhile isWordByte
    .ok { s with
      rest := (ch :: tail).dropWhile isWordByte
      column := s.column + lexeme.length
      tokens := s.tokens ++ [⟨keywordType lexeme, lexeme, s.line, s.column⟩] }
  else if isdigit ch || (ch == minus && (tail.head?.any isdigit)) then
    let lexeme := ch :: tail.takeWhile isdigit
    .ok { s with
      rest := tail.dropWhile isdigit
      column := s.column + lexeme.length
      tokens := s.tokens ++ [⟨.number, lexeme, s.line, s.column⟩] }
  else if ch = quote then readStringToken s tail
  else
    match simpleTokenType ch with
    | none => .error (.unexpectedCharacter ch s.line s.column)
    | some type =>
        .ok { s with
          rest := tail
          column := s.column + 1
          tokens := s.tokens ++ [⟨type, [ch], s.line, s.column⟩] }

/-! ## What the inner loops do -/

/-- A position after some bytes: a newline starts the next line, every other
byte moves one column on. -/
def advance : Nat × Nat → Bytes → Nat × Nat
  | pos, [] => pos
  | (line, column), ch :: rest =>
      advance (if ch = newline then (line + 1, 1) else (line, column + 1)) rest

/-- `*/` occurs in `body` followed by `*/` only at the end. -/
def ClosesFirst (body : Bytes) : Prop :=
  ∀ x y, body ++ [star, slash] = x ++ [star, slash] ++ y → y = []

theorem closesFirst_cons_iff (ch : Byte) (body : Bytes) :
    ClosesFirst (ch :: body) ↔
      ¬ (ch = star ∧ (body ++ [star, slash]).head? = some slash) ∧ ClosesFirst body := by
  constructor
  · intro h
    refine ⟨?_, fun x y hxy => h (ch :: x) y (by simp [hxy])⟩
    rintro ⟨rfl, hhead⟩
    have hsplit : body ++ [star, slash] = slash :: (body ++ [star, slash]).tail := by
      cases hb : body ++ [star, slash] with
      | nil => simp at hb
      | cons b t => simp_all
    have htail := h [] (body ++ [star, slash]).tail (by simp [← hsplit])
    have hlen := congrArg List.length hsplit
    rw [htail] at hlen
    simp at hlen
  · rintro ⟨hhead, h⟩ x y hxy
    cases x with
    | nil =>
        simp only [List.cons_append, List.nil_append, List.cons.injEq] at hxy
        exact absurd ⟨hxy.1, by simp [hxy.2]⟩ hhead
    | cons a x =>
        simp only [List.cons_append, List.cons.injEq] at hxy
        exact h x y hxy.2

theorem closesFirst_nil : ClosesFirst [] := by
  intro x y hxy
  have hlen := congrArg List.length hxy
  simp at hlen
  exact List.eq_nil_of_length_eq_zero (by omega)

/-- `skipBlockComment` stops behind the first `*/`, its position advanced over
everything before it. -/
theorem skipBlockComment_eq_some_iff {input rest : Bytes} {line column line' column' : Nat} :
    skipBlockComment input line column = some (rest, line', column') ↔
      ∃ body, input = body ++ star :: slash :: rest ∧ ClosesFirst body ∧
        (line', column') = ((advance (line, column) body).1,
          (advance (line, column) body).2 + 2) := by
  induction input generalizing line column with
  | nil => simp [skipBlockComment]
  | cons ch tail ih =>
      rw [skipBlockComment]
      by_cases hclose : ch = star ∧ tail.head? = some slash
      · rw [if_pos hclose]
        obtain ⟨rfl, hhead⟩ := hclose
        obtain ⟨rest', rfl⟩ : ∃ rest', tail = slash :: rest' := by
          cases tail with
          | nil => simp at hhead
          | cons b t => exact ⟨t, by simpa using hhead⟩
        constructor
        · intro h
          obtain ⟨rfl, rfl, rfl⟩ : rest' = rest ∧ line = line' ∧ column + 2 = column' := by
            simpa using h
          exact ⟨[], rfl, closesFirst_nil, rfl⟩
        · rintro ⟨body, hinput, hfirst, hpos⟩
          cases body with
          | nil => simp_all [advance]
          | cons b body =>
              simp only [List.cons_append, List.cons.injEq] at hinput
              refine absurd ⟨hinput.1.symm, ?_⟩ ((closesFirst_cons_iff b body).mp hfirst).1
              cases body with
              | nil => simpa using congrArg List.head? hinput.2.symm
              | cons c body => simpa using congrArg List.head? hinput.2.symm
      · rw [if_neg hclose]
        have hstep : (if ch = newline then skipBlockComment tail (line + 1) 1
            else skipBlockComment tail line (column + 1)) =
            skipBlockComment tail
              (if ch = newline then (line + 1, 1) else (line, column + 1)).1
              (if ch = newline then (line + 1, 1) else (line, column + 1)).2 := by
          split <;> rfl
        rw [hstep, ih]
        constructor
        · rintro ⟨body, rfl, hfirst, hpos⟩
          refine ⟨ch :: body, rfl, (closesFirst_cons_iff ch body).mpr ⟨?_, hfirst⟩, hpos⟩
          rintro ⟨rfl, hhead⟩
          refine hclose ⟨rfl, ?_⟩
          cases body <;> simpa using hhead
        · rintro ⟨body, hinput, hfirst, hpos⟩
          cases body with
          | nil =>
              simp only [List.nil_append, List.cons.injEq] at hinput
              exact absurd ⟨hinput.1, by simp [hinput.2]⟩ hclose
          | cons b body =>
              simp only [List.cons_append, List.cons.injEq] at hinput
              obtain ⟨rfl, rfl⟩ := hinput
              exact ⟨body, rfl, ((closesFirst_cons_iff ch body).mp hfirst).2, hpos⟩

/-- The content of a literal with every quote doubled. -/
def doubleQuotes (content : Bytes) : Bytes :=
  content.flatMap fun ch => if ch = quote then [quote, quote] else [ch]

@[simp] theorem doubleQuotes_nil : doubleQuotes [] = [] := rfl

theorem doubleQuotes_quote (content : Bytes) :
    doubleQuotes (quote :: content) = quote :: quote :: doubleQuotes content := rfl

theorem doubleQuotes_cons {ch : Byte} (h : ch ≠ quote) (content : Bytes) :
    doubleQuotes (ch :: content) = ch :: doubleQuotes content := by
  simp [doubleQuotes, h]

/-- How a doubled content followed by the closing quote can begin. -/
theorem doubleQuotes_append_eq_cons {v rest tail : Bytes} {ch : Byte}
    (h : doubleQuotes v ++ quote :: rest = ch :: tail) :
    (v = [] ∧ ch = quote ∧ tail = rest) ∨
      (∃ v', v = quote :: v' ∧ ch = quote ∧
        tail = quote :: (doubleQuotes v' ++ quote :: rest)) ∨
      (∃ v', v = ch :: v' ∧ ch ≠ quote ∧ tail = doubleQuotes v' ++ quote :: rest) := by
  cases v with
  | nil =>
      simp only [doubleQuotes_nil, List.nil_append, List.cons.injEq] at h
      exact .inl ⟨rfl, h.1.symm, h.2.symm⟩
  | cons b v' =>
      by_cases hb : b = quote
      · subst hb
        rw [doubleQuotes_quote] at h
        simp only [List.cons_append, List.cons.injEq] at h
        exact .inr (.inl ⟨v', rfl, h.1.symm, h.2.symm⟩)
      · rw [doubleQuotes_cons hb] at h
        simp only [List.cons_append, List.cons.injEq] at h
        obtain ⟨rfl, rfl⟩ := h
        exact .inr (.inr ⟨v', rfl, hb, rfl⟩)

/-- `readStringLoop` stops behind the first quote that is not doubled. -/
theorem readStringLoop_eq_some_iff {input buffer content rest : Bytes}
    {column column' : Nat} :
    readStringLoop input buffer column = some (content, rest, column') ↔
      ∃ v, content = buffer ++ v ∧ input = doubleQuotes v ++ quote :: rest ∧
        rest.head? ≠ some quote ∧ column' = column + (doubleQuotes v).length := by
  fun_induction readStringLoop input buffer column with
  | case1 => simp
  | case2 buffer column =>
      constructor
      · intro h
        obtain ⟨rfl, rfl, rfl⟩ : buffer = content ∧ [] = rest ∧ column = column' := by
          simpa using h
        exact ⟨[], by simp, rfl, by simp, rfl⟩
      · rintro ⟨v, rfl, hinput, hrest, rfl⟩
        rcases doubleQuotes_append_eq_cons hinput.symm with
          ⟨rfl, -, rfl⟩ | ⟨v', -, -, hnil⟩ | ⟨v', -, hne, -⟩
        · simp
        · simp at hnil
        · exact absurd rfl hne
  | case3 buffer column tail ih =>
      rw [ih]
      constructor
      · rintro ⟨v, rfl, rfl, hrest, rfl⟩
        refine ⟨quote :: v, by simp, rfl, hrest, ?_⟩
        simp only [doubleQuotes_quote, List.length_cons]
        omega
      · rintro ⟨v, rfl, hinput, hrest, rfl⟩
        rcases doubleQuotes_append_eq_cons hinput.symm with
          ⟨rfl, -, rfl⟩ | ⟨v', rfl, -, htail⟩ | ⟨v', -, hne, -⟩
        · simp at hrest
        · refine ⟨v', by simp, by simpa using htail, hrest, ?_⟩
          simp only [doubleQuotes_quote, List.length_cons]
          omega
        · exact absurd rfl hne
  | case4 buffer column next tail hnext =>
      constructor
      · intro h
        obtain ⟨rfl, rfl, rfl⟩ :
            buffer = content ∧ next :: tail = rest ∧ column = column' := by simpa using h
        exact ⟨[], by simp, rfl, by simpa using hnext, rfl⟩
      · rintro ⟨v, rfl, hinput, hrest, rfl⟩
        rcases doubleQuotes_append_eq_cons hinput.symm with
          ⟨rfl, -, rfl⟩ | ⟨v', -, -, htail⟩ | ⟨v', -, hne, -⟩
        · simp
        · exact absurd (List.cons.inj htail).1 hnext
        · exact absurd rfl hne
  | case5 ch tail buffer column hch ih =>
      rw [ih]
      constructor
      · rintro ⟨v, rfl, rfl, hrest, rfl⟩
        refine ⟨ch :: v, by simp, by rw [doubleQuotes_cons hch]; rfl, hrest, ?_⟩
        simp only [doubleQuotes_cons hch, List.length_cons]
        omega
      · rintro ⟨v, rfl, hinput, hrest, rfl⟩
        rcases doubleQuotes_append_eq_cons hinput.symm with
          ⟨-, hq, -⟩ | ⟨v', -, hq, -⟩ | ⟨v', rfl, -, htail⟩
        · exact absurd hq hch
        · exact absurd hq hch
        · refine ⟨v', by simp, htail, hrest, ?_⟩
          simp only [doubleQuotes_cons hch, List.length_cons]
          omega

/-! ## What one iteration does -/

/-- One successful iteration of the loop, branch by branch: what it consumed in
front of the remaining source, and the state it leaves. -/
inductive LexMove (s : LexState) : Bytes → LexState → Prop
  /-- a newline starts the next line -/
  | newline (rest : Bytes) :
      LexMove s (newline :: rest) { s with rest, line := s.line + 1, column := 1 }
  /-- any other white space -/
  | blank {ch : Byte} (rest : Bytes) (hspace : isspace ch = true) (hch : ch ≠ newline) :
      LexMove s (ch :: rest) { s with rest, column := s.column + 1 }
  /-- `--` up to the next newline or the end -/
  | lineComment {body rest : Bytes} (hbody : newline ∉ body)
      (hrest : rest = [] ∨ rest.head? = some newline) :
      LexMove s (minus :: minus :: body ++ rest)
        { s with rest, column := s.column + 2 + body.length }
  /-- `/*` up to the first `*/` behind it -/
  | blockComment {body : Bytes} (rest : Bytes) (hbody : ClosesFirst body) :
      LexMove s (slash :: star :: body ++ star :: slash :: rest)
        { s with
          rest
          line := (advance (s.line, s.column + 2) body).1
          column := (advance (s.line, s.column + 2) body).2 + 2 }
  /-- the longest word -/
  | word {ch : Byte} {body rest : Bytes} (hstart : isWordStart ch = true)
      (hbody : ∀ b ∈ body, isWordByte b = true)
      (hrest : ∀ b ∈ rest.head?, isWordByte b = false) :
      LexMove s (ch :: body ++ rest)
        { s with
          rest
          column := s.column + (ch :: body).length
          tokens := s.tokens ++
            [⟨keywordType (ch :: body), ch :: body, s.line, s.column⟩] }
  /-- the longest run of digits, with the sign before it -/
  | number {ch : Byte} {body rest : Bytes}
      (hstart : isdigit ch = true ∨ (ch = minus ∧ body ≠ []))
      (hbody : ∀ b ∈ body, isdigit b = true)
      (hrest : ∀ b ∈ rest.head?, isdigit b = false) :
      LexMove s (ch :: body ++ rest)
        { s with
          rest
          column := s.column + (ch :: body).length
          tokens := s.tokens ++ [⟨.number, ch :: body, s.line, s.column⟩] }
  /-- a quoted literal up to the first quote that is not doubled -/
  | string {content rest : Bytes} (hrest : rest.head? ≠ some quote) :
      LexMove s (quote :: doubleQuotes content ++ quote :: rest)
        { s with
          rest
          column := s.column + (doubleQuotes content).length + 1
          tokens := s.tokens ++ [⟨.string, content, s.line, s.column⟩] }
  /-- a character that is a token by itself -/
  | simple {ch : Byte} {type : TokenType} (rest : Bytes)
      (htype : simpleTokenType ch = some type) :
      LexMove s (ch :: rest)
        { s with
          rest
          column := s.column + 1
          tokens := s.tokens ++ [⟨type, [ch], s.line, s.column⟩] }

/-! ### The branches exclude each other -/

theorem isWordStart_excludes {ch : Byte} (h : isWordStart ch = true) :
    isspace ch = false ∧ ch ≠ minus ∧ ch ≠ slash ∧ isWordByte ch = true := by
  simp only [isWordStart, isWordByte, isalnum, isalpha, isdigit, isspace, minus, slash,
    underscore, space] at *
  grind

theorem isdigit_excludes {ch : Byte} (h : isdigit ch = true) :
    isspace ch = false ∧ ch ≠ minus ∧ ch ≠ slash ∧ isWordStart ch = false := by
  simp only [isWordStart, isalpha, isdigit, isspace, minus, slash, underscore, space] at *
  grind

theorem simpleTokenType_excludes {ch : Byte} {type : TokenType}
    (h : simpleTokenType ch = some type) :
    isspace ch = false ∧ ch ≠ minus ∧ ch ≠ slash ∧ isWordStart ch = false ∧
      isdigit ch = false ∧ ch ≠ quote := by
  unfold simpleTokenType at h
  split_ifs at h with h₁ h₂ h₃ h₄ h₅ h₆ h₇ <;> subst ch <;> decide

/-! ### The moves that scan ahead -/

/-- A line comment: the source splits at the end of the run without a newline. -/
theorem lexMove_lineComment (s : LexState) (input : Bytes) :
    LexMove s (minus :: minus :: input)
      { s with
        rest := input.dropWhile (· != newline)
        column := s.column + 2 + (input.takeWhile (· != newline)).length } := by
  have hmove : LexMove s (minus :: minus :: input.takeWhile (· != newline) ++
      input.dropWhile (· != newline))
      { s with
        rest := input.dropWhile (· != newline)
        column := s.column + 2 + (input.takeWhile (· != newline)).length } := by
    refine .lineComment (fun hmem => by simpa using List.mem_takeWhile_imp hmem) ?_
    cases hrest : input.dropWhile (· != newline) with
    | nil => exact .inl rfl
    | cons b t =>
        have := head?_dropWhile_eq_false (· != newline) input b (by simp [hrest])
        exact .inr (by simpa using this)
  rwa [List.cons_append, List.cons_append, List.takeWhile_append_dropWhile] at hmove

theorem lexMove_word {s : LexState} {ch : Byte} (tail : Bytes)
    (hstart : isWordStart ch = true) :
    LexMove s (ch :: tail)
      { s with
        rest := tail.dropWhile isWordByte
        column := s.column + (ch :: tail.takeWhile isWordByte).length
        tokens := s.tokens ++
          [⟨keywordType (ch :: tail.takeWhile isWordByte), ch :: tail.takeWhile isWordByte,
            s.line, s.column⟩] } := by
  have hbody : ∀ b ∈ tail.takeWhile isWordByte, isWordByte b = true :=
    fun b hb => List.mem_takeWhile_imp hb
  have hmove := LexMove.word (s := s) hstart hbody (head?_dropWhile_eq_false isWordByte tail)
  rwa [List.cons_append, List.takeWhile_append_dropWhile] at hmove

theorem lexMove_number {s : LexState} {ch : Byte} {tail : Bytes}
    (hstart : (isdigit ch || (ch == minus && tail.head?.any isdigit)) = true) :
    LexMove s (ch :: tail)
      { s with
        rest := tail.dropWhile isdigit
        column := s.column + (ch :: tail.takeWhile isdigit).length
        tokens := s.tokens ++
          [⟨.number, ch :: tail.takeWhile isdigit, s.line, s.column⟩] } := by
  have hfirst : isdigit ch = true ∨ (ch = minus ∧ tail.takeWhile isdigit ≠ []) := by
    rw [Bool.or_eq_true, Bool.and_eq_true, beq_iff_eq] at hstart
    refine hstart.imp id fun hminus => ⟨hminus.1, ?_⟩
    cases tail with
    | nil => simp at hminus
    | cons b t =>
        have hb : isdigit b = true := by simpa using hminus.2
        simp [hb]
  have hbody : ∀ b ∈ tail.takeWhile isdigit, isdigit b = true :=
    fun b hb => List.mem_takeWhile_imp hb
  have hmove := LexMove.number (s := s) hfirst hbody (head?_dropWhile_eq_false isdigit tail)
  rwa [List.cons_append, List.takeWhile_append_dropWhile] at hmove

/-- Every successful iteration is one of the moves. -/
theorem lexMove_of_tokenizeStep {s s' : LexState} {ch : Byte} {tail : Bytes}
    (h : tokenizeStep s ch tail = .ok s') : LexMove s (ch :: tail) s' := by
  unfold tokenizeStep at h
  split at h
  · rename_i hspace
    split at h
    · rename_i hch
      cases h
      subst hch
      exact .newline tail
    · rename_i hch
      cases h
      exact .blank tail hspace hch
  · split at h
    · rename_i hcomment
      cases h
      obtain ⟨rfl, hhead⟩ := hcomment
      obtain ⟨input, rfl⟩ : ∃ input, tail = minus :: input := by
        cases tail with
        | nil => simp at hhead
        | cons b t => exact ⟨t, by simpa using hhead⟩
      exact lexMove_lineComment s input
    · split at h
      · rename_i hcomment
        obtain ⟨rfl, hhead⟩ := hcomment
        obtain ⟨input, rfl⟩ : ∃ input, tail = star :: input := by
          cases tail with
          | nil => simp at hhead
          | cons b t => exact ⟨t, by simpa using hhead⟩
        split at h
        · simp at h
        · rename_i rest line column hskip
          cases h
          obtain ⟨body, hinput, hbody, hpos⟩ := skipBlockComment_eq_some_iff.mp hskip
          obtain ⟨rfl, rfl⟩ := Prod.mk.inj hpos
          rw [List.tail_cons] at hinput
          rw [hinput]
          exact .blockComment rest hbody
      · split at h
        · rename_i hstart
          cases h
          have hbyte := (isWordStart_excludes hstart).2.2.2
          simpa [hbyte] using lexMove_word tail hstart
        · split at h
          · rename_i hstart
            cases h
            exact lexMove_number hstart
          · split at h
            · rename_i hquote
              subst hquote
              unfold readStringToken at h
              split at h
              · simp at h
              · rename_i content rest column hread
                cases h
                obtain ⟨v, hcontent, hinput, hrest, hcolumn⟩ :=
                  readStringLoop_eq_some_iff.mp hread
                rw [List.nil_append] at hcontent
                subst hcontent hinput hcolumn
                exact .string hrest
            · split at h
              · simp at h
              · rename_i type htype
                cases h
                exact .simple tail htype

/-- Every move is made by the iteration that looks at its first byte. -/
theorem tokenizeStep_of_lexMove {s s' : LexState} {ch : Byte} {tail : Bytes}
    (h : LexMove s (ch :: tail) s') : tokenizeStep s ch tail = .ok s' := by
  generalize hinput : ch :: tail = input at h
  cases h with
  | newline rest =>
      obtain ⟨rfl, rfl⟩ := List.cons.inj hinput
      rfl
  | @blank c rest hspace hc =>
      obtain ⟨rfl, rfl⟩ := List.cons.inj hinput
      simp [tokenizeStep, hspace, hc]
  | @lineComment body rest hbody hrest =>
      obtain ⟨rfl, rfl⟩ := List.cons.inj hinput
      have hrun : ∀ b ∈ body, (b != newline) = true := by
        rintro b hb
        simp only [bne_iff_ne, ne_eq]
        rintro rfl
        exact hbody hb
      have hstop : ∀ b ∈ rest.head?, (b != newline) = false := by
        rintro b hb
        rcases hrest with rfl | hrest
        · simp at hb
        · rw [hrest] at hb
          obtain rfl : newline = b := Option.some.inj hb
          simp
      have hspace : isspace minus = false := by decide
      simp [tokenizeStep, hspace, takeWhile_run hrun hstop, dropWhile_run hrun hstop]
  | @blockComment body rest hbody =>
      obtain ⟨rfl, rfl⟩ := List.cons.inj hinput
      have hspace : isspace slash = false := by decide
      have hminus : slash ≠ minus := by decide
      have hskip : skipBlockComment (body ++ star :: slash :: rest) s.line (s.column + 2) =
          some (rest, (advance (s.line, s.column + 2) body).1,
            (advance (s.line, s.column + 2) body).2 + 2) :=
        skipBlockComment_eq_some_iff.mpr ⟨body, rfl, hbody, rfl⟩
      simp [tokenizeStep, hspace, hminus, hskip]
  | @word c body rest hstart hbody hrest =>
      obtain ⟨rfl, rfl⟩ := List.cons.inj hinput
      obtain ⟨hspace, hminus, hslash, hbyte⟩ := isWordStart_excludes hstart
      simp [tokenizeStep, hspace, hminus, hslash, hstart, hbyte,
        takeWhile_run hbody hrest, dropWhile_run hbody hrest]
  | @number c body rest hstart hbody hrest =>
      obtain ⟨rfl, rfl⟩ := List.cons.inj hinput
      rcases hstart with hdigit | ⟨rfl, hne⟩
      · obtain ⟨hspace, hminus, hslash, hword⟩ := isdigit_excludes hdigit
        simp [tokenizeStep, hspace, hminus, hslash, hword, hdigit,
          takeWhile_run hbody hrest, dropWhile_run hbody hrest]
      · have hspace : isspace minus = false := by decide
        have hword : isWordStart minus = false := by decide
        have hslash : minus ≠ slash := by decide
        obtain ⟨b, body', rfl⟩ := List.exists_cons_of_ne_nil hne
        have hb : isdigit b = true := hbody b List.mem_cons_self
        have hbminus : b ≠ minus := (isdigit_excludes hb).2.1
        have htake := takeWhile_run hbody hrest
        have hdrop := dropWhile_run hbody hrest
        simp only [List.cons_append] at htake hdrop
        simp [tokenizeStep, hspace, hword, hslash, hb, hbminus, htake, hdrop]
  | @string content rest hrest =>
      obtain ⟨rfl, rfl⟩ := List.cons.inj hinput
      have hspace : isspace quote = false := by decide
      have hword : isWordStart quote = false := by decide
      have hdigit : isdigit quote = false := by decide
      have hminus : quote ≠ minus := by decide
      have hslash : quote ≠ slash := by decide
      have hread : readStringLoop (doubleQuotes content ++ quote :: rest) [] s.column =
          some (content, rest, s.column + (doubleQuotes content).length) :=
        readStringLoop_eq_some_iff.mpr ⟨content, by simp, rfl, hrest, rfl⟩
      simp [tokenizeStep, readStringToken, hspace, hword, hdigit, hminus, hslash, hread]
  | @simple c type rest htype =>
      obtain ⟨rfl, rfl⟩ := List.cons.inj hinput
      obtain ⟨hspace, hminus, hslash, hword, hdigit, hquote⟩ :=
        simpleTokenType_excludes htype
      simp [tokenizeStep, hspace, hminus, hslash, hword, hdigit, hquote, htype]

/-- Every iteration consumes at least the byte it looks at. -/
theorem LexMove.length_lt {s s' : LexState} {input : Bytes} (h : LexMove s input s') :
    s'.rest.length < input.length := by
  cases h <;> simp <;> omega

/-! ## The loop -/

/-- The `while` loop of `tokenize_sql`. -/
def tokenizeLoop (s : LexState) : Except SqlError LexState :=
  match hrest : s.rest with
  | [] => .ok s
  | ch :: tail =>
      match hstep : tokenizeStep s ch tail with
      | .error e => .error e
      | .ok s' =>
          have hlt : s'.rest.length < s.rest.length := by
            rw [hrest]
            exact (lexMove_of_tokenizeStep hstep).length_lt
          tokenizeLoop s'
termination_by s.rest.length

/-- `tokenize_sql`. -/
def tokenizeSql (source : Bytes) : Except SqlError (List Token) :=
  match tokenizeLoop (.start source) with
  | .error e => .error e
  | .ok s => .ok (s.tokens ++ [⟨.end_, [], s.line, s.column⟩])

theorem tokenizeLoop_nil {s : LexState} (h : s.rest = []) : tokenizeLoop s = .ok s := by
  rw [tokenizeLoop]
  split
  · rfl
  · rename_i heq
    rw [h] at heq
    simp at heq

theorem tokenizeLoop_of_ok {s s' : LexState} {ch : Byte} {tail : Bytes}
    (hrest : s.rest = ch :: tail) (hstep : tokenizeStep s ch tail = .ok s') :
    tokenizeLoop s = tokenizeLoop s' := by
  rw [tokenizeLoop]
  split
  · simp_all
  · rename_i heq
    obtain ⟨rfl, rfl⟩ := List.cons.inj (heq.symm.trans hrest)
    split <;> simp_all

theorem tokenizeLoop_of_error {s : LexState} {ch : Byte} {tail : Bytes} {e : SqlError}
    (hrest : s.rest = ch :: tail) (hstep : tokenizeStep s ch tail = .error e) :
    tokenizeLoop s = .error e := by
  rw [tokenizeLoop]
  split
  · simp_all
  · rename_i heq
    obtain ⟨rfl, rfl⟩ := List.cons.inj (heq.symm.trans hrest)
    split <;> simp_all

/-- A move of the loop is followed by the loop on what is left. -/
theorem tokenizeLoop_of_lexMove {s s' : LexState} (hne : s.rest ≠ [])
    (h : LexMove s s.rest s') : tokenizeLoop s = tokenizeLoop s' := by
  obtain ⟨ch, tail, hrest⟩ := List.exists_cons_of_ne_nil hne
  rw [hrest] at h
  exact tokenizeLoop_of_ok hrest (tokenizeStep_of_lexMove h)

/-- Induction over the runs of the loop that reach the end of the source. -/
theorem tokenizeLoop_induction {motive : LexState → LexState → Prop}
    (done : ∀ s, s.rest = [] → motive s s)
    (move : ∀ s s' t, s.rest ≠ [] → LexMove s s.rest s' → tokenizeLoop s' = .ok t →
      motive s' t → motive s t)
    {s t : LexState} (h : tokenizeLoop s = .ok t) : motive s t := by
  fun_induction tokenizeLoop s with
  | case1 s hrest =>
      obtain rfl := Except.ok.inj h
      exact done s hrest
  | case2 => simp at h
  | case3 s ch tail hrest s' hstep hlt ih =>
      have hmove : LexMove s s.rest s' := by
        rw [hrest]
        exact lexMove_of_tokenizeStep hstep
      exact move s s' t (by simp [hrest]) hmove h (ih h)

end MiniSql
