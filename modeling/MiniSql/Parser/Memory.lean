import MiniSql.Memory
import MiniSql.Parser.Source

set_option autoImplicit false

/-!
# The parser and its memory

The tokenizer and the parser with every request for memory they make.  A refused
request ends the call with a message, all but one: the copy of the column of a WHERE
clause is stored as it is, so the clause is built without its column.
-/

namespace MiniSql

open Foundation

/-! ## The tokenizer -/

/-- `token_list_append`; the second value is `tokens->capacity`. -/
def tokenListAppend (s : LexState) (capacity : Nat) (type : TokenType) (lexeme : Bytes) :
    Allocating (List Token × Nat) := do
  let capacity ← Alloc.reserve .tokenItems (.outOfMemory "tokenizing")
    (s.tokens.length == capacity) (doubled 16 capacity) capacity
  Alloc.demand .lexeme (.outOfMemory "tokenizing")
  pure (s.tokens ++ [⟨type, lexeme, s.line, s.column⟩], capacity)

/-- The test of the buffer of `read_string_token` before a byte is stored. -/
def reserveByte (buffer : Bytes) (capacity : Nat) : Allocating Nat :=
  Alloc.reserve .literal (.outOfMemory "tokenizing string") (buffer.length + 1 ≥ capacity)
    (doubled 16 capacity) capacity

/-- The loop of `read_string_token` with the capacity of its buffer. -/
def readStringLoopAlloc : Bytes → Bytes → Nat → Nat →
    Allocating (Option (Bytes × Bytes × Nat) × Nat)
  | [], _, capacity, _ => pure (none, capacity)
  | ch :: tail, buffer, capacity, column =>
      if ch = quote then
        match tail with
        | [] => pure (some (buffer, [], column), capacity)
        | next :: tail' =>
            if next = quote then do
              let capacity ← reserveByte buffer capacity
              readStringLoopAlloc tail' (buffer ++ [quote]) capacity (column + 2)
            else pure (some (buffer, next :: tail', column), capacity)
      else do
        let capacity ← reserveByte buffer capacity
        readStringLoopAlloc tail (buffer ++ [ch]) capacity (column + 1)

/-- `read_string_token`.  The buffer of an empty literal is still NULL behind the loop. -/
def readStringTokenAlloc (s : LexState) (capacity : Nat) (tail : Bytes) :
    Allocating (LexState × Nat) := do
  let (literal, bufferCapacity) ← readStringLoopAlloc tail [] 0 s.column
  match literal with
  | none => Alloc.fail (.sql (.atPosition "unterminated string literal" s.line s.column))
  | some (buffer, rest, column) => do
      let _ ← Alloc.reserve .literal (.outOfMemory "tokenizing string") (bufferCapacity == 0) 1
        bufferCapacity
      let capacity ← Alloc.reserve .tokenItems (.outOfMemory "tokenizing")
        (s.tokens.length == capacity) (doubled 16 capacity) capacity
      pure ({ s with
        rest := rest
        column := column + 1
        tokens := s.tokens ++ [⟨.string, buffer, s.line, s.column⟩] }, capacity)

/-- One iteration of the `while` loop of `tokenize_sql`. -/
def tokenizeStepAlloc (s : LexState) (capacity : Nat) (ch : Byte) (tail : Bytes) :
    Allocating (LexState × Nat) :=
  if isspace ch then
    if ch = newline then pure ({ s with rest := tail, line := s.line + 1, column := 1 }, capacity)
    else pure ({ s with rest := tail, column := s.column + 1 }, capacity)
  else if ch = minus ∧ tail.head? = some minus then
    let body := tail.tail.takeWhile (· != newline)
    pure ({ s with
      rest := tail.tail.dropWhile (· != newline)
      column := s.column + 2 + body.length }, capacity)
  else if ch = slash ∧ tail.head? = some star then
    match skipBlockComment tail.tail s.line (s.column + 2) with
    | none => Alloc.fail (.sql .unterminatedBlockComment)
    | some (rest, line, column) => pure ({ s with rest, line, column }, capacity)
  else if isWordStart ch then do
    let lexeme := (ch :: tail).takeWhile isWordByte
    let (tokens, capacity) ← tokenListAppend s capacity (keywordType lexeme) lexeme
    pure ({ s with
      rest := (ch :: tail).dropWhile isWordByte
      column := s.column + lexeme.length
      tokens := tokens }, capacity)
  else if isdigit ch || (ch == minus && (tail.head?.any isdigit)) then do
    let lexeme := ch :: tail.takeWhile isdigit
    let (tokens, capacity) ← tokenListAppend s capacity .number lexeme
    pure ({ s with
      rest := tail.dropWhile isdigit
      column := s.column + lexeme.length
      tokens := tokens }, capacity)
  else if ch = quote then readStringTokenAlloc s capacity tail
  else
    match simpleTokenType ch with
    | none => Alloc.fail (.sql (.unexpectedCharacter ch s.line s.column))
    | some type => do
        let (tokens, capacity) ← tokenListAppend s capacity type [ch]
        pure ({ s with rest := tail, column := s.column + 1, tokens := tokens }, capacity)

/-- The `while` loop of `tokenize_sql`.  Every iteration reads a byte at least, so as
many iterations as there are bytes read them all. -/
def tokenizeLoopAlloc : Nat → LexState → Nat → Allocating (LexState × Nat)
  | 0, s, capacity => pure (s, capacity)
  | iterations + 1, s, capacity =>
      match s.rest with
      | [] => pure (s, capacity)
      | ch :: tail => do
          let (s, capacity) ← tokenizeStepAlloc s capacity ch tail
          tokenizeLoopAlloc iterations s capacity

/-- `tokenize_sql`. -/
def tokenizeSqlAlloc (source : Bytes) : Allocating (List Token) := do
  let (s, capacity) ← tokenizeLoopAlloc source.length (.start source) 0
  let (tokens, _) ← tokenListAppend s capacity .end_ []
  pure tokens

/-! ## The parser -/

/-- The operands of an enabled WHERE clause as they are stored; the column is what
`sql_strdup` answers. -/
structure BuiltWhere where
  column : Option Bytes
  value : Bytes
  deriving DecidableEq, Repr

/-- `SelectStatement` as it is built. -/
structure BuiltSelect where
  source : QualifiedName
  selectAll : Bool
  columns : List Bytes
  where_ : Option BuiltWhere
  deriving DecidableEq, Repr

/-- `Statement` as it is built. -/
inductive BuiltStatement where
  | insert (statement : InsertStatement)
  | select (statement : BuiltSelect)
  deriving DecidableEq, Repr

/-- A parser that may be refused memory. -/
abbrev AllocParse (α : Type) : Type := StateT (List Token) (Alloc Request Failure) α

/-- A part that asks for no memory. -/
def plain {α : Type} (p : Parse α) : AllocParse α := fun tokens =>
  match p tokens with
  | .error e => .fail (.sql e)
  | .ok r => .done r

/-- Requests that read no token. -/
def requests {α : Type} (c : Allocating α) : AllocParse α := fun tokens => do
  let x ← c
  pure (x, tokens)

/-- `parse_identifier_list` and `parse_value_list`: the loop with the list built so far
and its capacity. -/
def parseListAlloc (item : Token → Option Bytes) (message task : String) :
    List Token → List Bytes → Nat → Allocating (List Bytes × List Token)
  | [], _, _ => Alloc.fail (.sql (pastEnd.fault message))
  | t :: rest, list, capacity =>
      match item t with
      | none => Alloc.fail (.sql (t.fault message))
      | some lexeme => do
          let (list, capacity) ← stringListAppend (.outOfMemory task) list capacity lexeme
          match rest with
          | [] => pure (list, [])
          | s :: rest' =>
              if s.type == .comma then parseListAlloc item message task rest' list capacity
              else pure (list, s :: rest')

/-- `parse_identifier_list`. -/
def parseIdentifierListAlloc : AllocParse (List Bytes) := fun tokens =>
  parseListAlloc identLexeme "expected identifier" "parsing identifiers" tokens [] 0

/-- `parse_value_list`. -/
def parseValueListAlloc : AllocParse (List Bytes) := fun tokens =>
  parseListAlloc valueLexeme "expected literal value" "parsing values" tokens [] 0

/-- `parse_qualified_name`.  Both copies are made before either is looked at. -/
def parseQualifiedNameAlloc : AllocParse QualifiedName := do
  let first ← plain (takeToken identLexeme "expected table name")
  if ← plain (matchToken .dot) then
    let second ← plain (takeToken identLexeme "expected identifier after '.'")
    requests (Alloc.demandBoth .schemaName .tableName (.outOfMemory "parsing qualified name"))
    pure ⟨some first, some second⟩
  else
    requests (Alloc.demand .tableName (.outOfMemory "parsing qualified name"))
    pure ⟨none, some first⟩

/-- `parse_insert`. -/
def parseInsertAlloc : AllocParse InsertStatement := do
  plain (consume .into "expected INTO after INSERT")
  let target ← parseQualifiedNameAlloc
  plain (consume .lparen "expected '(' after table name")
  let columns ← parseIdentifierListAlloc
  plain (consume .rparen "expected ')' after column list")
  plain (consume .values "expected VALUES keyword")
  plain (consume .lparen "expected '(' before VALUES list")
  let values ← parseValueListAlloc
  plain (consume .rparen "expected ')' after VALUES list")
  pure ⟨target, columns, values⟩

/-- The `WHERE` part of `parse_select`.  The copy of the column is not looked at. -/
def parseWhereAlloc : AllocParse (Option BuiltWhere) := do
  if ← plain (matchToken .where_) then
    let column ← plain (takeToken identLexeme "expected column name after WHERE")
    let copied ← requests (Alloc.ask .whereColumn)
    plain (consume .equal "expected '=' inside WHERE clause")
    let value ← plain (takeToken valueLexeme "expected literal after '='")
    requests (Alloc.demand .whereValue (.outOfMemory "parsing WHERE clause"))
    pure (some ⟨if copied then some column else none, value⟩)
  else
    pure none

/-- The select list of `parse_select`. -/
def parseSelectListAlloc : AllocParse (Bool × List Bytes) := do
  if ← plain (matchToken .star) then
    pure (true, [])
  else
    let columns ← parseIdentifierListAlloc
    pure (false, columns)

/-- `parse_select`. -/
def parseSelectAlloc : AllocParse BuiltSelect := do
  let list ← parseSelectListAlloc
  plain (consume .from_ "expected FROM after select list")
  let source ← parseQualifiedNameAlloc
  let where_ ← parseWhereAlloc
  pure ⟨source, list.1, list.2, where_⟩

/-- The choice between the two statement parsers in `parse_sql_script`. -/
def parseStatementAlloc : AllocParse BuiltStatement := do
  if ← plain (matchToken .insert) then
    let statement ← parseInsertAlloc
    pure (.insert statement)
  else if ← plain (matchToken .select) then
    let statement ← parseSelectAlloc
    pure (.select statement)
  else
    plain fun tokens => .error ((peek tokens).fault "unsupported statement")

/-- `script_append`; the second value is `script->capacity`. -/
def scriptAppend (script : List BuiltStatement) (capacity : Nat) (statement : BuiltStatement) :
    Allocating (List BuiltStatement × Nat) := do
  let capacity ← Alloc.reserve .scriptItems (.outOfMemory "building AST")
    (script.length == capacity) (doubled 4 capacity) capacity
  pure (script ++ [statement], capacity)

/-- The loop of `parse_sql_script`.  Every iteration reads a token at least. -/
def parseScriptLoopAlloc : Nat → List Token → List BuiltStatement → Nat →
    Allocating (List BuiltStatement)
  | 0, _, script, _ => pure script
  | iterations + 1, tokens, script, capacity =>
      if (peek tokens).type = .end_ then pure script
      else if (peek tokens).type = .semicolon then
        parseScriptLoopAlloc iterations tokens.tail script capacity
      else do
        let (statement, rest) ← parseStatementAlloc tokens
        let (script, capacity) ← scriptAppend script capacity statement
        parseScriptLoopAlloc iterations (skipToken .semicolon rest) script capacity

/-- `parse_sql_script`, up to its answer. -/
def parseSqlScriptAlloc (source : Bytes) : Allocating (List BuiltStatement) := do
  let tokens ← tokenizeSqlAlloc source
  parseScriptLoopAlloc tokens.length tokens [] 0

/-- What `parse_sql_script` answers and what it leaves in `*script`. -/
structure BuildOutcome where
  result : Except Failure Unit
  script : List BuiltStatement

/-- `parse_sql_script` when the pattern answers its requests: every exit with false frees
the script. -/
def parseSqlScriptUnder (pattern : Nat → Bool) (source : Bytes) : BuildOutcome :=
  match (parseSqlScriptAlloc source).run pattern with
  | .error e => ⟨.error e, []⟩
  | .ok script => ⟨.ok (), script⟩

/-! ## With every request granted: the tokenizer -/

section Granted

open Alloc

theorem tokenListAppend_granted (s : LexState) (capacity : Nat) (type : TokenType)
    (lexeme : Bytes) :
    ∃ capacity', (tokenListAppend s capacity type lexeme).granted =
      .ok (s.tokens ++ [⟨type, lexeme, s.line, s.column⟩], capacity') := by
  unfold tokenListAppend
  rw [granted_after _ (granted_reserve _ _ _ _ _)]
  exact ⟨_, rfl⟩

theorem readStringLoopAlloc_granted (input buffer : Bytes) (capacity column : Nat) :
    ∃ capacity', (readStringLoopAlloc input buffer capacity column).granted =
      .ok (readStringLoop input buffer column, capacity') := by
  fun_induction readStringLoopAlloc input buffer capacity column with
  | case1 => exact ⟨_, rfl⟩
  | case2 buffer capacity column => exact ⟨capacity, by simp [readStringLoop, granted]⟩
  | case3 buffer capacity column tail ih =>
      have hloop : readStringLoop (quote :: quote :: tail) buffer column =
          readStringLoop tail (buffer ++ [quote]) (column + 2) := by simp [readStringLoop]
      rw [reserveByte, granted_after _ (granted_reserve _ _ _ _ _), hloop]
      exact ih _
  | case4 buffer capacity column next tail hnext =>
      exact ⟨capacity, by simp [readStringLoop, hnext, granted]⟩
  | case5 ch tail buffer capacity column hch ih =>
      have hloop : readStringLoop (ch :: tail) buffer column =
          readStringLoop tail (buffer ++ [ch]) (column + 1) := by
        rw [readStringLoop.eq_def]
        simp only [if_neg hch]
      rw [reserveByte, granted_after _ (granted_reserve _ _ _ _ _), hloop]
      exact ih _

theorem readStringTokenAlloc_grants (s : LexState) (capacity : Nat) (tail : Bytes) :
    Grants .sql (fun y x => y.1 = x) (readStringTokenAlloc s capacity tail)
      (readStringToken s tail) := by
  unfold readStringTokenAlloc readStringToken
  obtain ⟨bufferCapacity, hloop⟩ := readStringLoopAlloc_granted tail [] 0 s.column
  refine Grants.after hloop ?_
  cases readStringLoop tail [] s.column with
  | none => exact rfl
  | some literal =>
      refine Grants.after (granted_reserve _ _ _ _ _) ?_
      refine Grants.after (granted_reserve _ _ _ _ _) ?_
      exact ⟨_, rfl, rfl⟩

theorem tokenizeStepAlloc_grants (s : LexState) (capacity : Nat) (ch : Byte) (tail : Bytes) :
    Grants .sql (fun y x => y.1 = x) (tokenizeStepAlloc s capacity ch tail)
      (tokenizeStep s ch tail) := by
  have happend : ∀ (type : TokenType) (lexeme rest : Bytes) (column : Nat),
      Grants Failure.sql (fun y x => y.1 = x)
        (tokenListAppend s capacity type lexeme >>= fun r => pure ({ s with
          rest := rest, column := column, tokens := r.1 }, r.2))
        (.ok { s with
          rest := rest
          column := column
          tokens := s.tokens ++ [⟨type, lexeme, s.line, s.column⟩] }) := by
    intro type lexeme rest column
    obtain ⟨capacity', hgranted⟩ := tokenListAppend_granted s capacity type lexeme
    exact Grants.after hgranted ⟨_, rfl, rfl⟩
  unfold tokenizeStepAlloc tokenizeStep
  split_ifs
  · exact ⟨_, rfl, rfl⟩
  · exact ⟨_, rfl, rfl⟩
  · exact ⟨_, rfl, rfl⟩
  · cases skipBlockComment tail.tail s.line (s.column + 2) with
    | none => exact rfl
    | some r => exact ⟨_, rfl, rfl⟩
  · exact happend _ _ _ _
  · exact happend _ _ _ _
  · exact readStringTokenAlloc_grants s capacity tail
  · cases simpleTokenType ch with
    | none => exact rfl
    | some type => exact happend _ _ _ _

/-- As many iterations as there are bytes are the whole loop. -/
theorem tokenizeLoopAlloc_grants (iterations : Nat) (s : LexState) (capacity : Nat)
    (h : s.rest.length ≤ iterations) :
    Grants .sql (fun y x => y.1 = x) (tokenizeLoopAlloc iterations s capacity)
      (tokenizeLoop s) := by
  induction iterations generalizing s capacity with
  | zero =>
      have hrest : s.rest = [] := List.eq_nil_of_length_eq_zero (Nat.le_zero.mp h)
      rw [tokenizeLoop_nil hrest]
      exact ⟨_, rfl, rfl⟩
  | succ iterations ih =>
      unfold tokenizeLoopAlloc
      cases hrest : s.rest with
      | nil =>
          rw [tokenizeLoop_nil hrest]
          exact ⟨_, rfl, rfl⟩
      | cons ch tail =>
          refine (tokenizeStepAlloc_grants s capacity ch tail).split
            (fun e hs => tokenizeLoop_of_error hrest hs) ?_
          rintro ⟨s₁, capacity'⟩ _ hs rfl
          rw [tokenizeLoop_of_ok hrest hs]
          refine ih _ _ ?_
          have hlt := (lexMove_of_tokenizeStep hs).length_lt
          rw [hrest] at h
          simp only [List.length_cons] at h hlt
          omega

theorem tokenizeSqlAlloc_grants (source : Bytes) :
    Grants .sql (fun y x => y = x) (tokenizeSqlAlloc source) (tokenizeSql source) := by
  unfold tokenizeSqlAlloc tokenizeSql
  refine (tokenizeLoopAlloc_grants source.length (.start source) 0 (Nat.le_refl _)).split
    (fun e hs => by rw [hs]) ?_
  rintro ⟨s, capacity⟩ _ hs rfl
  rw [hs]
  obtain ⟨capacity', happend⟩ := tokenListAppend_granted s capacity .end_ []
  exact Grants.after happend ⟨_, rfl, rfl⟩

end Granted

/-! ## With every request granted: the parser -/

/-- With everything granted `p` parses as `q` does, its values related by `ρ`. -/
def ParseGrants {α β : Type} (ρ : α → β → Prop) (p : AllocParse α) (q : Parse β) : Prop :=
  ∀ tokens, Alloc.Grants .sql (fun y x => ρ y.1 x.1 ∧ y.2 = x.2) (p tokens) (q tokens)

section Rules

variable {α β γ δ : Type} {ρ : α → β → Prop} {ρ' : γ → δ → Prop}

theorem ParseGrants.bind {p : AllocParse α} {q : Parse β} {k : α → AllocParse γ}
    {k' : β → Parse δ} (hp : ParseGrants ρ p q)
    (hk : ∀ y x, ρ y x → ParseGrants ρ' (k y) (k' x)) : ParseGrants ρ' (p >>= k) (q >>= k') := by
  intro tokens
  refine (hp tokens).bind ?_
  rintro ⟨y, rest⟩ ⟨x, rest'⟩ ⟨hρ, rfl⟩
  exact hk y x hρ rest

theorem ParseGrants.pure {y : α} {x : β} (h : ρ y x) :
    ParseGrants ρ (Pure.pure y) (Pure.pure x) := fun _ => ⟨_, rfl, h, rfl⟩

theorem plain_grants (p : Parse α) : ParseGrants Eq (plain p) p := by
  intro tokens
  unfold plain
  cases p tokens with
  | error e => exact rfl
  | ok r => exact ⟨r, rfl, rfl, rfl⟩

/-- A part without requests in front. -/
theorem ParseGrants.plain {p : Parse α} {k : α → AllocParse γ} {k' : α → Parse δ}
    (hk : ∀ x, ParseGrants ρ' (k x) (k' x)) :
    ParseGrants ρ' (MiniSql.plain p >>= k) (p >>= k') := by
  refine (plain_grants p).bind ?_
  rintro y _ rfl
  exact hk y

theorem ParseGrants.requests {c : Allocating α} {x : α} {k : α → AllocParse γ} {q : Parse δ}
    (hc : c.granted = .ok x) (hk : ParseGrants ρ' (k x) q) :
    ParseGrants ρ' (MiniSql.requests c >>= k) q := by
  intro tokens
  have hrequests : (MiniSql.requests c tokens).granted = .ok (x, tokens) := by
    unfold MiniSql.requests
    rw [Alloc.granted_bind, hc]
    rfl
  exact Alloc.Grants.after hrequests (hk tokens)

theorem ParseGrants.choice {p p' : AllocParse α} {q q' : Parse β} (b : Bool)
    (hp : ParseGrants ρ p q) (hp' : ParseGrants ρ p' q') :
    ParseGrants ρ (if b then p else p') (if b then q else q') := by
  cases b with
  | false => exact hp'
  | true => exact hp

end Rules

/-- The loop answers the list built so far and what the loop without memory reads. -/
theorem parseListAlloc_grants (item : Token → Option Bytes) (message task : String)
    (tokens : List Token) (list : List Bytes) (capacity : Nat) :
    Alloc.Grants .sql (fun y x => y.1 = list ++ x.1 ∧ y.2 = x.2)
      (parseListAlloc item message task tokens list capacity)
      (sepBy1 item (·.type == .comma) (fun t => (t.getD pastEnd).fault message) tokens) := by
  have happend := stringListAppend_granted (.outOfMemory task)
  induction tokens using sepBy1.induct item (fun t : Token => t.type == .comma)
    (fun t => (t.getD pastEnd).fault message) generalizing list capacity with
  | case1 => exact rfl
  | case2 t rest hitem =>
      simp only [parseListAlloc, sepBy1, hitem]
      exact rfl
  | case3 t x hitem =>
      simp only [parseListAlloc, sepBy1, hitem]
      obtain ⟨capacity', hgranted⟩ := happend list capacity x
      exact Alloc.Grants.after hgranted ⟨_, rfl, rfl, rfl⟩
  | case4 t x hitem s rest' hsep e he ih =>
      simp only [parseListAlloc, sepBy1, hitem, hsep, he, if_true]
      obtain ⟨capacity', hgranted⟩ := happend list capacity x
      have hrest := ih (list ++ [x]) capacity'
      rw [he] at hrest
      exact Alloc.Grants.after hgranted hrest
  | case5 t x hitem s rest' hsep xs rest'' hxs ih =>
      simp only [parseListAlloc, sepBy1, hitem, hsep, hxs, if_true]
      obtain ⟨capacity', hgranted⟩ := happend list capacity x
      have hrest := ih (list ++ [x]) capacity'
      rw [hxs] at hrest
      obtain ⟨y, hy, hlist, htokens⟩ := hrest
      exact Alloc.Grants.after hgranted ⟨y, hy, by simpa using hlist, htokens⟩
  | case6 t x hitem s rest' hsep =>
      simp only [parseListAlloc, sepBy1, hitem, hsep]
      obtain ⟨capacity', hgranted⟩ := happend list capacity x
      exact Alloc.Grants.after hgranted ⟨_, rfl, rfl, rfl⟩

theorem parseIdentifierListAlloc_grants :
    ParseGrants Eq parseIdentifierListAlloc parseIdentifierList :=
  fun tokens => parseListAlloc_grants identLexeme _ _ tokens [] 0

theorem parseValueListAlloc_grants : ParseGrants Eq parseValueListAlloc parseValueList :=
  fun tokens => parseListAlloc_grants valueLexeme _ _ tokens [] 0

theorem parseQualifiedNameAlloc_grants :
    ParseGrants Eq parseQualifiedNameAlloc parseQualifiedName := by
  refine .plain fun first => .plain fun dot => .choice dot ?_ ?_
  · exact .plain fun second => .requests rfl (.pure rfl)
  · exact .requests rfl (.pure rfl)

theorem parseInsertAlloc_grants : ParseGrants Eq parseInsertAlloc parseInsert := by
  refine .plain fun _ => parseQualifiedNameAlloc_grants.bind ?_
  rintro target _ rfl
  refine .plain fun _ => parseIdentifierListAlloc_grants.bind ?_
  rintro columns _ rfl
  refine .plain fun _ => .plain fun _ => .plain fun _ => parseValueListAlloc_grants.bind ?_
  rintro values _ rfl
  exact .plain fun _ => .pure rfl

/-- The clause with its column in place. -/
def WhereClause.built (where_ : WhereClause) : BuiltWhere := ⟨some where_.column, where_.value⟩

def SelectStatement.built (statement : SelectStatement) : BuiltSelect :=
  ⟨statement.source, statement.selectAll, statement.columns,
    statement.where_.map WhereClause.built⟩

/-- The statement as it is built when nothing is refused. -/
def Statement.built : Statement → BuiltStatement
  | .insert statement => .insert statement
  | .select statement => .select statement.built

theorem parseWhereAlloc_grants :
    ParseGrants (fun y x => y = x.map WhereClause.built) parseWhereAlloc parseWhere := by
  refine .plain fun present => .choice present ?_ (.pure rfl)
  refine .plain fun column => .requests rfl ?_
  exact .plain fun _ => .plain fun value => .requests rfl (.pure rfl)

theorem parseSelectListAlloc_grants : ParseGrants Eq parseSelectListAlloc parseSelectList := by
  refine .plain fun all => .choice all (.pure rfl) ?_
  refine parseIdentifierListAlloc_grants.bind ?_
  rintro columns _ rfl
  exact .pure rfl

theorem parseSelectAlloc_grants :
    ParseGrants (fun y x => y = x.built) parseSelectAlloc parseSelect := by
  refine parseSelectListAlloc_grants.bind ?_
  rintro list _ rfl
  refine .plain fun _ => parseQualifiedNameAlloc_grants.bind ?_
  rintro source _ rfl
  refine parseWhereAlloc_grants.bind ?_
  rintro _ where_ rfl
  exact .pure rfl

theorem parseStatementAlloc_grants :
    ParseGrants (fun y x => y = x.built) parseStatementAlloc parseStatement := by
  refine .plain fun insert => .choice insert ?_ (.plain fun select => .choice select ?_ ?_)
  · refine parseInsertAlloc_grants.bind ?_
    rintro statement _ rfl
    exact .pure rfl
  · refine parseSelectAlloc_grants.bind ?_
    rintro _ statement rfl
    exact .pure rfl
  · exact fun _ => rfl

theorem scriptAppend_granted (script : List BuiltStatement) (capacity : Nat)
    (statement : BuiltStatement) :
    ∃ capacity', (scriptAppend script capacity statement).granted =
      .ok (script ++ [statement], capacity') := by
  unfold scriptAppend
  rw [Alloc.granted_after _ (Alloc.granted_reserve _ _ _ _ _)]
  exact ⟨_, rfl⟩

/-- The answer of `parse_sql_script` with the script it leaves. -/
def ParseOutcome.answer (outcome : ParseOutcome) : Except SqlError (List Statement) :=
  outcome.result.map fun _ => outcome.script

/-- As many iterations as there are tokens are the whole loop. -/
theorem parseScriptLoopAlloc_grants (iterations : Nat) (tokens : List Token)
    (script : List Statement) (capacity : Nat) (h : tokens.length ≤ iterations) :
    Alloc.Grants .sql (fun y x => y = x.map Statement.built)
      (parseScriptLoopAlloc iterations tokens (script.map Statement.built) capacity)
      (parseScriptLoop tokens script).answer := by
  induction iterations generalizing tokens script capacity with
  | zero =>
      obtain rfl : tokens = [] := List.eq_nil_of_length_eq_zero (Nat.le_zero.mp h)
      rw [parseScriptLoop_of_end rfl]
      exact ⟨_, rfl, rfl⟩
  | succ iterations ih =>
      unfold parseScriptLoopAlloc
      split
      · rename_i hend
        rw [parseScriptLoop_of_end hend]
        exact ⟨_, rfl, rfl⟩
      · rename_i hend
        split
        · rename_i hsemi
          rw [parseScriptLoop_of_semicolon hsemi]
          have hlt := tail_length_lt_of_peek hend
          exact ih _ _ _ (by omega)
        · rename_i hsemi
          refine (parseStatementAlloc_grants tokens).split
            (fun e hstmt => by rw [parseScriptLoop_of_error hend hsemi hstmt]; rfl) ?_
          rintro ⟨built, rest⟩ ⟨statement, rest'⟩ hstmt ⟨hbuilt, hrest⟩
          obtain rfl : built = statement.built := hbuilt
          obtain rfl : rest = rest' := hrest
          rw [parseScriptLoop_of_ok hend hsemi hstmt]
          obtain ⟨capacity', happend⟩ :=
            scriptAppend_granted (script.map Statement.built) capacity statement.built
          have hlt := parseStatement_length_lt hstmt
          have hle := skipToken_length_le .semicolon rest
          have hrest := ih (skipToken .semicolon rest) (script ++ [statement]) capacity'
            (by omega)
          rw [List.map_append] at hrest
          exact Alloc.Grants.after happend hrest

/-- With everything granted the script is the one the parser builds. -/
theorem parseSqlScriptAlloc_grants (source : Bytes) :
    Alloc.Grants .sql (fun y x => y = x.map Statement.built) (parseSqlScriptAlloc source)
      (parseSqlScript source).answer := by
  unfold parseSqlScriptAlloc parseSqlScript
  refine (tokenizeSqlAlloc_grants source).split (fun e hsource => by rw [hsource]; rfl) ?_
  rintro tokens _ hsource rfl
  rw [hsource]
  exact parseScriptLoopAlloc_grants tokens.length tokens [] 0 (Nat.le_refl _)

/-- A parser that is granted every request is the parser without memory. -/
theorem parseSqlScriptUnder_granted (source : Bytes) :
    parseSqlScriptUnder (fun _ => true) source =
      ⟨(parseSqlScript source).result.mapError .sql,
        (parseSqlScript source).script.map Statement.built⟩ := by
  have hgranted : (parseSqlScriptAlloc source).granted = _ :=
    (parseSqlScriptAlloc_grants source).granted_eq
  unfold parseSqlScriptUnder
  rw [Alloc.run_true, hgranted, ParseOutcome.answer]
  cases hresult : (parseSqlScript source).result with
  | error e =>
      have hempty := @parseSqlScript_failed source (by simp [hresult])
      rw [hempty]
      rfl
  | ok => rfl

end MiniSql
