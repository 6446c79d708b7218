import MiniSql.Ownership
import MiniSql.Parser.Memory

set_option autoImplicit false

/-!
# The parser and what it owns

The tokenizer and the parser with the blocks they acquire, use and give back.  Every exit
with an error gives back what the call owns; `parse_sql_script` gives back the tokens at
its last exit too, and hands over the script.
-/

namespace MiniSql

open Foundation

/-! ## Tokens -/

/-- `Token`. -/
structure HeapToken where
  type : TokenType
  lexeme : HeapString
  line : Nat
  column : Nat

/-- The token without its address. -/
def HeapToken.token (t : HeapToken) : Token := ⟨t.type, t.lexeme.text, t.line, t.column⟩

/-- The blocks of the lexemes. -/
def lexemeBlocks : List HeapToken → Multiset Resource
  | [] => 0
  | t :: tokens => t.lexeme.block + lexemeBlocks tokens

/-- `TokenList`. -/
structure HeapTokens where
  items : Pointer
  tokens : List HeapToken
  capacity : Nat

/-- The blocks of a list of tokens: the lexemes and the array. -/
def HeapTokens.blocks (list : HeapTokens) : Multiset Resource :=
  lexemeBlocks list.tokens + list.items.block

/-- The tokens of a list without their addresses. -/
def HeapTokens.values (list : HeapTokens) : List Token := list.tokens.map HeapToken.token

/-- The locals of `tokenize_sql` at the head of its `while` loop. -/
structure HeapLexState where
  rest : Bytes
  line : Nat
  column : Nat
  list : HeapTokens

/-- The locals without addresses. -/
def HeapLexState.state (s : HeapLexState) : LexState :=
  ⟨s.rest, s.line, s.column, s.list.values⟩

/-- The loop of `free_tokens`, and the `free` behind it. -/
def freeLexemes (items : Pointer) : List HeapToken → Heap Unit
  | [] => Heap.free items
  | t :: tokens => do
      Heap.use items.block
      Heap.free t.lexeme.pointer
      freeLexemes items tokens

/-- `free_tokens`. -/
def freeTokens (list : HeapTokens) : Heap Unit := freeLexemes list.items list.tokens

/-- `token_list_append`. -/
def tokenListAppendHeap (list : HeapTokens) (type : TokenType) (lexeme : Bytes)
    (line column : Nat) : Heap (Bool × HeapTokens) := do
  match ← Heap.reserve (list.tokens.length == list.capacity) list.items
      (doubled 16 list.capacity) list.capacity with
  | none => pure (false, list)
  | some (items, capacity) => do
      match ← Heap.malloc with
      | none => pure (false, ⟨items, list.tokens, capacity⟩)
      | some address => do
          Heap.use items.block
          pure (true, ⟨items, list.tokens ++ [⟨type, ⟨some address, lexeme⟩, line, column⟩],
            capacity⟩)

/-- The tests of `token_list_append` in `tokenize_sql`; a word is looked up by its lexeme in
the list. -/
def appendOrFree (list : HeapTokens) (type : TokenType) (lexeme : Bytes) (line column : Nat) :
    Heap (Except Failure HeapTokens) := do
  match ← tokenListAppendHeap list type lexeme line column with
  | (false, list) => do
      freeTokens list
      pure (.error (.outOfMemory "tokenizing"))
  | (true, list) => do
      Heap.use list.blocks
      pure (.ok list)

/-- The loop of `read_string_token`.  The source is `source`, and `buffer` stands in the block
of `pointer`. -/
def readStringLoopHeap (source : Multiset Resource) : Bytes → Bytes → Pointer → Nat → Nat →
    Heap (Except Failure (Option (Bytes × Bytes × Nat) × Pointer × Nat))
  | [], _, pointer, capacity, _ => do
      Heap.use source
      pure (.ok (none, pointer, capacity))
  | ch :: tail, buffer, pointer, capacity, column => do
      Heap.use source
      if ch = quote then
        match tail with
        | [] => pure (.ok (some (buffer, [], column), pointer, capacity))
        | next :: tail' =>
            if next = quote then do
              match ← Heap.reserve (buffer.length + 1 ≥ capacity) pointer (doubled 16 capacity)
                  capacity with
              | none => do
                  Heap.free pointer
                  pure (.error (.outOfMemory "tokenizing string"))
              | some (pointer, capacity) => do
                  Heap.use pointer.block
                  readStringLoopHeap source tail' (buffer ++ [quote]) pointer capacity (column + 2)
            else pure (.ok (some (buffer, next :: tail', column), pointer, capacity))
      else do
        match ← Heap.reserve (buffer.length + 1 ≥ capacity) pointer (doubled 16 capacity)
            capacity with
        | none => do
            Heap.free pointer
            pure (.error (.outOfMemory "tokenizing string"))
        | some (pointer, capacity) => do
            Heap.use pointer.block
            readStringLoopHeap source tail (buffer ++ [ch]) pointer capacity (column + 1)

/-- `read_string_token`.  An exit with an error leaves the tokens to the caller. -/
def readStringTokenHeap (source : Multiset Resource) (s : HeapLexState) (tail : Bytes) :
    Heap (Except Failure HeapLexState) :=
  (readStringLoopHeap source tail [] none 0 s.column).andThen fun
    | (none, pointer, _) => do
        Heap.free pointer
        pure (.error (.sql (.atPosition "unterminated string literal" s.line s.column)))
    | (some (buffer, rest, column), pointer, capacity) => do
        -- an empty literal has no buffer yet
        match ← Heap.reserve pointer.isNone pointer 1 capacity with
        | none => pure (.error (.outOfMemory "tokenizing string"))
        | some (pointer, _) => do
            Heap.use pointer.block
            match ← Heap.reserve (s.list.tokens.length == s.list.capacity) s.list.items
                (doubled 16 s.list.capacity) s.list.capacity with
            | none => do
                Heap.free pointer
                pure (.error (.outOfMemory "tokenizing"))
            | some (items, capacity) => do
                Heap.use items.block
                pure (.ok ⟨rest, s.line, column + 1, ⟨items,
                  s.list.tokens ++ [⟨.string, ⟨pointer, buffer⟩, s.line, s.column⟩], capacity⟩⟩)

/-- One iteration of the `while` loop of `tokenize_sql`. -/
def tokenizeStepHeap (source : Multiset Resource) (s : HeapLexState) (ch : Byte) (tail : Bytes) :
    Heap (Except Failure HeapLexState) := do
  Heap.use source
  if isspace ch then
    if ch = newline then pure (.ok { s with rest := tail, line := s.line + 1, column := 1 })
    else pure (.ok { s with rest := tail, column := s.column + 1 })
  else if ch = minus ∧ tail.head? = some minus then
    let body := tail.tail.takeWhile (· != newline)
    pure (.ok { s with
      rest := tail.tail.dropWhile (· != newline)
      column := s.column + 2 + body.length })
  else if ch = slash ∧ tail.head? = some star then
    match skipBlockComment tail.tail s.line (s.column + 2) with
    | none => do
        freeTokens s.list
        pure (.error (.sql .unterminatedBlockComment))
    | some (rest, line, column) => pure (.ok { s with rest, line, column })
  else if isWordStart ch then
    let lexeme := (ch :: tail).takeWhile isWordByte
    (appendOrFree s.list (keywordType lexeme) lexeme s.line s.column).andThen fun list =>
      pure (.ok ⟨(ch :: tail).dropWhile isWordByte, s.line, s.column + lexeme.length, list⟩)
  else if isdigit ch || (ch == minus && (tail.head?.any isdigit)) then
    let lexeme := ch :: tail.takeWhile isdigit
    (appendOrFree s.list .number lexeme s.line s.column).andThen fun list =>
      pure (.ok ⟨tail.dropWhile isdigit, s.line, s.column + lexeme.length, list⟩)
  else if ch = quote then
    (readStringTokenHeap source s tail).orReturn (freeTokens s.list) fun s => pure (.ok s)
  else
    match simpleTokenType ch with
    | none => do
        freeTokens s.list
        pure (.error (.sql (.unexpectedCharacter ch s.line s.column)))
    | some type =>
        (appendOrFree s.list type [ch] s.line s.column).andThen fun list =>
          pure (.ok ⟨tail, s.line, s.column + 1, list⟩)

/-- The `while` loop of `tokenize_sql`. -/
def tokenizeLoopHeap (source : Multiset Resource) : Nat → HeapLexState →
    Heap (Except Failure HeapLexState)
  | 0, s => pure (.ok s)
  | iterations + 1, s =>
      match s.rest with
      | [] => pure (.ok s)
      | ch :: tail =>
          (tokenizeStepHeap source s ch tail).andThen (tokenizeLoopHeap source iterations)

/-- `tokenize_sql` on a text in the block `source`. -/
def tokenizeSqlHeap (source : Multiset Resource) (text : Bytes) :
    Heap (Except Failure HeapTokens) :=
  (tokenizeLoopHeap source text.length ⟨text, 1, 1, ⟨none, [], 0⟩⟩).andThen fun s =>
    (appendOrFree s.list .end_ [] s.line s.column).andThen fun list => pure (.ok list)

/-! ## Statements -/

/-- `QualifiedName`. -/
structure HeapName where
  schema : HeapString
  table : HeapString

def HeapName.blocks (name : HeapName) : Multiset Resource := name.schema.block + name.table.block

/-- The name without addresses. -/
def HeapName.name (name : HeapName) : QualifiedName := ⟨name.schema.content, name.table.content⟩

/-- `InsertStatement`. -/
structure HeapInsert where
  target : HeapName
  columns : HeapList
  values : HeapList

def HeapInsert.blocks (statement : HeapInsert) : Multiset Resource :=
  statement.target.blocks + statement.columns.blocks + statement.values.blocks

/-- The statement without addresses. -/
def HeapInsert.statement (statement : HeapInsert) : InsertStatement :=
  ⟨statement.target.name, statement.columns.texts, statement.values.texts⟩

/-- The operands of a `WhereClause`: both are NULL as long as it is not enabled. -/
structure HeapWhere where
  enabled : Bool
  column : HeapString
  value : HeapString

def HeapWhere.blocks (where_ : HeapWhere) : Multiset Resource :=
  where_.column.block + where_.value.block

/-- The clause after `memset`. -/
def HeapWhere.none : HeapWhere := ⟨false, .null, .null⟩

/-- The clause without addresses. -/
def HeapWhere.built (where_ : HeapWhere) : Option BuiltWhere :=
  if where_.enabled then some ⟨where_.column.content, where_.value.text⟩ else .none

/-- `SelectStatement`. -/
structure HeapSelect where
  source : HeapName
  selectAll : Bool
  columns : HeapList
  where_ : HeapWhere

def HeapSelect.blocks (statement : HeapSelect) : Multiset Resource :=
  statement.source.blocks + statement.columns.blocks + statement.where_.blocks

/-- The statement without addresses. -/
def HeapSelect.built (statement : HeapSelect) : BuiltSelect :=
  ⟨statement.source.name, statement.selectAll, statement.columns.texts, statement.where_.built⟩

/-- `Statement`. -/
inductive HeapStatement where
  | insert (statement : HeapInsert)
  | select (statement : HeapSelect)

def HeapStatement.blocks : HeapStatement → Multiset Resource
  | insert statement => statement.blocks
  | select statement => statement.blocks

/-- The statement without addresses. -/
def HeapStatement.built : HeapStatement → BuiltStatement
  | insert statement => .insert statement.statement
  | select statement => .select statement.built

/-- The blocks of the statements of a script. -/
def statementBlocks : List HeapStatement → Multiset Resource
  | [] => 0
  | statement :: statements => statement.blocks + statementBlocks statements

/-- `SQLScript`. -/
structure HeapScript where
  items : Pointer
  statements : List HeapStatement
  capacity : Nat

/-- The blocks of a script: its statements and its array. -/
def HeapScript.blocks (script : HeapScript) : Multiset Resource :=
  statementBlocks script.statements + script.items.block

/-- The statements without addresses. -/
def HeapScript.built (script : HeapScript) : List BuiltStatement :=
  script.statements.map HeapStatement.built

/-- `free_qualified_name`. -/
def freeQualifiedName (name : HeapName) : Heap Unit := do
  Heap.free name.schema.pointer
  Heap.free name.table.pointer

/-- `free_statement`. -/
def freeStatement : HeapStatement → Heap Unit
  | .insert statement => do
      freeQualifiedName statement.target
      stringListFree statement.columns
      stringListFree statement.values
  | .select statement => do
      freeQualifiedName statement.source
      stringListFree statement.columns
      Heap.free statement.where_.column.pointer
      Heap.free statement.where_.value.pointer

/-- The loop of `free_script`, and the `free` behind it. -/
def freeStatements (items : Pointer) : List HeapStatement → Heap Unit
  | [] => Heap.free items
  | statement :: statements => do
      Heap.use items.block
      freeStatement statement
      freeStatements items statements

/-- `free_script`. -/
def freeScript (script : HeapScript) : Heap Unit := freeStatements script.items script.statements

/-! ## The parser -/

/-- A parser that owns what it builds; the tokens are read without their addresses. -/
abbrev HeapParse (α : Type) : Type := List Token → Heap (Except Failure (α × List Token))

/-- A part that only reads tokens, through `parser->tokens`. -/
def readTokens {α : Type} (parser : Multiset Resource) (p : Parse α) : HeapParse α :=
  fun tokens => do
    Heap.use parser
    pure ((p tokens).mapError .sql)

/-- A part that reads no token. -/
def building {α : Type} (p : Heap (Except Failure α)) : HeapParse α := fun tokens =>
  p.andThen fun x => pure (.ok (x, tokens))

namespace HeapParse

variable {α β : Type}

protected def pure (x : α) : HeapParse α := fun tokens => pure (.ok (x, tokens))

/-- The test of a call, with its cleanup. -/
def orReturn (p : HeapParse α) (cleanup : Heap Unit) (k : α → HeapParse β) : HeapParse β :=
  fun tokens => (p tokens).orReturn cleanup fun r => k r.1 r.2

/-- The test of a call where there is nothing to clean up. -/
def andThen (p : HeapParse α) (k : α → HeapParse β) : HeapParse β := p.orReturn (pure ()) k

end HeapParse

/-- `parse_identifier_list` and `parse_value_list`, with the list built so far. -/
def parseListHeap (parser : Multiset Resource) (item : Token → Option Bytes)
    (message task : String) : List Token → HeapList → Heap (Except Failure (HeapList × List Token))
  | [], list => do
      Heap.use parser
      stringListFree list
      pure (.error (.sql (pastEnd.fault message)))
  | t :: rest, list => do
      Heap.use parser
      match item t with
      | none => do
          stringListFree list
          pure (.error (.sql (t.fault message)))
      | some lexeme => do
          match ← stringListAppendHeap list lexeme with
          | (false, list) => do
              stringListFree list
              pure (.error (.outOfMemory task))
          | (true, list) =>
              match rest with
              | [] => pure (.ok (list, []))
              | s :: rest' =>
                  if s.type == .comma then parseListHeap parser item message task rest' list
                  else pure (.ok (list, s :: rest'))

/-- `parse_identifier_list`. -/
def parseIdentifierListHeap (parser : Multiset Resource) : HeapParse HeapList := fun tokens =>
  parseListHeap parser identLexeme "expected identifier" "parsing identifiers" tokens .empty

/-- `parse_value_list`. -/
def parseValueListHeap (parser : Multiset Resource) : HeapParse HeapList := fun tokens =>
  parseListHeap parser valueLexeme "expected literal value" "parsing values" tokens .empty

/-- The test of the copies at the end of `parse_qualified_name`. -/
def checkCopies (hasSchema : Bool) (name : HeapName) : Heap (Except Failure HeapName) :=
  if name.table.pointer.isNone || (hasSchema && name.schema.pointer.isNone) then do
    freeQualifiedName name
    pure (.error (.outOfMemory "parsing qualified name"))
  else pure (.ok name)

/-- `parse_qualified_name`. -/
def parseQualifiedNameHeap (parser : Multiset Resource) : HeapParse HeapName :=
  (readTokens parser (takeToken identLexeme "expected table name")).andThen fun first =>
  (readTokens parser (matchToken .dot)).andThen fun dot =>
    if dot then
      (readTokens parser (takeToken identLexeme "expected identifier after '.'")).andThen
        fun second => building do
          let schema ← sqlStrdupHeap (some first)
          let table ← sqlStrdupHeap (some second)
          checkCopies true ⟨schema, table⟩
    else building do
      let table ← sqlStrdupHeap (some first)
      checkCopies false ⟨.null, table⟩

/-- `parse_insert`. -/
def parseInsertHeap (parser : Multiset Resource) : HeapParse HeapInsert :=
  (readTokens parser (consume .into "expected INTO after INSERT")).andThen fun _ =>
  (parseQualifiedNameHeap parser).andThen fun target =>
  (readTokens parser (consume .lparen "expected '(' after table name")).orReturn
    (freeQualifiedName target) fun _ =>
  (parseIdentifierListHeap parser).orReturn (freeQualifiedName target) fun columns =>
  (readTokens parser (consume .rparen "expected ')' after column list")).orReturn
    (do freeQualifiedName target; stringListFree columns) fun _ =>
  (readTokens parser (consume .values "expected VALUES keyword")).orReturn
    (do freeQualifiedName target; stringListFree columns) fun _ =>
  (readTokens parser (consume .lparen "expected '(' before VALUES list")).orReturn
    (do freeQualifiedName target; stringListFree columns) fun _ =>
  (parseValueListHeap parser).orReturn
    (do freeQualifiedName target; stringListFree columns) fun values =>
  (readTokens parser (consume .rparen "expected ')' after VALUES list")).orReturn
    (do freeQualifiedName target; stringListFree columns; stringListFree values) fun _ =>
  .pure ⟨target, columns, values⟩

/-- The `WHERE` part of `parse_select`.  The copy of the column is not looked at. -/
def parseWhereHeap (parser : Multiset Resource) (columns : HeapList) (source : HeapName) :
    HeapParse HeapWhere :=
  (readTokens parser (matchToken .where_)).andThen fun present =>
    if present then
      (readTokens parser (takeToken identLexeme "expected column name after WHERE")).orReturn
        (do stringListFree columns; freeQualifiedName source) fun lexeme =>
      (building do
        let column ← sqlStrdupHeap (some lexeme)
        pure (.ok column)).andThen fun column =>
      (readTokens parser (consume .equal "expected '=' inside WHERE clause")).orReturn
        (do stringListFree columns; freeQualifiedName source; Heap.free column.pointer) fun _ =>
      (readTokens parser (takeToken valueLexeme "expected literal after '='")).orReturn
        (do stringListFree columns; freeQualifiedName source; Heap.free column.pointer)
        fun lexeme => building do
          let value ← sqlStrdupHeap (some lexeme)
          match value.pointer with
          | none => do
              stringListFree columns
              freeQualifiedName source
              Heap.free column.pointer
              pure (.error (.outOfMemory "parsing WHERE clause"))
          | some _ => pure (.ok ⟨true, column, value⟩)
    else .pure .none

/-- The select list of `parse_select`. -/
def parseSelectListHeap (parser : Multiset Resource) : HeapParse (Bool × HeapList) :=
  (readTokens parser (matchToken .star)).andThen fun all =>
    if all then .pure (true, .empty)
    else (parseIdentifierListHeap parser).andThen fun columns => .pure (false, columns)

/-- `parse_select`. -/
def parseSelectHeap (parser : Multiset Resource) : HeapParse HeapSelect :=
  (parseSelectListHeap parser).andThen fun list =>
  (readTokens parser (consume .from_ "expected FROM after select list")).orReturn
    (stringListFree list.2) fun _ =>
  (parseQualifiedNameHeap parser).orReturn (stringListFree list.2) fun source =>
  (parseWhereHeap parser list.2 source).andThen fun where_ =>
  .pure ⟨source, list.1, list.2, where_⟩

/-- The choice between the two statement parsers in `parse_sql_script`. -/
def parseStatementHeap (parser : Multiset Resource) : HeapParse HeapStatement :=
  (readTokens parser (matchToken .insert)).andThen fun insert =>
    if insert then (parseInsertHeap parser).andThen fun statement => .pure (.insert statement)
    else (readTokens parser (matchToken .select)).andThen fun select =>
      if select then (parseSelectHeap parser).andThen fun statement => .pure (.select statement)
      else readTokens parser fun tokens => .error ((peek tokens).fault "unsupported statement")

/-- `script_append`. -/
def scriptAppendHeap (script : HeapScript) (statement : HeapStatement) :
    Heap (Bool × HeapScript) := do
  match ← Heap.reserve (script.statements.length == script.capacity) script.items
      (doubled 4 script.capacity) script.capacity with
  | none => pure (false, script)
  | some (items, capacity) => do
      Heap.use items.block
      pure (true, ⟨items, script.statements ++ [statement], capacity⟩)

/-- The loop of `parse_sql_script`. -/
def parseScriptLoopHeap (list : HeapTokens) : Nat → List Token → HeapScript →
    Heap (Except Failure HeapScript)
  | 0, _, script => pure (.ok script)
  | iterations + 1, tokens, script => do
      Heap.use list.blocks
      if (peek tokens).type = .end_ then pure (.ok script)
      else if (peek tokens).type = .semicolon then
        parseScriptLoopHeap list iterations tokens.tail script
      else
        (parseStatementHeap list.blocks tokens).orReturn
          (do freeTokens list; freeScript script) fun r => do
            match ← scriptAppendHeap script r.1 with
            | (false, script) => do
                freeStatement r.1
                freeTokens list
                freeScript script
                pure (.error (.outOfMemory "building AST"))
            | (true, script) =>
                parseScriptLoopHeap list iterations (skipToken .semicolon r.2) script

/-- `parse_sql_script` on a text in the block `source`. -/
def parseSqlScriptHeap (source : Multiset Resource) (text : Bytes) :
    Heap (Except Failure HeapScript) :=
  (tokenizeSqlHeap source text).andThen fun list =>
    (parseScriptLoopHeap list list.tokens.length list.values ⟨none, [], 0⟩).andThen fun script => do
      freeTokens list
      pure (.ok script)

/-! ## The tokenizer is safe -/

theorem lexemeBlocks_append (tokens : List HeapToken) (t : HeapToken) :
    lexemeBlocks (tokens ++ [t]) = t.lexeme.block + lexemeBlocks tokens := by
  induction tokens with
  | nil => rfl
  | cons u tokens ih =>
      rw [List.cons_append, lexemeBlocks, ih, lexemeBlocks]
      abel

section Tokenizer

open Heap

variable {undefined : Failure → Prop} {frame source : Multiset Resource}

theorem freeLexemes_frees (items : Pointer) (tokens : List HeapToken) :
    Frees (lexemeBlocks tokens + items.block) (freeLexemes items tokens) := by
  induction tokens with
  | nil => exact (Frees.free items).of_eq (zero_add _)
  | cons t tokens ih =>
      have hrest := (Frees.free t.lexeme.pointer).bind ih
      rw [← add_assoc] at hrest
      exact .touch (fun _ h => Multiset.mem_add.mpr (.inr h)) hrest

theorem freeTokens_frees (list : HeapTokens) : Frees list.blocks (freeTokens list) :=
  freeLexemes_frees list.items list.tokens

/-- The list without addresses, with its capacity. -/
def HeapTokens.value (list : HeapTokens) : List Token × Nat := (list.values, list.capacity)

theorem tokenListAppendHeap_safe {s : LexState} {list : HeapTokens}
    (hs : s.tokens = list.values) (type : TokenType) (lexeme : Bytes) :
    Safe undefined
      (Enlarges (fun _ => True) HeapTokens.blocks HeapTokens.value (.outOfMemory "tokenizing") frame)
      (list.blocks + frame) (tokenListAppendHeap list type lexeme s.line s.column)
      (tokenListAppend s list.capacity type lexeme) := by
  have hheld : list.blocks + frame = list.items.block + (lexemeBlocks list.tokens + frame) := by
    rw [HeapTokens.blocks]
    abel
  have hlength : s.tokens.length = list.tokens.length := by simp [hs, HeapTokens.values]
  rw [hheld, tokenListAppend, hlength]
  refine Safe.reserve (fun items _ => ?_) fun _ => .fail ⟨rfl, hheld.symm⟩
  refine Safe.malloc (fun address => ?_) (.fail ⟨rfl, ?_⟩)
  · refine Safe.use (fun _ h => by simp [h]) (.done ⟨trivial, ?_, ?_⟩)
    · simp [HeapTokens.value, HeapTokens.values, hs, HeapToken.token]
    · rw [HeapTokens.blocks, lexemeBlocks_append, HeapString.block, Pointer.block_some]
      abel
  · rw [HeapTokens.blocks]
    abel

theorem appendOrFree_safe {s : LexState} {list : HeapTokens} (hs : s.tokens = list.values)
    (type : TokenType) (lexeme : Bytes) :
    Safe undefined (Owns HeapTokens.blocks (fun list y => y = list.value) frame frame)
      (list.blocks + frame) (appendOrFree list type lexeme s.line s.column)
      (tokenListAppend s list.capacity type lexeme) := by
  rw [← Alloc.bind_done (tokenListAppend s list.capacity type lexeme)]
  refine Safe.enlarged (tokenListAppendHeap_safe hs type lexeme) (fun list _ => ?_) fun list => ?_
  · exact Safe.use (fun _ h => by simp [h]) (.value rfl rfl)
  · exact Safe.exit (freeTokens_frees list)

/-- What the loop of `read_string_token` hands over: its buffer, NULL as long as its capacity
is zero. -/
def BufferMatches (r : Option (Bytes × Bytes × Nat) × Pointer × Nat)
    (y : Option (Bytes × Bytes × Nat) × Nat) : Prop :=
  y = (r.1, r.2.2) ∧ (r.2.1 = none ↔ r.2.2 = 0)

theorem readStringLoopHeap_safe (hsource : source ⊆ frame) (input buffer : Bytes)
    (pointer : Pointer) (capacity column : Nat) (hnull : pointer = none ↔ capacity = 0) :
    Safe undefined (Owns (fun r => r.2.1.block) BufferMatches frame frame)
      (pointer.block + frame) (readStringLoopHeap source input buffer pointer capacity column)
      (readStringLoopAlloc input buffer capacity column) := by
  have huse : ∀ items : Pointer, source ⊆ items.block + frame :=
    fun items r hr => Multiset.mem_add.mpr (.inr (hsource hr))
  fun_induction readStringLoopAlloc input buffer capacity column generalizing pointer with
  | case1 => exact Safe.use (huse pointer) (.value ⟨rfl, hnull⟩ rfl)
  | case2 buffer capacity column =>
      refine Safe.use (huse pointer) ?_
      exact .value ⟨rfl, hnull⟩ rfl
  | case3 buffer capacity column tail ih =>
      refine Safe.use (huse pointer) ?_
      rw [if_pos rfl]
      rw [if_pos rfl]
      refine Safe.reserve (fun items hitems => ?_) fun _ => Safe.exit (Frees.free pointer)
      refine Safe.use (fun _ h => by simp [h]) (ih _ items ?_)
      exact reserved_null_iff hnull (doubled_ne_zero (by decide) _) hitems
  | case4 buffer capacity column next tail hnext =>
      refine Safe.use (huse pointer) ?_
      rw [if_pos rfl]
      rw [if_neg hnext]
      exact .value ⟨rfl, hnull⟩ rfl
  | case5 ch tail buffer capacity column hch ih =>
      unfold readStringLoopHeap
      refine Safe.use (huse pointer) ?_
      rw [if_neg hch]
      refine Safe.reserve (fun items hitems => ?_) fun _ => Safe.exit (Frees.free pointer)
      refine Safe.use (fun _ h => by simp [h]) (ih _ items ?_)
      exact reserved_null_iff hnull (doubled_ne_zero (by decide) _) hitems

/-- The state without addresses, with the capacity of its list. -/
def HeapLexState.value (s : HeapLexState) : LexState × Nat := (s.state, s.list.capacity)

theorem readStringTokenHeap_safe (hsource : source ⊆ frame) (s : HeapLexState) (tail : Bytes) :
    Safe undefined (Owns (fun s => s.list.blocks) (fun s y => y = s.value) frame
        (s.list.blocks + frame))
      (s.list.blocks + frame) (readStringTokenHeap source s tail)
      (readStringTokenAlloc s.state s.list.capacity tail) := by
  have hheld : s.list.blocks + frame = s.list.items.block +
      (lexemeBlocks s.list.tokens + frame) := by
    rw [HeapTokens.blocks]
    abel
  have hlength : s.state.tokens.length = s.list.tokens.length := by
    simp [HeapLexState.state, HeapTokens.values]
  have hloop := @readStringLoopHeap_safe undefined _ source
    (fun r hr => Multiset.mem_add.mpr (.inr (hsource hr)) : source ⊆ s.list.blocks + frame)
    tail [] none 0 s.column (by simp)
  rw [Pointer.block_none, zero_add] at hloop
  refine Safe.andThen hloop (fun e => ⟨rfl, rfl⟩) ?_
  rintro ⟨literal, pointer, capacity⟩ _ ⟨rfl, hnull⟩
  cases literal with
  | none => exact Safe.exit (Frees.free pointer)
  | some literal =>
      obtain ⟨buffer, rest, column⟩ := literal
      have hisNone : (capacity == 0) = pointer.isNone := by
        cases pointer <;> simp_all
      dsimp only
      rw [hisNone]
      refine Safe.reserve (fun lexeme _ => ?_) fun hnone => ?_
      · refine Safe.use (fun _ h => by simp [h]) ?_
        have hlexeme : lexeme.block + (s.list.blocks + frame) = s.list.items.block +
            (lexeme.block + (lexemeBlocks s.list.tokens + frame)) := by
          rw [hheld]
          abel
        rw [hlexeme, hlength]
        refine Safe.reserve (fun items _ => ?_) fun _ => ?_
        · refine Safe.use (fun _ h => by simp [h]) (.value ?_ ?_)
          · simp [HeapLexState.value, HeapLexState.state, HeapTokens.values, HeapToken.token]
          · rw [HeapTokens.blocks, lexemeBlocks_append, HeapString.block]
            abel
        · rw [← hlexeme]
          exact Safe.exit (Frees.free lexeme)
      · obtain rfl := Option.isNone_iff_eq_none.mp hnone
        rw [Pointer.block_none, zero_add]
        exact .error

theorem tokenizeStepHeap_safe (hsource : source ⊆ frame) (s : HeapLexState) (ch : Byte)
    (tail : Bytes) :
    Safe undefined (Owns (fun s => s.list.blocks) (fun s y => y = s.value) frame frame)
      (s.list.blocks + frame) (tokenizeStepHeap source s ch tail)
      (tokenizeStepAlloc s.state s.list.capacity ch tail) := by
  have happend : ∀ (type : TokenType) (lexeme rest : Bytes) (column : Nat),
      Safe undefined (Owns (fun s : HeapLexState => s.list.blocks) (fun s y => y = s.value)
          frame frame) (s.list.blocks + frame)
        ((appendOrFree s.list type lexeme s.line s.column).andThen fun list =>
          pure (.ok ⟨rest, s.line, column, list⟩))
        (tokenListAppend s.state s.list.capacity type lexeme >>= fun r => pure
          ({ s.state with rest := rest, column := column, tokens := r.1 }, r.2)) := by
    intro type lexeme rest column
    refine Safe.andThen (@appendOrFree_safe _ _ s.state s.list rfl type lexeme) (fun e => ⟨rfl, rfl⟩) ?_
    rintro list _ rfl
    exact .value rfl rfl
  unfold tokenizeStepHeap tokenizeStepAlloc
  refine Safe.use (fun r hr => Multiset.mem_add.mpr (.inr (hsource hr))) ?_
  split_ifs
  · exact .value rfl rfl
  · exact .value rfl rfl
  · exact .value rfl rfl
  · show Safe _ _ _ _ (match skipBlockComment tail.tail s.line (s.column + 2) with
      | none => _
      | some (rest, line, column) => _)
    cases skipBlockComment tail.tail s.line (s.column + 2) with
    | none => exact Safe.exit (freeTokens_frees s.list)
    | some r => exact .value rfl rfl
  · exact happend _ _ _ _
  · exact happend _ _ _ _
  · rw [← Alloc.bind_done (readStringTokenAlloc s.state s.list.capacity tail)]
    refine Safe.tested (readStringTokenHeap_safe hsource s tail) (freeTokens_frees s.list)
      (fun e => ⟨rfl, rfl⟩) ?_
    intro s' y h
    exact .value h rfl
  · cases simpleTokenType ch with
    | none => exact Safe.exit (freeTokens_frees s.list)
    | some type => exact happend _ _ _ _

theorem tokenizeLoopHeap_safe (hsource : source ⊆ frame) (iterations : Nat) (s : HeapLexState) :
    Safe undefined (Owns (fun s => s.list.blocks) (fun s y => y = s.value) frame frame)
      (s.list.blocks + frame) (tokenizeLoopHeap source iterations s)
      (tokenizeLoopAlloc iterations s.state s.list.capacity) := by
  induction iterations generalizing s with
  | zero => exact .value rfl rfl
  | succ iterations ih =>
      obtain ⟨rest, line, column, list⟩ := s
      cases rest with
      | nil => exact .value rfl rfl
      | cons ch tail =>
          refine Safe.andThen (tokenizeStepHeap_safe hsource ⟨ch :: tail, line, column, list⟩ ch
            tail) (fun e => ⟨rfl, rfl⟩) ?_
          rintro s' _ rfl
          exact ih s'

/-- A tokenizer that succeeds hands over the tokens, and one that fails owns nothing. -/
theorem tokenizeSqlHeap_safe (hsource : source ⊆ frame) (text : Bytes) :
    Safe undefined (Owns HeapTokens.blocks (fun list tokens => tokens = list.values) frame frame)
      frame (tokenizeSqlHeap source text) (tokenizeSqlAlloc text) := by
  have hloop := @tokenizeLoopHeap_safe undefined _ _ hsource text.length
    ⟨text, 1, 1, ⟨none, [], 0⟩⟩
  rw [show (⟨none, [], 0⟩ : HeapTokens).blocks = 0 from rfl, zero_add] at hloop
  refine Safe.andThen hloop (fun e => ⟨rfl, rfl⟩) ?_
  rintro s _ rfl
  refine Safe.andThen (@appendOrFree_safe _ _ s.state s.list rfl .end_ []) (fun e => ⟨rfl, rfl⟩) ?_
  rintro list _ rfl
  exact .value rfl rfl

end Tokenizer

/-! ## The parser is safe -/

section Free

open Heap

theorem freeQualifiedName_frees (name : HeapName) :
    Frees name.blocks (freeQualifiedName name) :=
  (Frees.free name.schema.pointer).bind (Frees.free name.table.pointer)

theorem freeStatement_frees (statement : HeapStatement) :
    Frees statement.blocks (freeStatement statement) := by
  cases statement with
  | insert statement =>
      have hrest := (stringListFree_frees statement.columns).bind
        (stringListFree_frees statement.values)
      exact ((freeQualifiedName_frees statement.target).bind hrest).of_eq (add_assoc _ _ _)
  | select statement =>
      have hrest := (stringListFree_frees statement.columns).bind
        ((Frees.free statement.where_.column.pointer).bind
          (Frees.free statement.where_.value.pointer))
      exact ((freeQualifiedName_frees statement.source).bind hrest).of_eq (add_assoc _ _ _)

theorem freeStatements_frees (items : Pointer) (statements : List HeapStatement) :
    Frees (statementBlocks statements + items.block) (freeStatements items statements) := by
  induction statements with
  | nil => exact (Frees.free items).of_eq (zero_add _)
  | cons statement statements ih =>
      have hrest := (freeStatement_frees statement).bind ih
      rw [← add_assoc] at hrest
      exact .touch (fun _ h => Multiset.mem_add.mpr (.inr h)) hrest

theorem freeScript_frees (script : HeapScript) : Frees script.blocks (freeScript script) :=
  freeStatements_frees script.items script.statements

theorem statementBlocks_append (statements : List HeapStatement) (statement : HeapStatement) :
    statementBlocks (statements ++ [statement]) =
      statement.blocks + statementBlocks statements := by
  induction statements with
  | nil => rfl
  | cons other statements ih =>
      rw [List.cons_append, statementBlocks, ih, statementBlocks]
      abel

end Free

section Rules

open Heap

variable {α β γ δ : Type} {undefined : Failure → Prop} {own : α → Multiset Resource}
  {own' : γ → Multiset Resource} {ρ : α → β → Prop} {ρ' : γ → δ → Prop}
  {parser held owned frame kept left : Multiset Resource}

/-- A parser that owns what it builds, beside the one that only asks for memory. -/
def ParseSafe (undefined : Failure → Prop) (own : α → Multiset Resource) (ρ : α → β → Prop)
    (held kept left : Multiset Resource) (p : HeapParse α) (q : AllocParse β) : Prop :=
  ∀ tokens, Safe undefined
    (Owns (fun r => own r.1) (fun r y => ρ r.1 y.1 ∧ r.2 = y.2) kept left) held
    (p tokens) (q tokens)

theorem ParseSafe.pure {x : α} {y : β} (h : ρ x y) (hheld : held = own x + kept) :
    ParseSafe undefined own ρ held kept left (HeapParse.pure x) (Pure.pure y) :=
  fun _ => .value ⟨h, rfl⟩ hheld

theorem readTokens_safe (hparser : parser ⊆ held) (p : Parse α) :
    ParseSafe undefined (fun _ => 0) Eq held held held (readTokens parser p) (plain p) := by
  intro tokens
  refine Safe.use hparser ?_
  unfold plain
  cases p tokens with
  | error e => exact .error
  | ok r => exact .value ⟨rfl, rfl⟩ (zero_add _).symm

/-- `match` fails nowhere. -/
theorem matchToken_safe (hparser : parser ⊆ held) (type : TokenType) :
    ParseSafe undefined (fun _ => 0) Eq held held left (readTokens parser (matchToken type))
      (plain (matchToken type)) := by
  intro tokens
  refine Safe.use hparser ?_
  unfold plain matchToken
  split
  · exact .value ⟨rfl, rfl⟩ (zero_add _).symm
  · exact .value ⟨rfl, rfl⟩ (zero_add _).symm

theorem requests_bind (c : Allocating α) (k : α → AllocParse β) (tokens : List Token) :
    (requests c >>= k) tokens = c >>= fun x => k x tokens :=
  Alloc.bind_assoc c _ _

/-- A part that reads no token and builds what the rest answers. -/
theorem ParseSafe.built {p : Heap (Except Failure α)} {c : Allocating β} {f : β → γ}
    {ρ : α → γ → Prop} (hp : Safe undefined (Owns own (fun x y => ρ x (f y)) kept left) held p c) :
    ParseSafe undefined own ρ held kept left (building p)
      (requests c >>= fun y => Pure.pure (f y)) := by
  intro tokens
  rw [requests_bind]
  refine Safe.andThen hp (fun e => ⟨rfl, rfl⟩) fun x y h => ?_
  exact .value ⟨h, rfl⟩ rfl

/-- The test of a part that reads no token. -/
theorem ParseSafe.requested {p : Heap (Except Failure α)} {c : Allocating β}
    {k : α → HeapParse γ} {k' : β → AllocParse δ} {base : Multiset Resource}
    (hp : Safe undefined (Owns own ρ base left) held p c)
    (hk : ∀ x y, ρ x y → ParseSafe undefined own' ρ' (own x + base) kept left (k x) (k' y)) :
    ParseSafe undefined own' ρ' held kept left ((building p).andThen k)
      (requests c >>= k') := by
  intro tokens
  have hbuilt : Safe undefined
      (Owns (fun r => own r.1) (fun r y => ρ r.1 y ∧ r.2 = tokens) base left) held
      (building p tokens) (c >>= Alloc.done) :=
    Safe.andThen hp (fun e => ⟨rfl, rfl⟩) fun x y h => .value ⟨h, rfl⟩ rfl
  rw [Alloc.bind_done] at hbuilt
  rw [requests_bind]
  refine Safe.andThen hbuilt (fun e => ⟨rfl, rfl⟩) ?_
  rintro ⟨x, rest⟩ y ⟨hρ, rfl⟩
  exact hk x y hρ rest

theorem ParseSafe.of_eq {held' : Multiset Resource} {p : HeapParse α} {q : AllocParse β}
    (h : ParseSafe undefined own ρ held' kept left p q) (hheld : held = held') :
    ParseSafe undefined own ρ held kept left p q := hheld ▸ h

/-- The test of a part, with the cleanup of what is owned so far. -/
theorem ParseSafe.orReturn {p : HeapParse α} {q : AllocParse β} {cleanup : Heap Unit}
    {k : α → HeapParse γ} {k' : β → AllocParse δ}
    (hp : ParseSafe undefined own ρ (owned + frame) (owned + frame) (owned + frame) p q)
    (hcleanup : Frees owned cleanup)
    (hk : ∀ x y, ρ x y → ParseSafe undefined own' ρ' (own x + owned + frame) kept frame
      (k x) (k' y)) :
    ParseSafe undefined own' ρ' (owned + frame) kept frame (p.orReturn cleanup k)
      (q >>= k') := by
  intro tokens
  refine Safe.orReturn (hp tokens) hcleanup (fun e => ⟨rfl, rfl⟩) ?_
  rintro ⟨x, rest⟩ ⟨y, rest'⟩ ⟨hρ, rfl⟩
  exact hk x y hρ rest

/-- The test of a part while nothing is owned yet, or of one that cleans up by itself. -/
theorem ParseSafe.andThen {p : HeapParse α} {q : AllocParse β} {k : α → HeapParse γ}
    {k' : β → AllocParse δ} {base : Multiset Resource}
    (hp : ParseSafe undefined own ρ held base frame p q)
    (hk : ∀ x y, ρ x y → ParseSafe undefined own' ρ' (own x + base) kept frame (k x) (k' y)) :
    ParseSafe undefined own' ρ' held kept frame (p.andThen k) (q >>= k') := by
  intro tokens
  refine Safe.andThen (hp tokens) (fun e => ⟨rfl, rfl⟩) ?_
  rintro ⟨x, rest⟩ ⟨y, rest'⟩ ⟨hρ, rfl⟩
  exact hk x y hρ rest

/-- The test of a part that only reads tokens. -/
theorem ParseSafe.read {p : Parse α} {cleanup : Heap Unit} {k : α → HeapParse γ}
    {k' : α → AllocParse δ} (hparser : parser ⊆ frame) (hcleanup : Frees owned cleanup)
    (hk : ∀ x, ParseSafe undefined own' ρ' (owned + frame) kept frame (k x) (k' x)) :
    ParseSafe undefined own' ρ' (owned + frame) kept frame
      ((readTokens parser p).orReturn cleanup k) (plain p >>= k') := by
  refine .orReturn (readTokens_safe (lent hparser owned) p) hcleanup ?_
  rintro x _ rfl
  simpa using hk x

theorem ParseSafe.readFirst {p : Parse α} {k : α → HeapParse γ} {k' : α → AllocParse δ}
    (hparser : parser ⊆ frame)
    (hk : ∀ x, ParseSafe undefined own' ρ' frame kept frame (k x) (k' x)) :
    ParseSafe undefined own' ρ' frame kept frame ((readTokens parser p).andThen k)
      (plain p >>= k') := by
  refine .andThen (readTokens_safe hparser p) ?_
  rintro x _ rfl
  simpa using hk x

theorem ParseSafe.choice {p p' : HeapParse α} {q q' : AllocParse β} (b : Bool)
    (hp : ParseSafe undefined own ρ held kept left p q)
    (hp' : ParseSafe undefined own ρ held kept left p' q') :
    ParseSafe undefined own ρ held kept left (if b then p else p') (if b then q else q') := by
  cases b with
  | false => exact hp'
  | true => exact hp

end Rules

section Parser

open Heap

variable {undefined : Failure → Prop} {parser frame : Multiset Resource}

theorem parseListHeap_safe (hparser : parser ⊆ frame) (item : Token → Option Bytes)
    (message task : String) (tokens : List Token) (list : HeapList) :
    Safe undefined
      (Owns (fun r => r.1.blocks) (fun r y => r.1.texts = y.1 ∧ r.2 = y.2) frame frame)
      (list.blocks + frame) (parseListHeap parser item message task tokens list)
      (parseListAlloc item message task tokens list.texts list.capacity) := by
  fun_induction parseListHeap parser item message task tokens list with
  | case1 list => exact Safe.use (lent hparser _) (Safe.exit (stringListFree_frees list))
  | case2 t rest list ih =>
      refine Safe.use (lent hparser _) ?_
      unfold parseListAlloc
      cases item t with
      | none => exact Safe.exit (stringListFree_frees list)
      | some lexeme =>
          refine Safe.enlarged (stringListAppendHeap_safe list lexeme) (fun list _ => ?_)
            fun list => Safe.exit (stringListFree_frees list)
          cases rest with
          | nil => exact .value ⟨rfl, rfl⟩ rfl
          | cons s rest' =>
              dsimp only
              split
              · exact ih list
              · exact .value ⟨rfl, rfl⟩ rfl

theorem parseIdentifierListHeap_safe (hparser : parser ⊆ frame) :
    ParseSafe undefined HeapList.blocks (fun list y => list.texts = y) frame frame frame
      (parseIdentifierListHeap parser) parseIdentifierListAlloc := by
  intro tokens
  have hlist := @parseListHeap_safe undefined _ _ hparser identLexeme "expected identifier"
    "parsing identifiers" tokens .empty
  rwa [HeapList.blocks_empty, zero_add] at hlist

theorem parseValueListHeap_safe (hparser : parser ⊆ frame) :
    ParseSafe undefined HeapList.blocks (fun list y => list.texts = y) frame frame frame
      (parseValueListHeap parser) parseValueListAlloc := by
  intro tokens
  have hlist := @parseListHeap_safe undefined _ _ hparser valueLexeme "expected literal value"
    "parsing values" tokens .empty
  rwa [HeapList.blocks_empty, zero_add] at hlist

theorem parseQualifiedNameHeap_safe (hparser : parser ⊆ frame) :
    ParseSafe undefined HeapName.blocks (fun name y => name.name = y) frame frame frame
      (parseQualifiedNameHeap parser) parseQualifiedNameAlloc := by
  refine .readFirst hparser fun first => .readFirst hparser fun dot => .choice dot ?_ ?_
  · refine .readFirst hparser fun second => .built ?_
    -- both copies are made before either is looked at
    refine Safe.malloc (fun schema => Safe.malloc (fun table => .value rfl ?_) ?_)
      (Safe.malloc (fun table => ?_) ?_)
    · rw [HeapName.blocks, HeapString.block_mk, HeapString.block_mk, Pointer.block_some,
        Pointer.block_some]
      abel
    · refine Safe.of_eq (Safe.exit (freeQualifiedName_frees ⟨⟨some schema, first⟩, .null⟩)) ?_
      simp [HeapName.blocks]
    · refine Safe.of_eq (Safe.exit (freeQualifiedName_frees ⟨.null, ⟨some table, second⟩⟩)) ?_
      simp [HeapName.blocks]
    · refine Safe.of_eq (Safe.exit (freeQualifiedName_frees ⟨.null, .null⟩)) ?_
      simp [HeapName.blocks]
  · refine .built (Safe.malloc (fun table => .value rfl ?_) ?_)
    · simp [HeapName.blocks]
    · refine Safe.of_eq (Safe.exit (freeQualifiedName_frees ⟨.null, .null⟩)) ?_
      simp [HeapName.blocks]

theorem parseInsertHeap_safe (hparser : parser ⊆ frame) :
    ParseSafe undefined HeapInsert.blocks (fun insert y => insert.statement = y) frame frame frame
      (parseInsertHeap parser) parseInsertAlloc := by
  refine .readFirst hparser fun _ => .andThen (parseQualifiedNameHeap_safe hparser) ?_
  rintro target _ rfl
  have htarget := freeQualifiedName_frees target
  refine .read hparser htarget fun _ => ?_
  refine .orReturn (parseIdentifierListHeap_safe (lent hparser _)) htarget ?_
  rintro columns _ rfl
  have hcolumns : Frees (columns.blocks + target.blocks)
      (do freeQualifiedName target; stringListFree columns) :=
    (htarget.bind (stringListFree_frees columns)).of_eq (add_comm _ _)
  refine .read hparser hcolumns fun _ => .read hparser hcolumns fun _ => ?_
  refine .read hparser hcolumns fun _ => ?_
  refine .orReturn (parseValueListHeap_safe (lent hparser _)) hcolumns ?_
  rintro values _ rfl
  have hvalues : Frees (values.blocks + (columns.blocks + target.blocks))
      (do freeQualifiedName target; stringListFree columns; stringListFree values) := by
    refine (htarget.bind ((stringListFree_frees columns).bind
      (stringListFree_frees values))).of_eq ?_
    abel
  refine .read hparser hvalues fun _ => .pure rfl ?_
  rw [HeapInsert.blocks]
  abel

theorem parseWhereHeap_safe (hparser : parser ⊆ frame) (columns : HeapList) (source : HeapName) :
    ParseSafe undefined HeapWhere.blocks (fun where_ y => where_.built = y)
      (columns.blocks + source.blocks + frame) (columns.blocks + source.blocks + frame) frame
      (parseWhereHeap parser columns source) parseWhereAlloc := by
  have hcleanup : Frees (columns.blocks + source.blocks)
      (do stringListFree columns; freeQualifiedName source) :=
    (stringListFree_frees columns).bind (freeQualifiedName_frees source)
  refine .andThen (matchToken_safe (lent hparser _) .where_) ?_
  rintro present _ rfl
  rw [zero_add]
  refine .choice present ?_ (.pure rfl ?_)
  · refine .read hparser hcleanup fun lexeme => ?_
    have hcopy : Safe undefined (Owns HeapString.block
          (fun column copied => column.content = if copied then some lexeme else none)
          (columns.blocks + source.blocks + frame) frame)
        (columns.blocks + source.blocks + frame)
        (do
          let column ← sqlStrdupHeap (some lexeme)
          pure (.ok column)) (Alloc.ask .whereColumn : Allocating Bool) :=
      Safe.malloc (fun address => .value rfl rfl) (.value rfl (by simp))
    refine .requested hcopy fun column copied hcolumn => ?_
    have hcolumnCleanup : Frees (column.block + (columns.blocks + source.blocks))
        (do stringListFree columns; freeQualifiedName source; Heap.free column.pointer) := by
      refine ((stringListFree_frees columns).bind ((freeQualifiedName_frees source).bind
        (Frees.free column.pointer))).of_eq ?_
      rw [HeapString.block]
      abel
    refine .of_eq ?_ (add_assoc _ _ _).symm
    refine .read hparser hcolumnCleanup fun _ => .read hparser hcolumnCleanup fun lexeme => ?_
    refine .built (Safe.malloc (fun address => .value ?_ ?_) ?_)
    · rw [← hcolumn]
      rfl
    · show _ = column.block + {.block address} + (columns.blocks + source.blocks + frame)
      rw [HeapString.block]
      abel
    · refine Safe.of_eq ((stringListFree_frees columns).safe ((freeQualifiedName_frees source).safe
        ((Frees.free column.pointer).safe .error))) ?_
      rw [HeapString.block]
      abel
  · simp [HeapWhere.none, HeapWhere.blocks]

theorem parseSelectListHeap_safe (hparser : parser ⊆ frame) :
    ParseSafe undefined (fun list : Bool × HeapList => list.2.blocks)
      (fun list y => (list.1, list.2.texts) = y) frame frame frame
      (parseSelectListHeap parser) parseSelectListAlloc := by
  refine .readFirst hparser fun all => .choice all (.pure rfl (zero_add _).symm) ?_
  refine .andThen (parseIdentifierListHeap_safe hparser) ?_
  rintro columns _ rfl
  exact .pure rfl rfl

theorem parseSelectHeap_safe (hparser : parser ⊆ frame) :
    ParseSafe undefined HeapSelect.blocks (fun select y => select.built = y) frame frame frame
      (parseSelectHeap parser) parseSelectAlloc := by
  refine .andThen (parseSelectListHeap_safe hparser) ?_
  rintro ⟨all, columns⟩ _ rfl
  have hcolumns := stringListFree_frees columns
  refine .read hparser hcolumns fun _ => ?_
  refine .orReturn (parseQualifiedNameHeap_safe (lent hparser _)) hcolumns ?_
  rintro source _ rfl
  refine .of_eq ?_ (congrArg (· + frame) (add_comm source.blocks columns.blocks))
  refine .andThen (parseWhereHeap_safe hparser columns source) ?_
  rintro where_ _ rfl
  refine .pure rfl ?_
  rw [HeapSelect.blocks]
  abel

theorem parseStatementHeap_safe (hparser : parser ⊆ frame) :
    ParseSafe undefined HeapStatement.blocks (fun statement y => statement.built = y)
      frame frame frame (parseStatementHeap parser) parseStatementAlloc := by
  refine .readFirst hparser fun insert => .choice insert ?_ ?_
  · refine .andThen (parseInsertHeap_safe hparser) ?_
    rintro statement _ rfl
    exact .pure rfl rfl
  · refine .readFirst hparser fun select => .choice select ?_ ?_
    · refine .andThen (parseSelectHeap_safe hparser) ?_
      rintro statement _ rfl
      exact .pure rfl rfl
    · intro tokens
      exact Safe.use hparser .error

/-- A script that could not be extended leaves the statement to the caller. -/
theorem scriptAppendHeap_safe {α β : Type} {R : α → Except Failure β → Multiset Resource → Prop}
    {script : HeapScript} {statement : HeapStatement} {k : Bool × HeapScript → Heap α}
    {k' : List BuiltStatement × Nat → Allocating β}
    (hok : ∀ script' : HeapScript, Safe undefined R (script'.blocks + frame) (k (true, script'))
      (k' (script'.built, script'.capacity)))
    (hfail : Safe undefined R (script.blocks + statement.blocks + frame) (k (false, script))
      (Alloc.fail (.outOfMemory "building AST") : Allocating β)) :
    Safe undefined R (script.blocks + statement.blocks + frame)
      (scriptAppendHeap script statement >>= k)
      (scriptAppend script.built script.capacity statement.built >>= k') := by
  have hheld : script.blocks + statement.blocks + frame = script.items.block +
      (statementBlocks script.statements + statement.blocks + frame) := by
    rw [HeapScript.blocks]
    abel
  have hlength : script.built.length = script.statements.length := by simp [HeapScript.built]
  rw [hheld] at hfail ⊢
  unfold scriptAppendHeap scriptAppend
  rw [bind_assoc, Alloc.bind_assoc, hlength]
  refine Safe.reserve (fun items _ => ?_) fun _ => hfail
  refine Safe.touch (fun _ h => Multiset.mem_add.mpr (.inl h)) ?_
  have hbuilt : ∀ capacity : Nat, script.built ++ [statement.built] =
      (⟨items, script.statements ++ [statement], capacity⟩ : HeapScript).built := by
    intro capacity
    simp [HeapScript.built]
  have happended := hok ⟨items, script.statements ++ [statement],
    if script.statements.length == script.capacity then doubled 4 script.capacity
    else script.capacity⟩
  rw [← hbuilt] at happended
  refine happended.of_eq ?_
  rw [HeapScript.blocks, statementBlocks_append]
  abel

/-- The tokens are held as long as the loop goes on, and behind its last exit. -/
theorem parseScriptLoopHeap_safe (list : HeapTokens) (iterations : Nat) (tokens : List Token)
    (script : HeapScript) :
    Safe undefined (Owns HeapScript.blocks (fun script y => y = script.built)
        (list.blocks + frame) frame)
      (script.blocks + (list.blocks + frame)) (parseScriptLoopHeap list iterations tokens script)
      (parseScriptLoopAlloc iterations tokens script.built script.capacity) := by
  induction iterations generalizing tokens script with
  | zero => exact .value rfl rfl
  | succ iterations ih =>
      unfold parseScriptLoopHeap parseScriptLoopAlloc
      refine Safe.use (fun _ h => by simp [h]) ?_
      split
      · exact .value rfl rfl
      · split
        · exact ih tokens.tail script
        · have hcleanup : Frees (script.blocks + list.blocks)
              (do freeTokens list; freeScript script) :=
            ((freeTokens_frees list).bind (freeScript_frees script)).of_eq (add_comm _ _)
          rw [← add_assoc]
          have hstatement := @parseStatementHeap_safe undefined list.blocks
            (script.blocks + list.blocks + frame) (fun _ h => by simp [h]) tokens
          refine Safe.orReturn hstatement hcleanup (fun e => ⟨rfl, rfl⟩) ?_
          rintro ⟨statement, rest⟩ ⟨_, _⟩ ⟨rfl, rfl⟩
          have hheld : statement.blocks + (script.blocks + list.blocks) + frame =
              script.blocks + statement.blocks + (list.blocks + frame) := by
            abel
          rw [hheld]
          refine scriptAppendHeap_safe (fun script' => ih _ script') ?_
          refine Safe.of_eq ((freeStatement_frees statement).safe ((freeTokens_frees list).safe
            ((freeScript_frees script).safe .error))) ?_
          abel

/-- `parse_sql_script` hands over the script it answers and nothing else, and owns nothing
when it fails, whatever is refused. -/
theorem parseSqlScriptHeap_safe {source : Multiset Resource} (hsource : source ⊆ frame)
    (text : Bytes) :
    Safe undefined (Owns HeapScript.blocks (fun script y => y = script.built) frame frame) frame
      (parseSqlScriptHeap source text) (parseSqlScriptAlloc text) := by
  refine Safe.andThen (tokenizeSqlHeap_safe hsource text) (fun e => ⟨rfl, rfl⟩) ?_
  rintro list _ rfl
  have hlength : list.values.length = list.tokens.length := by simp [HeapTokens.values]
  rw [← Alloc.bind_done (parseScriptLoopAlloc _ _ _ _), hlength]
  have hloop := @parseScriptLoopHeap_safe undefined frame list list.tokens.length list.values
    ⟨none, [], 0⟩
  rw [show (⟨none, [], 0⟩ : HeapScript).blocks = 0 from rfl, zero_add] at hloop
  refine Safe.andThen hloop (fun e => ⟨rfl, rfl⟩) ?_
  rintro script _ rfl
  refine Safe.of_eq ((freeTokens_frees list).safe (.value rfl rfl)) ?_
  abel

end Parser

/-- A run of `parse_sql_script` uses and gives back only what it holds, whatever is refused.
Behind an error nothing is left, and behind a success `free_script` leaves nothing. -/
theorem parseSqlScriptHeap_run (allocator : Heap.Allocator) (pattern : Nat → Bool)
    (source held : Multiset Resource) (text : Bytes) :
    ∃ answer held', (parseSqlScriptHeap source text).run allocator pattern (source + held) =
        .ok (answer, held') ∧
      parseSqlScriptUnder pattern text =
        ⟨answer.map fun _ => (), (answer.toOption.map HeapScript.built).getD []⟩ ∧
      match answer with
      | .error _ => held' = source + held
      | .ok script => ∀ pattern', (freeScript script).run allocator pattern' held' =
          .ok ((), source + held) := by
  have hsafe := @parseSqlScriptHeap_safe (fun _ => False) (source + held) source
    (Multiset.subset_of_le (Multiset.le_add_right source held)) text
  rcases hsafe.run allocator pattern with ⟨answer, held', hrun, howns⟩ | ⟨-, _, -, h⟩
  · refine ⟨answer, held', hrun, ?_⟩
    unfold parseSqlScriptUnder
    cases hparse : (parseSqlScriptAlloc text).run pattern with
    | error e =>
        rw [hparse] at howns
        cases answer with
        | error e' =>
            obtain ⟨rfl, rfl⟩ := howns
            exact ⟨rfl, rfl⟩
        | ok script => exact howns.elim
    | ok built =>
        rw [hparse] at howns
        cases answer with
        | error e' => exact howns.elim
        | ok script =>
            obtain ⟨rfl, rfl⟩ := howns
            exact ⟨rfl, fun pattern' => (freeScript_frees script).run allocator pattern'⟩
  · exact h.elim

end MiniSql
