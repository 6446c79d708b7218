import MiniSql.Parser.Scan
import MiniSql.Parser.Script

set_option autoImplicit false

/-!
# The parser and its index

`parse_sql_script` once more, with the index `current` it reads the tokens through.  A read
behind the last token is a stop of its own.  The index moves on only behind a token that is
not the end token, so there is no such read.
-/

namespace MiniSql

open Foundation

/-- The tokens of a `Parser` are read, its `current` is moved. -/
abbrev ParseAt (α : Type) : Type := ReaderT (List Token) (StateT Nat (Except Stop)) α

/-- `peek`. -/
def peekAt (tokens : List Token) (current : Nat) : Except Stop Token :=
  readAt .behindTokens tokens current

/-- `match`. -/
def matchTokenAt (type : TokenType) : ParseAt Bool := fun tokens current => do
  let token ← peekAt tokens current
  if token.type = type then .ok (true, current + 1) else .ok (false, current)

/-- `consume`. -/
def consumeAt (type : TokenType) (message : String) : ParseAt Unit := fun tokens current => do
  let token ← peekAt tokens current
  if token.type = type then .ok ((), current + 1)
  else .error (.error (token.fault message))

/-- A test of the token in front, the message when it fails, and `current++` by hand when it
holds. -/
def takeTokenAt (item : Token → Option Bytes) (message : String) : ParseAt Bytes :=
  fun tokens current => do
    let token ← peekAt tokens current
    match item token with
    | none => .error (.error (token.fault message))
    | some lexeme => .ok (lexeme, current + 1)

/-- A message at the token in front. -/
def failAt {α : Type} (message : String) : ParseAt α := fun tokens current => do
  let token ← peekAt tokens current
  .error (.error (token.fault message))

/-- No parser moves its index back. -/
def Advances {α : Type} (p : ParseAt α) : Prop :=
  ∀ (tokens : List Token) (current : Nat) (x : α) (current' : Nat),
    p tokens current = .ok (x, current') → current ≤ current'

section Advances

variable {α β : Type} {p q : ParseAt α} {k : α → ParseAt β}

theorem Advances.pure (x : α) : Advances (pure x : ParseAt α) := by
  intro tokens current y current' h
  cases h
  exact Nat.le_refl _

theorem Advances.bind (hp : Advances p) (hk : ∀ x, Advances (k x)) : Advances (p >>= k) := by
  intro tokens current y current' h
  obtain ⟨⟨x, mid⟩, hx, hy⟩ := bind_eq_ok h
  exact Nat.le_trans (hp _ _ _ _ hx) (hk x _ _ _ _ hy)

theorem Advances.ite (b : Bool) (hp : Advances p) (hq : Advances q) :
    Advances (if b then p else q) := by
  split
  · exact hp
  · exact hq

theorem matchTokenAt_advances (type : TokenType) : Advances (matchTokenAt type) := by
  intro tokens current x current' h
  obtain ⟨token, -, h⟩ := bind_eq_ok h
  split at h
  · cases h
    exact Nat.le_succ _
  · cases h
    exact Nat.le_refl _

/-- A token that was matched is passed. -/
theorem matchTokenAt_lt {type : TokenType} {tokens : List Token} {current current' : Nat}
    (h : matchTokenAt type tokens current = .ok (true, current')) : current < current' := by
  obtain ⟨token, -, h⟩ := bind_eq_ok h
  split at h
  · cases h
    exact Nat.lt_succ_self _
  · cases h

theorem consumeAt_advances (type : TokenType) (message : String) :
    Advances (consumeAt type message) := by
  intro tokens current x current' h
  obtain ⟨token, -, h⟩ := bind_eq_ok h
  split at h
  · cases h
    exact Nat.le_succ _
  · cases h

theorem takeTokenAt_advances (item : Token → Option Bytes) (message : String) :
    Advances (takeTokenAt item message) := by
  intro tokens current x current' h
  obtain ⟨token, -, h⟩ := bind_eq_ok h
  split at h
  · cases h
  · cases h
    exact Nat.le_succ _

end Advances

/-- The loop of `parse_identifier_list` and `parse_value_list`. -/
def listLoopAt (item : Token → Option Bytes) (message : String) (tokens : List Token)
    (current : Nat) (list : List Bytes) : Except Stop (List Bytes × Nat) :=
  match _hread : peekAt tokens current with
  | .error e => .error e
  | .ok token =>
      match item token with
      | none => .error (.error (token.fault message))
      | some lexeme =>
          match _hmatch : matchTokenAt .comma tokens (current + 1) with
          | .error e => .error e
          | .ok (false, current') => .ok (list ++ [lexeme], current')
          | .ok (true, current') =>
              listLoopAt item message tokens current' (list ++ [lexeme])
  termination_by tokens.length - current
  decreasing_by
    have := readAt_lt _hread
    have := matchTokenAt_lt _hmatch
    omega

/-- `parse_identifier_list`. -/
def parseIdentifierListAt : ParseAt (List Bytes) := fun tokens current =>
  listLoopAt identLexeme "expected identifier" tokens current []

/-- `parse_value_list`. -/
def parseValueListAt : ParseAt (List Bytes) := fun tokens current =>
  listLoopAt valueLexeme "expected literal value" tokens current []

/-- `parse_qualified_name`. -/
def parseQualifiedNameAt : ParseAt QualifiedName := do
  let first ← takeTokenAt identLexeme "expected table name"
  if ← matchTokenAt .dot then
    let second ← takeTokenAt identLexeme "expected identifier after '.'"
    pure ⟨some first, some second⟩
  else
    pure ⟨none, some first⟩

/-- `parse_insert`. -/
def parseInsertAt : ParseAt InsertStatement := do
  consumeAt .into "expected INTO after INSERT"
  let target ← parseQualifiedNameAt
  consumeAt .lparen "expected '(' after table name"
  let columns ← parseIdentifierListAt
  consumeAt .rparen "expected ')' after column list"
  consumeAt .values "expected VALUES keyword"
  consumeAt .lparen "expected '(' before VALUES list"
  let values ← parseValueListAt
  consumeAt .rparen "expected ')' after VALUES list"
  pure ⟨target, columns, values⟩

/-- The `WHERE` part of `parse_select`. -/
def parseWhereAt : ParseAt (Option WhereClause) := do
  if ← matchTokenAt .where_ then
    let column ← takeTokenAt identLexeme "expected column name after WHERE"
    consumeAt .equal "expected '=' inside WHERE clause"
    let value ← takeTokenAt valueLexeme "expected literal after '='"
    pure (some ⟨column, value⟩)
  else
    pure none

/-- The select list of `parse_select`. -/
def parseSelectListAt : ParseAt (Bool × List Bytes) := do
  if ← matchTokenAt .star then
    pure (true, [])
  else
    let columns ← parseIdentifierListAt
    pure (false, columns)

/-- `parse_select`. -/
def parseSelectAt : ParseAt SelectStatement := do
  let list ← parseSelectListAt
  consumeAt .from_ "expected FROM after select list"
  let source ← parseQualifiedNameAt
  let where_ ← parseWhereAt
  pure ⟨source, list.1, list.2, where_⟩

/-- The choice between the two statement parsers in `parse_sql_script`. -/
def parseStatementAt : ParseAt Statement := do
  if ← matchTokenAt .insert then
    let statement ← parseInsertAt
    pure (.insert statement)
  else if ← matchTokenAt .select then
    let statement ← parseSelectAt
    pure (.select statement)
  else
    failAt "unsupported statement"

/-! ## Every statement moves the index on -/

theorem listLoopAt_le {item : Token → Option Bytes} {message : String} {tokens : List Token}
    {current : Nat} {list : List Bytes} {r : List Bytes × Nat}
    (h : listLoopAt item message tokens current list = .ok r) : current ≤ r.2 := by
  fun_induction listLoopAt item message tokens current list with
  | case1 => cases h
  | case2 => cases h
  | case3 => cases h
  | case4 current list token hread lexeme hitem current' hmatch =>
      cases h
      have hle := matchTokenAt_advances _ _ _ _ _ hmatch
      exact Nat.le_of_succ_le hle
  | case5 current list token hread lexeme hitem current' hmatch ih =>
      have hlt := matchTokenAt_lt hmatch
      have hle := ih h
      omega

theorem parseIdentifierListAt_advances : Advances parseIdentifierListAt :=
  fun _ _ _ _ h => listLoopAt_le h

theorem parseValueListAt_advances : Advances parseValueListAt :=
  fun _ _ _ _ h => listLoopAt_le h

theorem parseQualifiedNameAt_advances : Advances parseQualifiedNameAt := by
  refine (takeTokenAt_advances _ _).bind fun first => ?_
  refine (matchTokenAt_advances _).bind fun dot => Advances.ite dot ?_ (.pure _)
  exact (takeTokenAt_advances _ _).bind fun second => .pure _

theorem parseInsertAt_advances : Advances parseInsertAt := by
  refine (consumeAt_advances _ _).bind fun _ => ?_
  refine parseQualifiedNameAt_advances.bind fun target => ?_
  refine (consumeAt_advances _ _).bind fun _ => ?_
  refine parseIdentifierListAt_advances.bind fun columns => ?_
  refine (consumeAt_advances _ _).bind fun _ => ?_
  refine (consumeAt_advances _ _).bind fun _ => ?_
  refine (consumeAt_advances _ _).bind fun _ => ?_
  refine parseValueListAt_advances.bind fun values => ?_
  exact (consumeAt_advances _ _).bind fun _ => .pure _

theorem parseWhereAt_advances : Advances parseWhereAt := by
  refine (matchTokenAt_advances _).bind fun where_ => Advances.ite where_ ?_ (.pure _)
  refine (takeTokenAt_advances _ _).bind fun column => ?_
  refine (consumeAt_advances _ _).bind fun _ => ?_
  exact (takeTokenAt_advances _ _).bind fun value => .pure _

theorem parseSelectListAt_advances : Advances parseSelectListAt := by
  refine (matchTokenAt_advances _).bind fun star => Advances.ite star (.pure _) ?_
  exact parseIdentifierListAt_advances.bind fun columns => .pure _

theorem parseSelectAt_advances : Advances parseSelectAt := by
  refine parseSelectListAt_advances.bind fun list => ?_
  refine (consumeAt_advances _ _).bind fun _ => ?_
  refine parseQualifiedNameAt_advances.bind fun source => ?_
  exact parseWhereAt_advances.bind fun where_ => .pure _

/-- A keyword, then the parser it stands for. -/
theorem matchTokenAt_bind_lt {α : Type} {type : TokenType} {p q : ParseAt α}
    {tokens : List Token} {current current' : Nat} {x : α} (hp : Advances p)
    (hq : q tokens current = .ok (x, current') → current < current')
    (h : (matchTokenAt type >>= fun b => if b then p else q) tokens current =
      .ok (x, current')) : current < current' := by
  obtain ⟨⟨b, mid⟩, hmatch, h⟩ := bind_eq_ok h
  cases b with
  | true => exact Nat.lt_of_lt_of_le (matchTokenAt_lt hmatch) (hp _ _ _ _ h)
  | false =>
      obtain ⟨token, htoken, hmatch⟩ := bind_eq_ok hmatch
      split at hmatch
      · cases hmatch
      · cases hmatch
        exact hq h

theorem parseStatementAt_lt {tokens : List Token} {current current' : Nat}
    {statement : Statement}
    (h : parseStatementAt tokens current = .ok (statement, current')) : current < current' := by
  refine matchTokenAt_bind_lt (parseInsertAt_advances.bind fun _ => .pure _) ?_ h
  refine matchTokenAt_bind_lt (parseSelectAt_advances.bind fun _ => .pure _) ?_
  intro hfail
  obtain ⟨token, -, hfail⟩ := bind_eq_ok hfail
  cases hfail

/-- The loop of `parse_sql_script`. -/
def parseScriptLoopAt (tokens : List Token) (current : Nat) (script : List Statement) :
    Except Stop (List Statement) :=
  match _hread : peekAt tokens current with
  | .error e => .error e
  | .ok token =>
      if token.type = .end_ then .ok script
      else
        match _hskip : matchTokenAt .semicolon tokens current with
        | .error e => .error e
        | .ok (true, current') => parseScriptLoopAt tokens current' script
        | .ok (false, _) =>
            match _hstmt : parseStatementAt tokens current with
            | .error e => .error e
            | .ok (statement, current') =>
                match _hend : matchTokenAt .semicolon tokens current' with
                | .error e => .error e
                | .ok (_, current'') =>
                    parseScriptLoopAt tokens current'' (script ++ [statement])
  termination_by tokens.length - current
  decreasing_by
    · have := readAt_lt _hread
      have := matchTokenAt_lt _hskip
      omega
    · have := readAt_lt _hread
      have := parseStatementAt_lt _hstmt
      have := matchTokenAt_advances _ _ _ _ _ _hend
      omega

/-- `parse_sql_script`. -/
def parseSqlScriptAt (source : Bytes) : Except Stop (List Statement) := do
  let tokens ← tokenizeSqlAt source
  parseScriptLoopAt tokens 0 []

/-! ## The tokens in front of the index -/

/-- These tokens are left, the last of them the end token. -/
structure Upcoming (tokens : List Token) (current : Nat) (rest : List Token) : Prop where
  ahead : Ahead tokens current rest
  ended : rest.getLast?.map Token.type = some .end_

section Upcoming

variable {tokens rest : List Token} {current : Nat} {t : Token}

theorem Upcoming.peekAt (h : Upcoming tokens current rest) :
    peekAt tokens current = .ok (peek rest) := by
  cases rest with
  | nil => exact absurd rfl h.ahead.ne_nil
  | cons t rest => exact h.ahead.read

/-- Behind another token than the end token stands one more. -/
theorem Upcoming.tail (h : Upcoming tokens current rest) (hne : (peek rest).type ≠ .end_) :
    Upcoming tokens (current + 1) rest.tail := by
  obtain ⟨ts, hts⟩ := peek_eq_cons hne
  rw [hts] at h ⊢
  cases ts with
  | nil =>
      have hlast := h.ended
      simp only [List.getLast?_singleton, Option.map_some, Option.some.injEq] at hlast
      exact absurd hlast hne
  | cons t ts =>
      refine ⟨h.ahead.next (by simp), ?_⟩
      have hlast := h.ended
      rwa [List.getLast?_cons_cons] at hlast

end Upcoming

/-- The same answer, with the index in front of the tokens that are left. -/
inductive Follows {α : Type} (tokens : List Token) :
    Except Stop (α × Nat) → Except SqlError (α × List Token) → Prop where
  | ok {x : α} {current : Nat} {rest : List Token} (upcoming : Upcoming tokens current rest) :
      Follows tokens (.ok (x, current)) (.ok (x, rest))
  | error (e : SqlError) : Follows tokens (.error (.error e)) (.error e)

/-- A parser through the index answers what the parser over the rest does. -/
def Simulates {α : Type} (p : ParseAt α) (q : Parse α) : Prop :=
  ∀ (tokens : List Token) (current : Nat) (rest : List Token),
    Upcoming tokens current rest → Follows tokens (p tokens current) (q rest)

section Simulates

variable {α β : Type} {p p' : ParseAt α} {q q' : Parse α} {k : α → ParseAt β}
  {k' : α → Parse β} {type : TokenType}

theorem Simulates.pure (x : α) : Simulates (pure x) (pure x) :=
  fun _ _ _ h => .ok h

theorem Simulates.bind (h : Simulates p q) (hk : ∀ x, Simulates (k x) (k' x)) :
    Simulates (p >>= k) (q >>= k') := by
  intro tokens current rest hrest
  show Follows tokens ((p tokens current).bind fun r => k r.1 tokens r.2)
    ((q rest).bind fun r => k' r.1 r.2)
  have hfollows := h _ _ _ hrest
  generalize p tokens current = answer at hfollows
  generalize q rest = answer' at hfollows
  cases hfollows with
  | ok upcoming => exact hk _ _ _ _ upcoming
  | error e => exact .error e

theorem Simulates.ite (b : Bool) (h : Simulates p q) (h' : Simulates p' q') :
    Simulates (if b then p else p') (if b then q else q') := by
  cases b with
  | true => exact h
  | false => exact h'

theorem matchTokenAt_eq {tokens rest : List Token} {current : Nat}
    (h : Upcoming tokens current rest) (type : TokenType) :
    matchTokenAt type tokens current =
      if (peek rest).type = type then .ok (true, current + 1) else .ok (false, current) := by
  unfold matchTokenAt
  rw [h.peekAt]
  rfl

theorem matchTokenAt_simulates (htype : type ≠ .end_) :
    Simulates (matchTokenAt type) (matchToken type) := by
  intro tokens current rest h
  rw [matchTokenAt_eq h]
  unfold matchToken
  split
  · rename_i hpeek
    exact .ok (h.tail (by rw [hpeek]; exact htype))
  · exact .ok h

theorem consumeAt_simulates (htype : type ≠ .end_) (message : String) :
    Simulates (consumeAt type message) (consume type message) := by
  intro tokens current rest h
  unfold consumeAt consume
  rw [h.peekAt]
  simp only [bind, Except.bind]
  split
  · rename_i hpeek
    exact .ok (h.tail (by rw [hpeek]; exact htype))
  · exact .error _

theorem takeTokenAt_simulates {item : Token → Option Bytes}
    (hitem : ∀ t x, item t = some x → t.type ≠ .end_) (message : String) :
    Simulates (takeTokenAt item message) (takeToken item message) := by
  intro tokens current rest h
  unfold takeTokenAt takeToken
  rw [h.peekAt]
  simp only [bind, Except.bind]
  cases hlexeme : item (peek rest) with
  | none => exact .error _
  | some lexeme => exact .ok (h.tail (hitem _ _ hlexeme))

theorem failAt_simulates (message : String) :
    Simulates (failAt message : ParseAt α)
      (fun tokens => .error ((peek tokens).fault message)) := by
  intro tokens current rest h
  unfold failAt
  rw [h.peekAt]
  exact .error _

end Simulates

/-! ## The lists -/

section Lists

variable {item : Token → Option Bytes} {message : String} {tokens rest : List Token}
  {current : Nat} {list : List Bytes}

theorem listLoopAt_of_none (h : Upcoming tokens current rest) (hitem : item (peek rest) = none) :
    listLoopAt item message tokens current list =
      .error (.error ((peek rest).fault message)) := by
  rw [listLoopAt.eq_def]
  split
  · rename_i hread
    rw [h.peekAt] at hread
    cases hread
  · rename_i token hread
    rw [h.peekAt] at hread
    cases hread
    rw [hitem]

theorem listLoopAt_of_some {lexeme : Bytes} (h : Upcoming tokens current rest)
    (hitem : item (peek rest) = some lexeme) (hne : (peek rest).type ≠ .end_) :
    listLoopAt item message tokens current list =
      if (peek rest.tail).type = .comma then
        listLoopAt item message tokens (current + 2) (list ++ [lexeme])
      else .ok (list ++ [lexeme], current + 1) := by
  rw [listLoopAt.eq_def]
  split
  · rename_i hread
    rw [h.peekAt] at hread
    cases hread
  · rename_i token hread
    rw [h.peekAt] at hread
    cases hread
    rw [hitem]
    simp only []
    have hmatch := matchTokenAt_eq (h.tail hne) .comma
    split
    · rename_i heq
      rw [hmatch] at heq
      split at heq <;> cases heq
    · rename_i heq
      rw [hmatch] at heq
      split at heq
      · cases heq
      · rename_i hcomma
        cases heq
        rw [if_neg hcomma]
    · rename_i heq
      rw [hmatch] at heq
      split at heq
      · rename_i hcomma
        cases heq
        rw [if_pos hcomma]
      · cases heq

/-- The list so far in front of the one that is left. -/
theorem listLoopAt_follows (hitem : ∀ t x, item t = some x → t.type ≠ .end_)
    (h : Upcoming tokens current rest) (list : List Bytes) :
    Follows tokens (listLoopAt item message tokens current list)
      ((sepBy1 item (·.type == .comma) (fun t => (t.getD pastEnd).fault message) rest).map
        fun r => (list ++ r.1, r.2)) := by
  fun_induction sepBy1 item (·.type == .comma) (fun t => (t.getD pastEnd).fault message) rest
    generalizing current list with
  | case1 => exact absurd rfl h.ahead.ne_nil
  | case2 t rest hnone =>
      rw [listLoopAt_of_none h hnone]
      exact .error _
  | case3 t lexeme hsome =>
      have hlast := h.ended
      rw [List.getLast?_singleton] at hlast
      exact absurd (Option.some.inj hlast) (hitem t lexeme hsome)
  | case4 t lexeme hsome s rest hcomma e hrest ih =>
      have hcomma' : (peek (t :: s :: rest).tail).type = .comma := beq_iff_eq.mp hcomma
      have hnext := (h.tail (hitem t lexeme hsome)).tail (by rw [hcomma']; decide)
      rw [listLoopAt_of_some h hsome (hitem t lexeme hsome), if_pos hcomma']
      have hfollows := ih hnext (list ++ [lexeme])
      rw [hrest] at hfollows
      exact hfollows
  | case5 t lexeme hsome s rest hcomma xs rest' hrest ih =>
      have hcomma' : (peek (t :: s :: rest).tail).type = .comma := beq_iff_eq.mp hcomma
      have hnext := (h.tail (hitem t lexeme hsome)).tail (by rw [hcomma']; decide)
      rw [listLoopAt_of_some h hsome (hitem t lexeme hsome), if_pos hcomma']
      have hfollows := ih hnext (list ++ [lexeme])
      rw [hrest] at hfollows
      simpa [Except.map] using hfollows
  | case6 t lexeme hsome s rest hcomma =>
      have hcomma' : ¬ (peek (t :: s :: rest).tail).type = .comma :=
        fun heq => hcomma (beq_iff_eq.mpr heq)
      rw [listLoopAt_of_some h hsome (hitem t lexeme hsome), if_neg hcomma']
      exact .ok (h.tail (hitem t lexeme hsome))

theorem listAt_simulates (hitem : ∀ t x, item t = some x → t.type ≠ .end_)
    (message : String) :
    Simulates (fun tokens current => listLoopAt item message tokens current [])
      (sepBy1 item (·.type == .comma) fun t => (t.getD pastEnd).fault message) := by
  intro tokens current rest h
  have hfollows : Follows tokens (listLoopAt item message tokens current []) _ :=
    listLoopAt_follows hitem h []
  generalize sepBy1 item (·.type == .comma) (fun t => (t.getD pastEnd).fault message) rest =
    answer at hfollows ⊢
  cases answer with
  | error e => exact hfollows
  | ok r => exact hfollows

end Lists

/-! ## The parsers -/

theorem parseIdentifierListAt_simulates :
    Simulates parseIdentifierListAt parseIdentifierList :=
  listAt_simulates (fun _ _ => identLexeme_ne_end) _

theorem parseValueListAt_simulates : Simulates parseValueListAt parseValueList :=
  listAt_simulates (fun _ _ => valueLexeme_ne_end) _

theorem parseQualifiedNameAt_simulates :
    Simulates parseQualifiedNameAt parseQualifiedName := by
  refine (takeTokenAt_simulates (fun _ _ => identLexeme_ne_end) _).bind fun first => ?_
  refine (matchTokenAt_simulates (by decide)).bind fun dot => Simulates.ite dot ?_ (.pure _)
  refine (takeTokenAt_simulates (fun _ _ => identLexeme_ne_end) _).bind fun second => ?_
  exact .pure _

theorem parseInsertAt_simulates : Simulates parseInsertAt parseInsert := by
  refine (consumeAt_simulates (by decide) _).bind fun _ => ?_
  refine parseQualifiedNameAt_simulates.bind fun target => ?_
  refine (consumeAt_simulates (by decide) _).bind fun _ => ?_
  refine parseIdentifierListAt_simulates.bind fun columns => ?_
  refine (consumeAt_simulates (by decide) _).bind fun _ => ?_
  refine (consumeAt_simulates (by decide) _).bind fun _ => ?_
  refine (consumeAt_simulates (by decide) _).bind fun _ => ?_
  refine parseValueListAt_simulates.bind fun values => ?_
  exact (consumeAt_simulates (by decide) _).bind fun _ => .pure _

theorem parseWhereAt_simulates : Simulates parseWhereAt parseWhere := by
  refine (matchTokenAt_simulates (by decide)).bind fun where_ =>
    Simulates.ite where_ ?_ (.pure _)
  refine (takeTokenAt_simulates (fun _ _ => identLexeme_ne_end) _).bind fun column => ?_
  refine (consumeAt_simulates (by decide) _).bind fun _ => ?_
  refine (takeTokenAt_simulates (fun _ _ => valueLexeme_ne_end) _).bind fun value => ?_
  exact .pure _

theorem parseSelectListAt_simulates : Simulates parseSelectListAt parseSelectList := by
  refine (matchTokenAt_simulates (by decide)).bind fun star => Simulates.ite star (.pure _) ?_
  exact parseIdentifierListAt_simulates.bind fun columns => .pure _

theorem parseSelectAt_simulates : Simulates parseSelectAt parseSelect := by
  refine parseSelectListAt_simulates.bind fun list => ?_
  refine (consumeAt_simulates (by decide) _).bind fun _ => ?_
  refine parseQualifiedNameAt_simulates.bind fun source => ?_
  exact parseWhereAt_simulates.bind fun where_ => .pure _

theorem parseStatementAt_simulates : Simulates parseStatementAt parseStatement := by
  refine (matchTokenAt_simulates (by decide)).bind fun insert => Simulates.ite insert ?_ ?_
  · exact parseInsertAt_simulates.bind fun statement => .pure _
  · refine (matchTokenAt_simulates (by decide)).bind fun select => Simulates.ite select ?_ ?_
    · exact parseSelectAt_simulates.bind fun statement => .pure _
    · exact failAt_simulates _

/-! ## Scripts -/

/-- The answer of a parse as that of one that may stop. -/
def ParseOutcome.orStop (outcome : ParseOutcome) : Except Stop (List Statement) :=
  match outcome.result with
  | .ok () => .ok outcome.script
  | .error e => .error (.error e)

/-- `match` with its answer ignored. -/
theorem Upcoming.skipToken {tokens rest : List Token} {current current' : Nat} {b : Bool}
    (h : Upcoming tokens current rest) {type : TokenType} (htype : type ≠ .end_)
    (hmatch : matchTokenAt type tokens current = .ok (b, current')) :
    Upcoming tokens current' (skipToken type rest) := by
  rw [matchTokenAt_eq h] at hmatch
  unfold MiniSql.skipToken
  split at hmatch
  · rename_i hpeek
    cases hmatch
    rw [if_pos hpeek]
    exact h.tail (by rw [hpeek]; exact htype)
  · rename_i hpeek
    cases hmatch
    rw [if_neg hpeek]
    exact h

/-- A token that was not matched has another type. -/
theorem Upcoming.type_ne {tokens rest : List Token} {current current' : Nat}
    (h : Upcoming tokens current rest) {type : TokenType}
    (hmatch : matchTokenAt type tokens current = .ok (false, current')) :
    (peek rest).type ≠ type := by
  intro heq
  rw [matchTokenAt_eq h, if_pos heq] at hmatch
  cases hmatch

/-- A whole run of the loop, by induction on it. -/
theorem parseScriptLoopAt_eq {tokens rest : List Token} {current : Nat}
    (h : Upcoming tokens current rest) (script : List Statement) :
    parseScriptLoopAt tokens current script = (parseScriptLoop rest script).orStop := by
  fun_induction parseScriptLoopAt tokens current script generalizing rest with
  | case1 current script e hread =>
      rw [h.peekAt] at hread
      cases hread
  | case2 current script token hread hend =>
      rw [h.peekAt] at hread
      cases hread
      rw [parseScriptLoop_of_end hend]
      rfl
  | case3 current script token hread hend e hskip =>
      rw [matchTokenAt_eq h] at hskip
      split at hskip <;> cases hskip
  | case4 current script token hread hend current' hskip ih =>
      rw [matchTokenAt_eq h] at hskip
      split at hskip
      · rename_i hsemicolon
        cases hskip
        rw [parseScriptLoop_of_semicolon hsemicolon]
        exact ih (h.tail (by rw [hsemicolon]; decide))
      · cases hskip
  | case5 current script token hread hend current' hskip e hstmt =>
      rw [h.peekAt] at hread
      cases hread
      have hsemicolon := h.type_ne hskip
      have hfollows := parseStatementAt_simulates _ _ _ h
      rw [hstmt] at hfollows
      generalize hstmt' : parseStatement rest = answer at hfollows
      cases hfollows with
      | error e =>
          rw [parseScriptLoop_of_error hend hsemicolon hstmt']
          rfl
  | case6 current script token hread hend _ hskip statement current' hstmt e hlast =>
      have hfollows := parseStatementAt_simulates _ _ _ h
      rw [hstmt] at hfollows
      generalize parseStatement rest = answer at hfollows
      cases hfollows with
      | ok upcoming =>
          rw [matchTokenAt_eq upcoming] at hlast
          split at hlast <;> cases hlast
  | case7 current script token hread hend _ hskip statement current' hstmt b current'' hlast ih =>
      rw [h.peekAt] at hread
      cases hread
      have hsemicolon := h.type_ne hskip
      have hfollows := parseStatementAt_simulates _ _ _ h
      rw [hstmt] at hfollows
      generalize hstmt' : parseStatement rest = answer at hfollows
      cases hfollows with
      | ok upcoming =>
          rw [parseScriptLoop_of_ok hend hsemicolon hstmt']
          exact ih (upcoming.skipToken (by decide) hlast)

/-- What `parse_sql_script` computes through its two indexes. -/
theorem parseSqlScriptAt_eq {source : Bytes} (h : NulFree source) :
    parseSqlScriptAt source = (parseSqlScript source).orStop := by
  unfold parseSqlScriptAt parseSqlScript
  rw [tokenizeSqlAt_eq h]
  cases htokens : tokenizeSql source with
  | error e => rfl
  | ok tokens =>
      have hended : tokens.getLast?.map Token.type = some .end_ := by
        unfold tokenizeSql at htokens
        split at htokens
        · cases htokens
        · cases htokens
          simp
      have hstart : Upcoming tokens 0 tokens := by
        refine ⟨.start ?_, hended⟩
        rintro rfl
        simp at hended
      exact parseScriptLoopAt_eq hstart []

/-- The tokenizer and the parser finish on every source, and no read of either is behind the
terminator or behind the end token: both compute what they compute without an index. -/
theorem parseSqlScript_in_bounds {source : Bytes} (h : NulFree source) :
    (tokenizeSqlAt source = (tokenizeSql source).mapError .error ∧
      parseSqlScriptAt source = (parseSqlScript source).orStop) ∧
    ∀ index, tokenizeSqlAt source ≠ .error (.behindSource index) ∧
      parseSqlScriptAt source ≠ .error (.behindSource index) ∧
      parseSqlScriptAt source ≠ .error (.behindTokens index) := by
  refine ⟨⟨tokenizeSqlAt_eq h, parseSqlScriptAt_eq h⟩, fun index => ?_⟩
  rw [tokenizeSqlAt_eq h, parseSqlScriptAt_eq h]
  refine ⟨?_, ?_, ?_⟩
  · cases tokenizeSql source <;> simp [Except.mapError]
  · unfold ParseOutcome.orStop
    cases (parseSqlScript source).result <;> simp
  · unfold ParseOutcome.orStop
    cases (parseSqlScript source).result <;> simp

/-- A source that ends on the star of a comment's end. -/
theorem parseSqlScript_in_bounds_comment :
    NulFree (ascii "SELECT a /* *") ∧
      parseSqlScriptAt (ascii "SELECT a /* *") = .error (.error .unterminatedBlockComment) :=
  ⟨by decide, (parseSqlScript_in_bounds (by decide)).1.2.trans (by decide +kernel)⟩

/-- Sources that end behind a quote, a dash, a slash and in the middle of a statement. -/
example :
    tokenizeSqlAt (ascii "''''") = .ok [⟨.string, [quote], 1, 1⟩, ⟨.end_, [], 1, 4⟩] ∧
    tokenizeSqlAt (ascii "'''") =
      .error (.error (.atPosition "unterminated string literal" 1 1)) ∧
    tokenizeSqlAt (ascii "-") = .error (.error (.unexpectedCharacter minus 1 1)) ∧
    tokenizeSqlAt (ascii "/") = .error (.error (.unexpectedCharacter slash 1 1)) ∧
    (parseSqlScriptAt (ascii "INSERT INTO t (a,")).toOption = none := by
  decide +kernel

end MiniSql
