import MiniSql.Parser.Grammar
import MiniSql.Parser.Lexical

set_option autoImplicit false

/-!
# The parser (`parse_sql_script`)

`parser.current` is modelled by the suffix of the tokens that is still to be
read.  The parser stops in front of the end token, which is the last token of
every list `tokenize_sql` answers; `pastEnd` stands for a read behind it.
-/

namespace MiniSql

open Foundation

/-- The state of a `Parser` is the tokens in front of it. -/
abbrev Parse (α : Type) : Type := Step Token SqlError α

def pastEnd : Token := ⟨.end_, [], 0, 0⟩

/-- `peek`. -/
def peek (tokens : List Token) : Token := tokens.headD pastEnd

/-- An error message at a token. -/
def Token.fault (t : Token) (message : String) : SqlError :=
  .atPosition message t.line t.column

/-- `match`. -/
def matchToken (type : TokenType) : Parse Bool := fun tokens =>
  if (peek tokens).type = type then .ok (true, tokens.tail) else .ok (false, tokens)

/-- A test of the token in front, the message when it fails, and the step past
the token when it holds. -/
def takeToken (item : Token → Option Bytes) (message : String) : Parse Bytes :=
  fun tokens =>
    match item (peek tokens) with
    | none => .error ((peek tokens).fault message)
    | some lexeme => .ok (lexeme, tokens.tail)

/-- `consume`. -/
def consume (type : TokenType) (message : String) : Parse Unit := fun tokens =>
  if (peek tokens).type = type then .ok ((), tokens.tail)
  else .error ((peek tokens).fault message)

/-- `parse_identifier_list`. -/
def parseIdentifierList : Parse (List Bytes) :=
  sepBy1 identLexeme (·.type == .comma)
    (fun t => (t.getD pastEnd).fault "expected identifier")

/-- `parse_value_list`. -/
def parseValueList : Parse (List Bytes) :=
  sepBy1 valueLexeme (·.type == .comma)
    (fun t => (t.getD pastEnd).fault "expected literal value")

/-- `parse_qualified_name`. -/
def parseQualifiedName : Parse QualifiedName := do
  let first ← takeToken identLexeme "expected table name"
  if ← matchToken .dot then
    let second ← takeToken identLexeme "expected identifier after '.'"
    pure ⟨some first, some second⟩
  else
    pure ⟨none, some first⟩

/-- `parse_insert`. -/
def parseInsert : Parse InsertStatement := do
  consume .into "expected INTO after INSERT"
  let target ← parseQualifiedName
  consume .lparen "expected '(' after table name"
  let columns ← parseIdentifierList
  consume .rparen "expected ')' after column list"
  consume .values "expected VALUES keyword"
  consume .lparen "expected '(' before VALUES list"
  let values ← parseValueList
  consume .rparen "expected ')' after VALUES list"
  pure ⟨target, columns, values⟩

/-- The `WHERE` part of `parse_select`. -/
def parseWhere : Parse (Option WhereClause) := do
  if ← matchToken .where_ then
    let column ← takeToken identLexeme "expected column name after WHERE"
    consume .equal "expected '=' inside WHERE clause"
    let value ← takeToken valueLexeme "expected literal after '='"
    pure (some ⟨column, value⟩)
  else
    pure none

/-- The select list of `parse_select`. -/
def parseSelectList : Parse (Bool × List Bytes) := do
  if ← matchToken .star then
    pure (true, [])
  else
    let columns ← parseIdentifierList
    pure (false, columns)

/-- `parse_select`. -/
def parseSelect : Parse SelectStatement := do
  let list ← parseSelectList
  consume .from_ "expected FROM after select list"
  let source ← parseQualifiedName
  let where_ ← parseWhere
  pure ⟨source, list.1, list.2, where_⟩

/-- The choice between the two statement parsers in `parse_sql_script`. -/
def parseStatement : Parse Statement := do
  if ← matchToken .insert then
    let statement ← parseInsert
    pure (.insert statement)
  else if ← matchToken .select then
    let statement ← parseSelect
    pure (.select statement)
  else
    fun tokens => .error ((peek tokens).fault "unsupported statement")

/-! ## The parts against the grammar -/

section Parts

variable {type : TokenType} {message : String} {item : Token → Option Bytes}

/-- What follows a derivation does not begin with a token of this type. -/
def NotBefore (type : TokenType) (rest : List Token) : Prop := (peek rest).type ≠ type

@[simp] theorem peek_cons (t : Token) (ts : List Token) : peek (t :: ts) = t := rfl

@[simp] theorem peek_append_cons (b : List Token) (t : Token) (ts : List Token) :
    peek (b ++ t :: ts) = peek (b ++ [t]) := by
  cases b <;> rfl

theorem peek_eq_cons {tokens : List Token} (h : (peek tokens).type ≠ .end_) :
    ∃ ts, tokens = peek tokens :: ts := by
  cases tokens with
  | nil => exact absurd rfl h
  | cons t ts => exact ⟨ts, rfl⟩

theorem consume_sound (h : type ≠ .end_) :
    Sound (Terminal type) (consume type message) := by
  intro tokens x rest hok
  unfold consume at hok
  split at hok
  · rename_i htype
    obtain ⟨ts, hts⟩ : ∃ ts, tokens = peek tokens :: ts :=
      peek_eq_cons (by rw [htype]; exact h)
    have hrest : tokens.tail = rest := by simpa using hok
    refine ⟨[peek tokens], ?_, peek tokens, rfl, htype⟩
    rw [← hrest, hts]
    rfl
  · simp at hok

theorem consume_complete :
    CompleteBefore (fun _ => True) (Terminal type) (consume type message) := by
  intro b x rest h _
  obtain ⟨t, rfl, ht⟩ := h
  simp [consume, ht]

/-- The single-token grammar `takeToken` reads. -/
def Item (item : Token → Option Bytes) : Grammar Token Bytes :=
  fun b x => ∃ t, b = [t] ∧ item t = some x

theorem takeToken_sound (h : item pastEnd = none) :
    Sound (Item item) (takeToken item message) := by
  intro tokens x rest hok
  unfold takeToken at hok
  split at hok
  · simp at hok
  · rename_i lexeme hitem
    obtain ⟨rfl, hrest⟩ : lexeme = x ∧ tokens.tail = rest := by simpa using hok
    cases tokens with
    | nil => simp [peek, h] at hitem
    | cons t ts => exact ⟨[t], by simp [← hrest], t, rfl, hitem⟩

theorem takeToken_complete :
    CompleteBefore (fun _ => True) (Item item) (takeToken item message) := by
  intro b x rest h _
  obtain ⟨t, rfl, ht⟩ := h
  simp [takeToken, ht]

theorem parseIdentifierList_sound : Sound IdentList parseIdentifierList := by
  refine sepBy1_sound.mono ?_
  intro b xs h
  simpa [IdentList] using h

theorem parseIdentifierList_complete :
    CompleteBefore (NotBefore .comma) IdentList parseIdentifierList := by
  refine sepBy1_complete.mono ?_ ?_
  · intro b xs h
    simpa [IdentList] using h
  · intro rest h s hs
    obtain ⟨ts, rfl⟩ := exists_cons_of_mem_head? hs
    simpa [NotBefore] using h

theorem parseValueList_sound : Sound ValueList parseValueList := by
  refine sepBy1_sound.mono ?_
  intro b xs h
  simpa [ValueList] using h

theorem parseValueList_complete :
    CompleteBefore (NotBefore .comma) ValueList parseValueList := by
  refine sepBy1_complete.mono ?_ ?_
  · intro b xs h
    simpa [ValueList] using h
  · intro rest h s hs
    obtain ⟨ts, rfl⟩ := exists_cons_of_mem_head? hs
    simpa [NotBefore] using h

/-- One token, then the rest. -/
theorem Foundation.Seq.token {α : Type} {H : Unit → Grammar Token α} {t : Token}
    {b : List Token} {y : α} (ht : t.type = type) (h : H () b y) :
    Seq (Terminal type) H (t :: b) y :=
  ⟨[t], b, (), rfl, ⟨t, rfl, ht⟩, h⟩

theorem Foundation.Seq.lexeme {α : Type} {H : Bytes → Grammar Token α} {t : Token} {x : Bytes}
    {b : List Token} {y : α} (ht : item t = some x) (h : H x b y) :
    Seq (Item item) H (t :: b) y :=
  ⟨[t], b, x, rfl, ⟨t, rfl, ht⟩, h⟩

theorem seq_terminal_iff {α : Type} {H : Unit → Grammar Token α} {b : List Token} {y : α} :
    Seq (Terminal type) H b y ↔ ∃ t b', b = t :: b' ∧ t.type = type ∧ H () b' y := by
  constructor
  · intro h
    obtain ⟨b₁, b₂, _, rfl, ⟨t, rfl, ht⟩, hH⟩ := h
    exact ⟨t, b₂, rfl, ht, hH⟩
  · intro h
    obtain ⟨t, b', rfl, ht, hH⟩ := h
    exact .token ht hH

theorem seq_item_iff {α : Type} {H : Bytes → Grammar Token α} {b : List Token} {y : α} :
    Seq (Item item) H b y ↔ ∃ t b' x, b = t :: b' ∧ item t = some x ∧ H x b' y := by
  constructor
  · intro h
    obtain ⟨b₁, b₂, x, rfl, ⟨t, rfl, ht⟩, hH⟩ := h
    exact ⟨t, b₂, x, rfl, ht, hH⟩
  · intro h
    obtain ⟨t, b', x, rfl, ht, hH⟩ := h
    exact .lexeme ht hH

/-- A test of the token in front and the parser each way takes. -/
theorem matchToken_bind_eq {α : Type} (type : TokenType) (k : Bool → Parse α)
    (tokens : List Token) :
    (matchToken type >>= k) tokens =
      if (peek tokens).type = type then k true tokens.tail else k false tokens := by
  show (matchToken type tokens).bind (fun a => k a.1 a.2) = _
  unfold matchToken
  split <;> rfl

/-- Either a token of this type and a derivation of `G`, or a derivation of `H`. -/
def Choice {α : Type} (type : TokenType) (G H : Grammar Token α) : Grammar Token α :=
  fun b x => (∃ t b', b = t :: b' ∧ t.type = type ∧ G b' x) ∨ H b x

theorem Choice.first {α : Type} {G H : Grammar Token α} {t : Token} {b : List Token} {x : α}
    (ht : t.type = type) (h : G b x) : Choice type G H (t :: b) x :=
  .inl ⟨t, b, rfl, ht, h⟩

theorem matchToken_sound {α : Type} {G H : Grammar Token α} {p q : Parse α}
    (htype : type ≠ .end_) (hp : Sound G p) (hq : Sound H q) :
    Sound (Choice type G H) (do if ← matchToken type then p else q) := by
  intro tokens x rest hok
  rw [matchToken_bind_eq] at hok
  split at hok
  · rename_i hpeek
    obtain ⟨ts, hts⟩ : ∃ ts, tokens = peek tokens :: ts :=
      peek_eq_cons (by rw [hpeek]; exact htype)
    obtain ⟨b, hb, hG⟩ := hp _ _ _ hok
    refine ⟨peek tokens :: b, ?_, .inl ⟨_, b, rfl, hpeek, hG⟩⟩
    rw [List.cons_append, ← hb, hts]
    rfl
  · obtain ⟨b, hb, hH⟩ := hq _ _ _ hok
    exact ⟨b, hb, .inr hH⟩

theorem matchToken_complete {α : Type} {F : List Token → Prop} {G H : Grammar Token α}
    {p q : Parse α} (hp : CompleteBefore F G p) (hq : CompleteBefore F H q)
    (hfirst : ∀ b x rest, H b x → F rest → NotBefore type (b ++ rest)) :
    CompleteBefore F (Choice type G H) (do if ← matchToken type then p else q) := by
  intro b x rest h hrest
  rw [matchToken_bind_eq]
  rcases h with ⟨t, b', rfl, ht, hG⟩ | hH
  · rw [if_pos (by simpa using ht)]
    exact hp b' x rest hG hrest
  · rw [if_neg (hfirst b x rest hH hrest)]
    exact hq b x rest hH hrest

end Parts

theorem identLexeme_pastEnd : identLexeme pastEnd = none := by decide

theorem valueLexeme_pastEnd : valueLexeme pastEnd = none := by decide

/-! ## Names -/

/-- The two shapes of a name, as the parser goes through them. -/
theorem name_iff {b : List Token} {name : QualifiedName} :
    Name b name ↔ Seq (Item identLexeme) (fun first =>
      Choice .dot (Seq (Item identLexeme) fun second => Empty ⟨some first, some second⟩)
        (Empty ⟨none, some first⟩)) b name := by
  constructor
  · intro h
    cases h with
    | table htable => exact .lexeme htable (.inr (.intro _))
    | qualified hschema hdot htable =>
        exact .lexeme hschema (.first hdot (.lexeme htable (.intro _)))
  · intro h
    obtain ⟨s, b', first, rfl, hs, hchoice⟩ := seq_item_iff.mp h
    rcases hchoice with ⟨d, b', rfl, hdot, h⟩ | ⟨rfl, rfl⟩
    · obtain ⟨t, b', second, rfl, ht, rfl, rfl⟩ := seq_item_iff.mp h
      exact .qualified hs hdot ht
    · exact .table hs

theorem parseQualifiedName_sound : Sound Name parseQualifiedName := by
  refine Sound.mono ?_ fun b name h => name_iff.mpr h
  refine (takeToken_sound identLexeme_pastEnd).bind fun first => ?_
  refine matchToken_sound (by decide) ?_ (Sound.pure _)
  exact (takeToken_sound identLexeme_pastEnd).bind fun second => Sound.pure _

theorem parseQualifiedName_complete :
    CompleteBefore (NotBefore .dot) Name parseQualifiedName := by
  refine CompleteBefore.mono ?_ (fun b name h => name_iff.mp h) (fun rest h => h)
  refine takeToken_complete.andThen fun first => ?_
  refine matchToken_complete ?_ ?_ ?_
  · exact (takeToken_complete.returning _).weaken
  · exact (CompleteBefore.pure _).weaken
  · intro b name rest h hrest
    obtain ⟨rfl, -⟩ := h
    exact hrest

/-! ## INSERT -/

/-- What begins with a token of one type does not begin with another. -/
theorem Seq.notBefore {α : Type} {type other : TokenType} {H : Unit → Grammar Token α}
    {b : List Token} {y : α} (h : Seq (Terminal type) H b y) (hne : type ≠ other)
    (rest : List Token) : NotBefore other (b ++ rest) := by
  obtain ⟨t, b', rfl, ht, -⟩ := seq_terminal_iff.mp h
  simp [NotBefore, ht, hne]

/-- An INSERT, as the parser goes through it. -/
theorem insertTail_iff {b : List Token} {statement : InsertStatement} :
    InsertTail b statement ↔
      Seq (Terminal .into) (fun _ => Seq Name fun target =>
        Seq (Terminal .lparen) fun _ => Seq IdentList fun columns =>
        Seq (Terminal .rparen) fun _ => Seq (Terminal .values) fun _ =>
        Seq (Terminal .lparen) fun _ => Seq ValueList fun values =>
        Seq (Terminal .rparen) fun _ => Empty ⟨target, columns, values⟩) b statement := by
  constructor
  · intro h
    cases h with
    | mk hinto hname hlp hcolumns hrp hvalues hlp' hliterals hrp' =>
        refine .token hinto (.intro hname (.token hlp (.intro hcolumns ?_)))
        exact .token hrp (.token hvalues (.token hlp' (.intro hliterals
          (.token hrp' (.intro _)))))
  · intro h
    obtain ⟨_, _, rfl, hinto, _, _, target, rfl, hname, h⟩ := seq_terminal_iff.mp h
    obtain ⟨_, _, rfl, hlp, _, _, columns, rfl, hcolumns, h⟩ := seq_terminal_iff.mp h
    obtain ⟨_, _, rfl, hrp, h⟩ := seq_terminal_iff.mp h
    obtain ⟨_, _, rfl, hvalues, h⟩ := seq_terminal_iff.mp h
    obtain ⟨_, _, rfl, hlp', _, _, values, rfl, hliterals, h⟩ := seq_terminal_iff.mp h
    obtain ⟨_, _, rfl, hrp', rfl, rfl⟩ := seq_terminal_iff.mp h
    exact .mk hinto hname hlp hcolumns hrp hvalues hlp' hliterals hrp'

theorem parseInsert_sound : Sound InsertTail parseInsert := by
  refine Sound.mono ?_ fun b statement h => insertTail_iff.mpr h
  refine (consume_sound (by decide)).bind fun _ => ?_
  refine parseQualifiedName_sound.bind fun target => ?_
  refine (consume_sound (by decide)).bind fun _ => ?_
  refine parseIdentifierList_sound.bind fun columns => ?_
  refine (consume_sound (by decide)).bind fun _ => ?_
  refine (consume_sound (by decide)).bind fun _ => ?_
  refine (consume_sound (by decide)).bind fun _ => ?_
  refine parseValueList_sound.bind fun values => ?_
  exact (consume_sound (by decide)).bind fun _ => Sound.pure _

theorem parseInsert_complete :
    CompleteBefore (fun _ => True) InsertTail parseInsert := by
  refine CompleteBefore.mono ?_ (fun b statement h => insertTail_iff.mp h) fun _ h => h
  refine consume_complete.andThen fun _ => ?_
  refine parseQualifiedName_complete.bind (fun target => ?_) fun _ _ _ rest h _ =>
    Seq.notBefore h (by decide) rest
  refine consume_complete.andThen fun _ => ?_
  refine parseIdentifierList_complete.bind (fun columns => ?_) fun _ _ _ rest h _ =>
    Seq.notBefore h (by decide) rest
  refine consume_complete.andThen fun _ => ?_
  refine consume_complete.andThen fun _ => ?_
  refine consume_complete.andThen fun _ => ?_
  refine parseValueList_complete.bind (fun values => ?_) fun _ _ _ rest h _ =>
    Seq.notBefore h (by decide) rest
  exact consume_complete.returning _

/-! ## SELECT -/

theorem selectList_iff {b : List Token} {list : Bool × List Bytes} :
    SelectList b list ↔
      Choice .star (Empty (true, []))
        (Seq IdentList fun columns => Empty (false, columns)) b list := by
  constructor
  · intro h
    cases h with
    | all hstar => exact .first hstar (.intro _)
    | columns hcolumns => exact .inr (seq_empty_iff.mpr ⟨_, hcolumns, rfl⟩)
  · intro h
    rcases h with ⟨t, b', rfl, hstar, rfl, rfl⟩ | h
    · exact .all hstar
    · obtain ⟨columns, hcolumns, rfl⟩ := seq_empty_iff.mp h
      exact .columns hcolumns

theorem where_iff {b : List Token} {where_ : Option WhereClause} :
    Where b where_ ↔
      Choice .where_ (Seq (Item identLexeme) fun column => Seq (Terminal .equal) fun _ =>
        Seq (Item valueLexeme) fun value => Empty (some ⟨column, value⟩))
        (Empty none) b where_ := by
  constructor
  · intro h
    cases h with
    | absent => exact .inr (.intro _)
    | present hwhere hcolumn hequal hvalue =>
        exact .first hwhere (.lexeme hcolumn (.token hequal (.lexeme hvalue (.intro _))))
  · intro h
    rcases h with ⟨w, b', rfl, hwhere, h⟩ | ⟨rfl, rfl⟩
    · obtain ⟨_, _, column, rfl, hcolumn, h⟩ := seq_item_iff.mp h
      obtain ⟨_, _, rfl, hequal, h⟩ := seq_terminal_iff.mp h
      obtain ⟨_, _, value, rfl, hvalue, rfl, rfl⟩ := seq_item_iff.mp h
      exact .present hwhere hcolumn hequal hvalue
    · exact .absent

/-- A SELECT, as the parser goes through it. -/
theorem selectTail_iff {b : List Token} {statement : SelectStatement} :
    SelectTail b statement ↔
      Seq SelectList (fun list => Seq (Terminal .from_) fun _ => Seq Name fun source =>
        Seq Where fun where_ => Empty ⟨source, list.1, list.2, where_⟩) b statement := by
  constructor
  · intro h
    cases h with
    | mk hlist hfrom hname hwhere =>
        exact .intro hlist (.token hfrom (.intro hname
          (seq_empty_iff.mpr ⟨_, hwhere, rfl⟩)))
  · intro h
    obtain ⟨_, _, list, rfl, hlist, h⟩ := h
    obtain ⟨_, _, rfl, hfrom, _, _, source, rfl, hname, h⟩ := seq_terminal_iff.mp h
    obtain ⟨where_, hwhere, rfl⟩ := seq_empty_iff.mp h
    exact .mk hlist hfrom hname hwhere

theorem parseSelectList_sound : Sound SelectList parseSelectList := by
  refine Sound.mono ?_ fun b list h => selectList_iff.mpr h
  refine matchToken_sound (by decide) (Sound.pure _) ?_
  exact parseIdentifierList_sound.bind fun columns => Sound.pure _

theorem parseWhere_sound : Sound Where parseWhere := by
  refine Sound.mono ?_ fun b where_ h => where_iff.mpr h
  refine matchToken_sound (by decide) ?_ (Sound.pure _)
  refine (takeToken_sound identLexeme_pastEnd).bind fun column => ?_
  refine (consume_sound (by decide)).bind fun _ => ?_
  exact (takeToken_sound valueLexeme_pastEnd).bind fun value => Sound.pure _

theorem parseSelect_sound : Sound SelectTail parseSelect := by
  refine Sound.mono ?_ fun b statement h => selectTail_iff.mpr h
  refine parseSelectList_sound.bind fun list => ?_
  refine (consume_sound (by decide)).bind fun _ => ?_
  refine parseQualifiedName_sound.bind fun source => ?_
  exact parseWhere_sound.bind fun where_ => Sound.pure _

/-- A list of identifiers begins with one. -/
theorem IdentList.notBefore {b : List Token} {xs : List Bytes} (h : IdentList b xs)
    {type : TokenType} (hne : type ≠ .identifier) (rest : List Token) :
    NotBefore type (b ++ rest) := by
  cases h with
  | one hitem =>
      simp [NotBefore, (identLexeme_eq_some_iff.mp hitem).1, hne.symm]
  | more hitem _ _ =>
      simp [NotBefore, (identLexeme_eq_some_iff.mp hitem).1, hne.symm]

theorem parseSelectList_complete :
    CompleteBefore (NotBefore .comma) SelectList parseSelectList := by
  refine CompleteBefore.mono ?_ (fun b list h => selectList_iff.mp h) fun _ h => h
  refine matchToken_complete ?_ ?_ ?_
  · exact (CompleteBefore.pure _).weaken
  · exact parseIdentifierList_complete.returning _
  · intro b list rest h _
    obtain ⟨columns, hcolumns, -⟩ := seq_empty_iff.mp h
    exact hcolumns.notBefore (by decide) rest

theorem parseWhere_complete :
    CompleteBefore (NotBefore .where_) Where parseWhere := by
  refine CompleteBefore.mono ?_ (fun b where_ h => where_iff.mp h) fun _ h => h
  refine matchToken_complete ?_ ?_ ?_
  · refine takeToken_complete.andThen fun column => ?_
    refine consume_complete.andThen fun _ => ?_
    exact (takeToken_complete.returning _).weaken
  · exact (CompleteBefore.pure _).weaken
  · intro b where_ rest h hrest
    obtain ⟨rfl, -⟩ := h
    exact hrest

theorem parseSelect_complete :
    CompleteBefore (fun rest => NotBefore .dot rest ∧ NotBefore .where_ rest)
      SelectTail parseSelect := by
  refine CompleteBefore.mono ?_ (fun b statement h => selectTail_iff.mp h) fun _ h => h
  refine parseSelectList_complete.bind (fun list => ?_) fun _ _ _ rest h _ =>
    Seq.notBefore h (by decide) rest
  refine consume_complete.andThen fun _ => ?_
  refine parseQualifiedName_complete.bind (fun source => ?_) ?_
  · exact (parseWhere_complete.returning _).mono (fun _ _ h => h) fun _ h => h.2
  · -- a name is followed by WHERE or by what follows the statement, never by a dot
    intro source b statement rest h hrest
    obtain ⟨where_, hwhere, -⟩ := seq_empty_iff.mp h
    cases hwhere with
    | absent => exact hrest.1
    | present hw _ _ _ => simp [NotBefore, hw]

/-! ## One statement -/

theorem stmt_iff {b : List Token} {statement : Statement} :
    Stmt b statement ↔
      Choice .insert (Seq InsertTail fun s => Empty (.insert s))
        (Choice .select (Seq SelectTail fun s => Empty (.select s))
          fun _ _ => False) b statement := by
  constructor
  · intro h
    cases h with
    | insert hinsert htail => exact .first hinsert (seq_empty_iff.mpr ⟨_, htail, rfl⟩)
    | select hselect htail =>
        exact .inr (.first hselect (seq_empty_iff.mpr ⟨_, htail, rfl⟩))
  · intro h
    rcases h with ⟨t, b', rfl, ht, h⟩ | ⟨t, b', rfl, ht, h⟩ | hfalse
    · obtain ⟨s, htail, rfl⟩ := seq_empty_iff.mp h
      exact .insert ht htail
    · obtain ⟨s, htail, rfl⟩ := seq_empty_iff.mp h
      exact .select ht htail
    · exact hfalse.elim

theorem parseStatement_sound : Sound Stmt parseStatement := by
  refine Sound.mono ?_ fun b statement h => stmt_iff.mpr h
  refine matchToken_sound (by decide) (parseInsert_sound.bind fun s => Sound.pure _) ?_
  refine matchToken_sound (by decide) (parseSelect_sound.bind fun s => Sound.pure _) ?_
  intro tokens x rest hok
  simp at hok

theorem parseStatement_complete :
    CompleteBefore (fun rest => NotBefore .dot rest ∧ NotBefore .where_ rest)
      Stmt parseStatement := by
  refine CompleteBefore.mono ?_ (fun b statement h => stmt_iff.mp h) fun _ h => h
  refine matchToken_complete ?_ (matchToken_complete ?_ ?_ ?_) ?_
  · exact (parseInsert_complete.returning _).weaken
  · exact parseSelect_complete.returning _
  · intro b x rest h _
    exact h.elim
  · intro b x rest h _
    exact h.elim
  · intro b x rest h _
    rcases h with ⟨t, b', rfl, ht, -⟩ | hfalse
    · simp [NotBefore, ht]
    · exact hfalse.elim

end MiniSql
