import MiniSql.Foundation.Step
import MiniSql.Parser.Tokenizer

set_option autoImplicit false

/-!
# The grammar of scripts

    script = (';' | stmt [';'])*
    stmt   = INSERT INTO name '(' ident {',' ident} ')' VALUES '(' value {',' value} ')'
           | SELECT ('*' | ident {',' ident}) FROM name [WHERE ident '=' value]
    name   = ident ['.' ident]
    value  = string | number | ident

Each relation derives the AST from the tokens; none of them mentions the parser.
The end token is not part of a derivation.
-/

namespace MiniSql

open Foundation

/-- A single token of the given type. -/
def Terminal (type : TokenType) : Grammar Token Unit :=
  fun b _ => ∃ t : Token, b = [t] ∧ t.type = type

/-- The token types `VALUES` and the right-hand side of `WHERE` accept. -/
def TokenType.isLiteral (type : TokenType) : Bool :=
  type == .string || type == .number || type == .identifier

/-- The lexeme of an identifier, and that of a value. -/
def identLexeme (t : Token) : Option Bytes :=
  if t.type = .identifier then some t.lexeme else none

def valueLexeme (t : Token) : Option Bytes :=
  if t.type.isLiteral then some t.lexeme else none

/-- `ident {',' ident}` and `value {',' value}`. -/
def IdentList : Grammar Token (List Bytes) :=
  SepBy1 (fun t x => identLexeme t = some x) (fun t => t.type = .comma)

def ValueList : Grammar Token (List Bytes) :=
  SepBy1 (fun t x => valueLexeme t = some x) (fun t => t.type = .comma)

/-- `ident ['.' ident]`. -/
inductive Name : Grammar Token QualifiedName
  | table {t : Token} {table : Bytes} (htable : identLexeme t = some table) :
      Name [t] ⟨none, some table⟩
  | qualified {s d t : Token} {schema table : Bytes} (hschema : identLexeme s = some schema)
      (hdot : d.type = .dot) (htable : identLexeme t = some table) :
      Name [s, d, t] ⟨some schema, some table⟩

/-- The part of an INSERT behind its first word. -/
inductive InsertTail : Grammar Token InsertStatement
  | mk {into lp rp values lp' rp' : Token} {name columns literals : List Token}
      {target : QualifiedName} {cs vs : List Bytes}
      (hinto : into.type = .into) (hname : Name name target)
      (hlp : lp.type = .lparen) (hcolumns : IdentList columns cs) (hrp : rp.type = .rparen)
      (hvalues : values.type = .values)
      (hlp' : lp'.type = .lparen) (hliterals : ValueList literals vs)
      (hrp' : rp'.type = .rparen) :
      InsertTail
        (into :: (name ++ lp :: (columns ++ rp :: values :: lp' :: (literals ++ [rp']))))
        ⟨target, cs, vs⟩

/-- `'*' | ident {',' ident}`. -/
inductive SelectList : Grammar Token (Bool × List Bytes)
  | all {t : Token} (hstar : t.type = .star) : SelectList [t] (true, [])
  | columns {b : List Token} {cs : List Bytes} (hcolumns : IdentList b cs) :
      SelectList b (false, cs)

/-- `[WHERE ident '=' value]`. -/
inductive Where : Grammar Token (Option WhereClause)
  | absent : Where [] none
  | present {w c e v : Token} {column value : Bytes} (hwhere : w.type = .where_)
      (hcolumn : identLexeme c = some column) (hequal : e.type = .equal)
      (hvalue : valueLexeme v = some value) : Where [w, c, e, v] (some ⟨column, value⟩)

/-- The part of a SELECT behind its first word. -/
inductive SelectTail : Grammar Token SelectStatement
  | mk {list name condition : List Token} {kFrom : Token} {all : Bool} {cs : List Bytes}
      {source : QualifiedName} {where_ : Option WhereClause}
      (hlist : SelectList list (all, cs)) (hfrom : kFrom.type = .from_)
      (hname : Name name source) (hwhere : Where condition where_) :
      SelectTail (list ++ kFrom :: (name ++ condition)) ⟨source, all, cs, where_⟩

/-- One statement. -/
inductive Stmt : Grammar Token Statement
  | insert {k : Token} {b : List Token} {statement : InsertStatement}
      (hinsert : k.type = .insert) (htail : InsertTail b statement) :
      Stmt (k :: b) (.insert statement)
  | select {k : Token} {b : List Token} {statement : SelectStatement}
      (hselect : k.type = .select) (htail : SelectTail b statement) :
      Stmt (k :: b) (.select statement)

/-- A script, without its end token: the tokens and the value of each of its
statements.  A semicolon behind a statement may go with the statement or stand
alone; the pieces are the same either way. -/
inductive Script : Grammar Token (List (List Token × Statement))
  | nil : Script [] []
  | semicolon {t : Token} {ts : List Token} {pieces : List (List Token × Statement)}
      (hsemi : t.type = .semicolon) (hrest : Script ts pieces) : Script (t :: ts) pieces
  | stmt {b ts : List Token} {statement : Statement}
      {pieces : List (List Token × Statement)}
      (hstmt : Stmt b statement) (hrest : Script ts pieces) :
      Script (b ++ ts) ((b, statement) :: pieces)
  | stmtSemicolon {b ts : List Token} {t : Token} {statement : Statement}
      {pieces : List (List Token × Statement)} (hstmt : Stmt b statement)
      (hsemi : t.type = .semicolon) (hrest : Script ts pieces) :
      Script (b ++ t :: ts) ((b, statement) :: pieces)

/-! ## The lexemes in a derivation -/

theorem identLexeme_eq_some_iff {t : Token} {x : Bytes} :
    identLexeme t = some x ↔ t.type = .identifier ∧ t.lexeme = x := by
  unfold identLexeme
  split <;> simp_all

theorem valueLexeme_eq_some_iff {t : Token} {x : Bytes} :
    valueLexeme t = some x ↔ t.type.isLiteral = true ∧ t.lexeme = x := by
  unfold valueLexeme
  split <;> simp_all

/-- An identifier may stand where a value may. -/
theorem identLexeme_isLiteral {t : Token} {x : Bytes} (h : identLexeme t = some x) :
    t.type.isLiteral = true := by
  rw [(identLexeme_eq_some_iff.mp h).1]
  rfl

/-! ## Derivations hold no end token -/

theorem identLexeme_ne_end {t : Token} {x : Bytes} (h : identLexeme t = some x) :
    t.type ≠ .end_ := by
  rw [(identLexeme_eq_some_iff.mp h).1]
  decide

theorem valueLexeme_ne_end {t : Token} {x : Bytes} (h : valueLexeme t = some x) :
    t.type ≠ .end_ := by
  intro htype
  have := (valueLexeme_eq_some_iff.mp h).1
  rw [htype] at this
  exact absurd this (by decide)

theorem Name.ne_end {b : List Token} {name : QualifiedName} (h : Name b name) :
    ∀ t ∈ b, t.type ≠ .end_ := by
  cases h with
  | table htable => simp [identLexeme_ne_end htable]
  | qualified hschema hdot htable =>
      simp [identLexeme_ne_end hschema, hdot, identLexeme_ne_end htable]

theorem IdentList.ne_end {b : List Token} {xs : List Bytes} (h : IdentList b xs) :
    ∀ t ∈ b, t.type ≠ .end_ :=
  h.forall_tokens (fun _ _ => identLexeme_ne_end) (fun _ hsep => by simp [hsep])

theorem ValueList.ne_end {b : List Token} {xs : List Bytes} (h : ValueList b xs) :
    ∀ t ∈ b, t.type ≠ .end_ :=
  h.forall_tokens (fun _ _ => valueLexeme_ne_end) (fun _ hsep => by simp [hsep])

theorem Stmt.ne_end {b : List Token} {statement : Statement} (h : Stmt b statement) :
    ∀ t ∈ b, t.type ≠ .end_ := by
  cases h with
  | insert hinsert htail =>
      cases htail with
      | mk hinto hname hlp hcolumns hrp hvalues hlp' hliterals hrp' =>
          simp only [List.forall_mem_cons, List.forall_mem_append]
          simp [hinsert, hinto, hlp, hrp, hvalues, hlp', hrp']
          exact ⟨hname.ne_end, IdentList.ne_end hcolumns, ValueList.ne_end hliterals⟩
  | select hselect htail =>
      cases htail with
      | mk hlist hfrom hname hwhere =>
          simp only [List.forall_mem_cons, List.forall_mem_append]
          refine ⟨by simp [hselect], ?_, by simp [hfrom], hname.ne_end, ?_⟩
          · cases hlist with
            | all hstar => simp [hstar]
            | columns hcolumns => exact IdentList.ne_end hcolumns
          · cases hwhere with
            | absent => simp
            | present hw hcolumn hequal hvalue =>
                simp [hw, identLexeme_ne_end hcolumn, hequal, valueLexeme_ne_end hvalue]

/-- A statement is at least its first word. -/
theorem Stmt.exists_cons {b : List Token} {statement : Statement} (h : Stmt b statement) :
    ∃ t b', b = t :: b' ∧ (t.type = .insert ∨ t.type = .select) := by
  cases h with
  | insert hinsert _ => exact ⟨_, _, rfl, .inl hinsert⟩
  | select hselect _ => exact ⟨_, _, rfl, .inr hselect⟩

end MiniSql
