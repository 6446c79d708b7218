import MiniSql.Foundation.Transfer
import MiniSql.Parser.Source

set_option autoImplicit false

/-!
# A script carried over to other lexemes

Two token lists of the same types whose lexemes are related where the parser does
not look at them byte for byte: in reserved words and in column names.  The region
says which identifiers are column names.  Both lists derive the same statements,
but for related column names.
-/

namespace MiniSql

open Foundation

/-- What the last words and parentheses say about the identifiers that follow. -/
inductive Region where
  | other
  /-- between INTO and the parenthesis that opens the column list -/
  | afterInto
  /-- in a column list, in a select list, or behind WHERE -/
  | columns
  deriving DecidableEq

/-- The region behind a token. -/
def Region.next (r : Region) (t : Token) : Region :=
  match t.type with
  | .into => .afterInto
  | .select | .where_ => .columns
  | .lparen => if r = .afterInto then .columns else .other
  | .identifier | .string | .number | .comma | .dot | .star => r
  | .insert | .values | .from_ | .rparen | .equal | .semicolon | .end_ => .other

/-- The reserved words. -/
def TokenType.isReserved (type : TokenType) : Bool :=
  type ∈ [.insert, .into, .values, .select, .from_, .where_]

variable {R : Bytes → Bytes → Prop}

/-- Tokens of one type, with related lexemes where the parser allows it. -/
def LexemeAgree (R : Bytes → Bytes → Prop) (r : Region) (t t' : Token) : Prop :=
  t'.type = t.type ∧
    if t.type.isReserved ∨ (t.type = .identifier ∧ r = .columns) then
      R t.lexeme t'.lexeme
    else t.lexeme = t'.lexeme

/-- Statements that differ only in column names, which are related. -/
inductive StatementAgree (R : Bytes → Bytes → Prop) : Statement → Statement → Prop
  | insert {target : QualifiedName} {columns columns' values : List Bytes}
      (hcolumns : List.Forall₂ R columns columns') :
      StatementAgree R (.insert ⟨target, columns, values⟩) (.insert ⟨target, columns', values⟩)
  | select {source : QualifiedName} {selectAll : Bool} {columns columns' : List Bytes}
      {where_ where_' : Option WhereClause}
      (hcolumns : List.Forall₂ R columns columns')
      (hwhere : Option.Rel (fun c c' => R c.column c'.column ∧ c.value = c'.value)
        where_ where_') :
      StatementAgree R (.select ⟨source, selectAll, columns, where_⟩)
        (.select ⟨source, selectAll, columns', where_'⟩)

/-- Related by equality is equal. -/
theorem StatementAgree.eq {statement statement' : Statement}
    (h : StatementAgree (· = ·) statement statement') : statement = statement' := by
  cases h with
  | insert hcolumns =>
      rw [List.forall₂_eq_eq_eq] at hcolumns
      rw [hcolumns]
  | @select _ _ _ _ where_ where_' hcolumns hwhere =>
      rw [List.forall₂_eq_eq_eq] at hcolumns
      cases hwhere with
      | none => rw [hcolumns]
      | @some c c' hclause =>
          cases c
          cases c'
          obtain ⟨rfl, rfl⟩ := hclause
          rw [hcolumns]

/-! ## Tokens -/

section Tokens

variable {r : Region} {t t' : Token}

/-- A derivation carried over to tokens that agree. -/
abbrev Carries (R : Bytes → Bytes → Prop) {α : Type} (G : Grammar Token α) (r r' : Region)
    (V : α → α → Prop) : Prop :=
  Transfer Region.next (LexemeAgree R) G G r r' V

theorem terminal_transfer {type : TokenType} (r' : Region)
    (h : ∀ t : Token, t.type = type → r.next t = r') :
    Carries R (Terminal type) r r' fun _ _ => True := by
  apply Transfer.token
  intro t x t' ht hagree
  exact ⟨h t ht, x, hagree.1.trans ht, trivial⟩

/-- An identifier in a column position. -/
theorem columnIdent_agree {x : Bytes} (h : identLexeme t = some x)
    (hagree : LexemeAgree R .columns t t') :
    Region.columns.next t = .columns ∧ ∃ x', identLexeme t' = some x' ∧ R x x' := by
  obtain ⟨htype, rfl⟩ := identLexeme_eq_some_iff.mp h
  obtain ⟨htype', hlexeme⟩ := hagree
  rw [if_pos (.inr ⟨htype, rfl⟩)] at hlexeme
  refine ⟨by simp [Region.next, htype], t'.lexeme, ?_, hlexeme⟩
  exact identLexeme_eq_some_iff.mpr ⟨htype'.trans htype, rfl⟩

/-- A value, or an identifier of a name. -/
theorem literal_agree (hr : r ≠ .columns) (h : t.type.isLiteral = true)
    (hagree : LexemeAgree R r t t') : r.next t = r ∧ t'.type = t.type ∧ t'.lexeme = t.lexeme := by
  obtain ⟨htype', hlexeme⟩ := hagree
  rw [if_neg (by simp [hr]; revert h; cases t.type <;> decide)] at hlexeme
  refine ⟨?_, htype', hlexeme.symm⟩
  simp only [TokenType.isLiteral, Bool.or_eq_true, beq_iff_eq] at h
  rcases h with (h | h) | h
  · simp [Region.next, h]
  · simp [Region.next, h]
  · simp [Region.next, h]

theorem ident_agree {x : Bytes} (hr : r ≠ .columns) (h : identLexeme t = some x)
    (hagree : LexemeAgree R r t t') : r.next t = r ∧ ∃ x', identLexeme t' = some x' ∧ x = x' := by
  obtain ⟨htype, rfl⟩ := identLexeme_eq_some_iff.mp h
  obtain ⟨hnext, htype', hlexeme⟩ := literal_agree hr (identLexeme_isLiteral h) hagree
  refine ⟨hnext, _, ?_, hlexeme.symm⟩
  exact identLexeme_eq_some_iff.mpr ⟨htype'.trans htype, rfl⟩

theorem value_agree {x : Bytes} (hr : r ≠ .columns) (h : valueLexeme t = some x)
    (hagree : LexemeAgree R r t t') : r.next t = r ∧ ∃ x', valueLexeme t' = some x' ∧ x = x' := by
  obtain ⟨hliteral, rfl⟩ := valueLexeme_eq_some_iff.mp h
  obtain ⟨hnext, htype', hlexeme⟩ := literal_agree hr hliteral hagree
  refine ⟨hnext, _, ?_, hlexeme.symm⟩
  exact valueLexeme_eq_some_iff.mpr ⟨by rw [htype']; exact hliteral, rfl⟩

end Tokens

/-! ## Derivations -/

section Derivations

variable {r : Region}

theorem identList_transfer :
    Carries R IdentList .columns .columns (List.Forall₂ R) := by
  apply Transfer.sepBy1
  · exact fun t x t' ht hagree => columnIdent_agree ht hagree
  · exact fun t t' ht hagree => ⟨by simp [Region.next, ht], hagree.1.trans ht⟩

theorem valueList_transfer (hr : r ≠ .columns) :
    Carries R ValueList r r (List.Forall₂ (· = ·)) := by
  apply Transfer.sepBy1
  · exact fun t x t' ht hagree => value_agree hr ht hagree
  · exact fun t t' ht hagree => ⟨by simp [Region.next, ht], hagree.1.trans ht⟩

/-- Names agree byte for byte. -/
theorem name_transfer (hr : r ≠ .columns) : Carries R Name r r (· = ·) := by
  intro b name b' hname hagree
  cases hname with
  | table htable =>
      cases hagree with
      | cons hfirst hrest =>
          cases hrest
          obtain ⟨hnext, _, htable', rfl⟩ := ident_agree hr htable hfirst
          exact ⟨hnext, _, .table htable', rfl⟩
  | @qualified _ d _ _ _ hschema hdot htable =>
      cases hagree with
      | cons hfirst hrest =>
          obtain ⟨hnext, _, hschema', rfl⟩ := ident_agree hr hschema hfirst
          rw [hnext] at hrest
          cases hrest with
          | cons hmiddle hrest' =>
              have hnextDot : r.next d = r := by simp [Region.next, hdot]
              rw [hnextDot] at hrest'
              cases hrest' with
              | cons hlast hnil =>
                  cases hnil
                  obtain ⟨hnextLast, _, htable', rfl⟩ := ident_agree hr htable hlast
                  refine ⟨?_, _, .qualified hschema' (hmiddle.1.trans hdot) htable', rfl⟩
                  simp only [List.foldl_cons, List.foldl_nil, hnext, hnextDot, hnextLast]

theorem insertTail_transfer :
    Carries R InsertTail .other .other
      fun s s' => StatementAgree R (.insert s) (.insert s') := by
  refine Transfer.mono ?_ (fun b s h => insertTail_iff.mp h) fun b s h => insertTail_iff.mpr h
  refine (terminal_transfer .afterInto ?_).seq fun _ _ _ => ?_
  · intro t ht
    simp [Region.next, ht]
  refine (name_transfer (by decide)).seq fun target target' htarget => ?_
  subst htarget
  refine (terminal_transfer .columns ?_).seq fun _ _ _ => ?_
  · intro t ht
    simp [Region.next, ht]
  refine identList_transfer.seq fun columns columns' hcolumns => ?_
  refine (terminal_transfer .other ?_).seq fun _ _ _ => ?_
  · intro t ht
    simp [Region.next, ht]
  refine (terminal_transfer .other ?_).seq fun _ _ _ => ?_
  · intro t ht
    simp [Region.next, ht]
  refine (terminal_transfer .other ?_).seq fun _ _ _ => ?_
  · intro t ht
    simp [Region.next, ht]
  refine (valueList_transfer (by decide)).seq fun values values' hvalues => ?_
  rw [List.forall₂_eq_eq_eq] at hvalues
  subst hvalues
  refine (terminal_transfer .other ?_).seq fun _ _ _ => ?_
  · intro t ht
    simp [Region.next, ht]
  exact .empty (.insert hcolumns)

theorem selectList_transfer :
    Carries R SelectList .columns .columns
      fun l l' => l.1 = l'.1 ∧ List.Forall₂ R l.2 l'.2 := by
  intro b list b' hlist hagree
  cases hlist with
  | @all t hstar =>
      cases hagree with
      | cons htoken hrest =>
          cases hrest
          refine ⟨by simp [Region.next, hstar], _, .all (htoken.1.trans hstar), rfl, .nil⟩
  | columns hcolumns =>
      obtain ⟨hr, columns', hcolumns', hsame⟩ := identList_transfer b _ b' hcolumns hagree
      exact ⟨hr, _, .columns hcolumns', rfl, hsame⟩

theorem where_transfer :
    Carries R Where .other .other
      (Option.Rel fun c c' => R c.column c'.column ∧ c.value = c'.value) := by
  intro b where_ b' hwhere hagree
  cases hwhere with
  | absent =>
      cases hagree
      exact ⟨rfl, none, .absent, .none⟩
  | @present w c e v column value hw hcolumn hequal hvalue =>
      cases hagree with
      | cons hwhere hrest =>
          rw [show Region.other.next w = .columns by simp [Region.next, hw]] at hrest
          cases hrest with
          | cons hcolumnToken hrest =>
              obtain ⟨hnext, _, hcolumn', hsame⟩ := columnIdent_agree hcolumn hcolumnToken
              rw [hnext] at hrest
              cases hrest with
              | cons hequalToken hrest =>
                  rw [show Region.columns.next e = .other by
                    simp [Region.next, hequal]] at hrest
                  cases hrest with
                  | cons hvalueToken hnil =>
                      cases hnil
                      obtain ⟨hnextValue, _, hvalue', rfl⟩ :=
                        value_agree (by decide) hvalue hvalueToken
                      refine ⟨?_, _, .present (hwhere.1.trans hw) hcolumn'
                        (hequalToken.1.trans hequal) hvalue', .some ⟨hsame, rfl⟩⟩
                      simpa [Region.next, hw, hequal, (identLexeme_eq_some_iff.mp hcolumn).1]
                        using hnextValue

theorem selectTail_transfer :
    Carries R SelectTail .columns .other
      fun s s' => StatementAgree R (.select s) (.select s') := by
  refine Transfer.mono ?_ (fun b s h => selectTail_iff.mp h) fun b s h => selectTail_iff.mpr h
  refine selectList_transfer.seq fun list list' hlist => ?_
  refine (terminal_transfer .other ?_).seq fun _ _ _ => ?_
  · intro t ht
    simp [Region.next, ht]
  refine (name_transfer (by decide)).seq fun source source' hsource => ?_
  subst hsource
  refine where_transfer.seq fun where_ where_' hwhere => ?_
  apply Transfer.empty
  rw [← hlist.1]
  exact .select hlist.2 hwhere

/-- A statement is carried over from whatever region it begins in. -/
theorem stmt_transfer : Carries R Stmt r .other (StatementAgree R) := by
  intro b statement b' hstmt hagree
  cases hstmt with
  | @insert k b s hinsert htail =>
      cases hagree with
      | cons hfirst hrest =>
          have hnext : r.next k = .other := by simp [Region.next, hinsert]
          rw [hnext] at hrest
          obtain ⟨hr, s', htail', hsame⟩ := insertTail_transfer b s _ htail hrest
          refine ⟨?_, _, .insert (hfirst.1.trans hinsert) htail', hsame⟩
          rw [List.foldl_cons, hnext, hr]
  | @select k b s hselect htail =>
      cases hagree with
      | cons hfirst hrest =>
          have hnext : r.next k = .columns := by simp [Region.next, hselect]
          rw [hnext] at hrest
          obtain ⟨hr, s', htail', hsame⟩ := selectTail_transfer b s _ htail hrest
          refine ⟨?_, _, .select (hfirst.1.trans hselect) htail', hsame⟩
          rw [List.foldl_cons, hnext, hr]

/-- Scripts that agree hold statements that agree, one for one. -/
theorem Script.carried {body body' : List Token}
    {pieces : List (List Token × Statement)} (h : Script body pieces)
    (hagree : Agree Region.next (LexemeAgree R) r body body') :
    ∃ pieces', Script body' pieces' ∧
      List.Forall₂ (StatementAgree R) (pieces.map Prod.snd) (pieces'.map Prod.snd) := by
  induction h generalizing r body' with
  | nil =>
      cases hagree
      exact ⟨[], .nil, .nil⟩
  | semicolon hsemi _ ih =>
      cases hagree with
      | cons htoken hrest =>
          obtain ⟨pieces', hscript, hsame⟩ := ih hrest
          exact ⟨pieces', .semicolon (htoken.1.trans hsemi) hscript, hsame⟩
  | stmt hstmt _ ih =>
      obtain ⟨b', ts', rfl, hb, hts⟩ := hagree.append_left
      obtain ⟨-, statement', hstmt', hsame⟩ := stmt_transfer _ _ b' hstmt hb
      obtain ⟨pieces', hscript, hrest⟩ := ih hts
      exact ⟨(b', statement') :: pieces', .stmt hstmt' hscript, .cons hsame hrest⟩
  | stmtSemicolon hstmt hsemi _ ih =>
      obtain ⟨b', ts', rfl, hb, hts⟩ := hagree.append_left
      obtain ⟨-, statement', hstmt', hsame⟩ := stmt_transfer _ _ b' hstmt hb
      cases hts with
      | cons htoken hrest =>
          obtain ⟨pieces', hscript, hrest⟩ := ih hrest
          exact ⟨(b', statement') :: pieces',
            .stmtSemicolon hstmt' (htoken.1.trans hsemi) hscript, .cons hsame hrest⟩

end Derivations

end MiniSql
