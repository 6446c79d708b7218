import MiniSql.Parser.Concat

set_option autoImplicit false

/-!
# The layout of a source

The parser looks at the types and lexemes of tokens, and at their places only to print
them in a message.  So two sources of the same tokens, however they are laid out, are the
same script, or fail with the same message at the places where the one token stands.
-/

namespace MiniSql

open Foundation

/-- Tokens that differ only in where they stand. -/
abbrev SameSpelled (t t' : Token) : Prop := t.spelled = t'.spelled

/-- Errors that differ only in the line and the column they name. -/
def SameMessage (e e' : SqlError) : Prop :=
  ∃ message line column line' column',
    e = .atPosition message line column ∧ e' = .atPosition message line' column'

/-- The parser does the same on tokens that differ only in where they stand. -/
abbrev LayoutFree {α : Type} (p : Parse α) : Prop := Alike SameSpelled SameMessage p

section Parts

variable {α : Type} {ts ts' : List Token} {t t' : Token}

theorem SameSpelled.type_eq (h : SameSpelled t t') : t.type = t'.type := congrArg Prod.fst h

theorem SameSpelled.lexeme_eq (h : SameSpelled t t') : t.lexeme = t'.lexeme :=
  congrArg Prod.snd h

theorem sameMessage_fault (t t' : Token) (message : String) :
    SameMessage (t.fault message) (t'.fault message) :=
  ⟨message, _, _, _, _, rfl, rfl⟩

theorem peek_sameSpelled (h : List.Forall₂ SameSpelled ts ts') :
    SameSpelled (peek ts) (peek ts') := by
  cases h with
  | nil => exact rfl
  | cons ht _ => exact ht

theorem tail_sameSpelled (h : List.Forall₂ SameSpelled ts ts') :
    List.Forall₂ SameSpelled ts.tail ts'.tail := by
  cases h with
  | nil => exact .nil
  | cons _ hrest => exact hrest

theorem identLexeme_sameSpelled (h : SameSpelled t t') : identLexeme t = identLexeme t' := by
  simp only [identLexeme, h.type_eq, h.lexeme_eq]

theorem valueLexeme_sameSpelled (h : SameSpelled t t') : valueLexeme t = valueLexeme t' := by
  simp only [valueLexeme, h.type_eq, h.lexeme_eq]

theorem consume_layoutFree (type : TokenType) (message : String) :
    LayoutFree (consume type message) := by
  intro ts ts' h
  simp only [consume, (peek_sameSpelled h).type_eq]
  split
  · exact .ok (tail_sameSpelled h)
  · exact .error (sameMessage_fault _ _ message)

theorem matchToken_layoutFree (type : TokenType) : LayoutFree (matchToken type) := by
  intro ts ts' h
  simp only [matchToken, (peek_sameSpelled h).type_eq]
  split
  · exact .ok (tail_sameSpelled h)
  · exact .ok h

theorem takeToken_layoutFree {item : Token → Option Bytes}
    (hitem : ∀ t t', SameSpelled t t' → item t = item t') (message : String) :
    LayoutFree (takeToken item message) := by
  intro ts ts' h
  simp only [takeToken, hitem _ _ (peek_sameSpelled h)]
  cases item (peek ts') with
  | none => exact .error (sameMessage_fault _ _ message)
  | some lexeme => exact .ok (tail_sameSpelled h)

theorem takeIdent_layoutFree (message : String) : LayoutFree (takeToken identLexeme message) :=
  takeToken_layoutFree (fun _ _ => identLexeme_sameSpelled) message

theorem takeValue_layoutFree (message : String) : LayoutFree (takeToken valueLexeme message) :=
  takeToken_layoutFree (fun _ _ => valueLexeme_sameSpelled) message

theorem commaList_layoutFree {item : Token → Option Bytes}
    (hitem : ∀ t t', SameSpelled t t' → item t = item t') (message : String) :
    LayoutFree (sepBy1 item (·.type == .comma) fun t => (t.getD pastEnd).fault message) := by
  refine .sepBy1 hitem ?_ fun t t' _ => sameMessage_fault _ _ message
  intro t t' h
  rw [h.type_eq]

/-- A test of the token in front, and what is done either way. -/
theorem LayoutFree.ite {p q : Parse α} (type : TokenType) (hp : LayoutFree p)
    (hq : LayoutFree q) : LayoutFree (do if ← matchToken type then p else q) := by
  refine (matchToken_layoutFree type).bind fun found => ?_
  cases found with
  | true => exact hp
  | false => exact hq

end Parts

/-! ## The parser -/

theorem parseQualifiedName_layoutFree : LayoutFree parseQualifiedName := by
  refine (takeIdent_layoutFree _).bind fun first => LayoutFree.ite .dot ?_ (.pure _)
  exact (takeIdent_layoutFree _).bind fun second => .pure _

theorem parseInsert_layoutFree : LayoutFree parseInsert := by
  refine (consume_layoutFree _ _).bind fun _ => ?_
  refine parseQualifiedName_layoutFree.bind fun target => ?_
  refine (consume_layoutFree _ _).bind fun _ => ?_
  refine (commaList_layoutFree (fun _ _ => identLexeme_sameSpelled) _).bind fun columns => ?_
  refine (consume_layoutFree _ _).bind fun _ => ?_
  refine (consume_layoutFree _ _).bind fun _ => ?_
  refine (consume_layoutFree _ _).bind fun _ => ?_
  refine (commaList_layoutFree (fun _ _ => valueLexeme_sameSpelled) _).bind fun values => ?_
  refine (consume_layoutFree _ _).bind fun _ => ?_
  exact .pure _

theorem parseWhere_layoutFree : LayoutFree parseWhere := by
  refine LayoutFree.ite .where_ ?_ (.pure _)
  refine (takeIdent_layoutFree _).bind fun column => ?_
  refine (consume_layoutFree _ _).bind fun _ => ?_
  exact (takeValue_layoutFree _).bind fun value => .pure _

theorem parseSelectList_layoutFree : LayoutFree parseSelectList := by
  refine LayoutFree.ite .star (.pure _) ?_
  exact (commaList_layoutFree (fun _ _ => identLexeme_sameSpelled) _).bind fun columns => .pure _

theorem parseSelect_layoutFree : LayoutFree parseSelect := by
  refine parseSelectList_layoutFree.bind fun list => ?_
  refine (consume_layoutFree _ _).bind fun _ => ?_
  refine parseQualifiedName_layoutFree.bind fun source => ?_
  exact parseWhere_layoutFree.bind fun where_ => .pure _

theorem parseStatement_layoutFree : LayoutFree parseStatement := by
  refine LayoutFree.ite .insert ?_ (LayoutFree.ite .select ?_ ?_)
  · exact parseInsert_layoutFree.bind fun statement => .pure _
  · exact parseSelect_layoutFree.bind fun statement => .pure _
  · intro ts ts' h
    exact .error (sameMessage_fault _ _ _)

/-- Two outcomes of a parse: one script, or one message. -/
inductive SameParse : ParseOutcome → ParseOutcome → Prop
  | ok (script : List Statement) : SameParse ⟨.ok (), script⟩ ⟨.ok (), script⟩
  | failed {e e' : SqlError} (h : SameMessage e e') : SameParse (.failed e) (.failed e')

theorem skipToken_sameSpelled {ts ts' : List Token} (type : TokenType)
    (h : List.Forall₂ SameSpelled ts ts') :
    List.Forall₂ SameSpelled (skipToken type ts) (skipToken type ts') := by
  simp only [skipToken, (peek_sameSpelled h).type_eq]
  split
  · exact tail_sameSpelled h
  · exact h

/-- The loop of `parse_sql_script`, round by round. -/
theorem parseScriptLoop_sameParse (tokens : List Token) (script : List Statement) :
    ∀ tokens', List.Forall₂ SameSpelled tokens tokens' →
      SameParse (parseScriptLoop tokens script) (parseScriptLoop tokens' script) := by
  induction tokens, script using parseScriptLoop.induct with
  | case1 tokens script hend =>
      intro tokens' h
      have hend' := (peek_sameSpelled h).type_eq.symm.trans hend
      rw [parseScriptLoop_of_end hend, parseScriptLoop_of_end hend']
      exact .ok script
  | case2 tokens script _ hsemi ih =>
      intro tokens' h
      have hsemi' := (peek_sameSpelled h).type_eq.symm.trans hsemi
      rw [parseScriptLoop_of_semicolon hsemi, parseScriptLoop_of_semicolon hsemi']
      exact ih _ (tail_sameSpelled h)
  | case3 tokens script hend hsemi e he =>
      intro tokens' h
      have hpeek := (peek_sameSpelled h).type_eq
      have halike := parseStatement_layoutFree tokens tokens' h
      rw [he] at halike
      generalize hresult : parseStatement tokens' = result at halike
      cases halike with
      | error hmessage =>
          rw [parseScriptLoop_of_error hend hsemi he,
            parseScriptLoop_of_error (hpeek ▸ hend) (hpeek ▸ hsemi) hresult]
          exact .failed hmessage
  | case4 tokens script hend hsemi statement rest hstatement ih =>
      intro tokens' h
      have hpeek := (peek_sameSpelled h).type_eq
      have halike := parseStatement_layoutFree tokens tokens' h
      rw [hstatement] at halike
      generalize hresult : parseStatement tokens' = result at halike
      cases halike with
      | ok hrest =>
          rw [parseScriptLoop_of_ok hend hsemi hstatement,
            parseScriptLoop_of_ok (hpeek ▸ hend) (hpeek ▸ hsemi) hresult]
          exact ih _ (skipToken_sameSpelled .semicolon hrest)

/-- The tokens of a source in the lexical grammar. -/
theorem Lexes.tokenizeSql {source : Bytes} {T : List (TokenType × Bytes)} (h : Lexes source T) :
    ∃ tokens, MiniSql.tokenizeSql source = .ok tokens ∧
      tokens.map Token.spelled = T ++ [(.end_, [])] := by
  obtain ⟨tokens, htokens, hspelled⟩ := Option.map_eq_some_iff.mp (spelledTokens_eq_some_iff.mpr h)
  refine ⟨tokens, ?_, hspelled⟩
  cases hresult : MiniSql.tokenizeSql source with
  | error e => simp [hresult, Except.toOption] at htokens
  | ok found => simpa [hresult, Except.toOption] using htokens

/-- Sources of the same tokens are one script, or fail with one message. -/
theorem parseSqlScript_sameParse {source source' : Bytes} {T : List (TokenType × Bytes)}
    (h : Lexes source T) (h' : Lexes source' T) :
    SameParse (parseSqlScript source) (parseSqlScript source') := by
  obtain ⟨tokens, htokens, hspelled⟩ := h.tokenizeSql
  obtain ⟨tokens', htokens', hspelled'⟩ := h'.tokenizeSql
  unfold parseSqlScript
  simp only [htokens, htokens']
  apply parseScriptLoop_sameParse
  have hmap : tokens.map Token.spelled = tokens'.map Token.spelled := hspelled.trans hspelled'.symm
  rw [← List.forall₂_eq_eq_eq, List.forall₂_map_left_iff, List.forall₂_map_right_iff] at hmap
  exact hmap

end MiniSql
