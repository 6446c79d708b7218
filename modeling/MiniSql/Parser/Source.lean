import MiniSql.Parser.Script

set_option autoImplicit false

/-!
# What the statements of a source are made of

Every string in a statement is the lexeme of a token, and every lexeme is spelled
in the source.  So the names of a parsed statement are words and its values hold
no NUL.
-/

namespace MiniSql

open Foundation

/-- A word of the lexical grammar. -/
abbrev Ident : Type := { word : Bytes // IsWord word }

/-- A name made of words: an optional schema and a table. -/
structure TableName where
  schema : Option Ident
  table : Ident

/-- The name as the parser builds it. -/
def TableName.qualified (name : TableName) : QualifiedName :=
  ⟨name.schema.map Subtype.val, some name.table.val⟩

/-- The table is named by words, and the values to insert are C strings. -/
structure Statement.Written (statement : Statement) : Prop where
  target : ∃ name : TableName, statement.target = name.qualified
  values : ∀ insert, statement = .insert insert → ∀ value ∈ insert.values, NulFree value

/-! ## Tokens -/

/-- A token as the lexical grammar spells it from the bytes of a source. -/
structure Token.SpelledIn (t : Token) (source : Bytes) : Prop where
  isWord : t.type = .identifier → IsWord t.lexeme
  subset : ∀ b ∈ t.lexeme, b ∈ source

theorem Lexes.spelledIn {source : Bytes} {body : List Token}
    (h : Lexes source (body.map Token.spelled)) : ∀ t ∈ body, t.SpelledIn source := by
  intro t ht
  obtain ⟨w, hspell, hsub⟩ := h.mem_spelling (List.mem_map_of_mem ht)
  exact ⟨hspell.isWord, fun b hb => hsub b (hspell.lexeme_subset b hb)⟩

theorem Lexes.ne_end {source : Bytes} {body : List Token}
    (h : Lexes source (body.map Token.spelled)) : ∀ t ∈ body, t.type ≠ .end_ := by
  intro t ht
  obtain ⟨w, hspell, -⟩ := h.mem_spelling (List.mem_map_of_mem ht)
  exact hspell.type_ne_end

/-! ## Derivations -/

section Derivations

variable {source : Bytes}

theorem identLexeme_isWord {t : Token} {x : Bytes} (ht : t.SpelledIn source)
    (h : identLexeme t = some x) : IsWord x := by
  obtain ⟨htype, rfl⟩ := identLexeme_eq_some_iff.mp h
  exact ht.isWord htype

theorem Name.written {b : List Token} {name : QualifiedName} (h : Name b name)
    (hb : ∀ t ∈ b, t.SpelledIn source) : ∃ written : TableName, name = written.qualified := by
  cases h with
  | @table t table htable =>
      exact ⟨⟨none, ⟨table, identLexeme_isWord (hb t (by simp)) htable⟩⟩, rfl⟩
  | @qualified s d t schema table hschema hdot htable =>
      exact ⟨⟨some ⟨schema, identLexeme_isWord (hb s (by simp)) hschema⟩,
        ⟨table, identLexeme_isWord (hb t (by simp)) htable⟩⟩, rfl⟩

theorem ValueList.nulFree {b : List Token} {values : List Bytes} (h : ValueList b values)
    (hb : ∀ t ∈ b, t.SpelledIn source) (hsource : NulFree source) :
    ∀ value ∈ values, NulFree value := by
  intro value hvalue hmem
  obtain ⟨t, ht, hlexeme⟩ := SepBy1.exists_token h value hvalue
  obtain ⟨-, rfl⟩ := valueLexeme_eq_some_iff.mp hlexeme
  exact hsource ((hb t ht).subset 0 hmem)

theorem Stmt.written {b : List Token} {statement : Statement} (h : Stmt b statement)
    (hb : ∀ t ∈ b, t.SpelledIn source) (hsource : NulFree source) : statement.Written := by
  cases h with
  | insert hinsert htail =>
      cases htail with
      | mk hinto hname hlp hcolumns hrp hvalues hlp' hliterals hrp' =>
          simp only [List.forall_mem_cons, List.forall_mem_append] at hb
          obtain ⟨-, -, hbname, -, hbcolumns, -, -, -, hbvalues, -⟩ := hb
          refine ⟨hname.written hbname, ?_⟩
          intro insert heq
          obtain rfl := Statement.insert.inj heq
          exact ValueList.nulFree hliterals hbvalues hsource
  | select hselect htail =>
      cases htail with
      | mk hlist hfrom hname hwhere =>
          simp only [List.forall_mem_cons, List.forall_mem_append] at hb
          obtain ⟨-, -, -, hbname, -⟩ := hb
          refine ⟨hname.written hbname, ?_⟩
          intro insert heq
          simp at heq

/-- A piece of a script is a statement of its tokens. -/
theorem Script.stmt_of_mem {body : List Token} {pieces : List (List Token × Statement)}
    (h : Script body pieces) : ∀ p ∈ pieces, Stmt p.1 p.2 ∧ ∀ t ∈ p.1, t ∈ body := by
  induction h with
  | nil => simp
  | semicolon _ _ ih =>
      intro p hp
      exact ⟨(ih p hp).1, fun t ht => List.mem_cons_of_mem _ ((ih p hp).2 t ht)⟩
  | stmt hstmt _ ih =>
      intro p hp
      rcases List.mem_cons.mp hp with hp | hp
      · subst hp
        exact ⟨hstmt, fun t ht => List.mem_append_left _ ht⟩
      · exact ⟨(ih p hp).1, fun t ht => List.mem_append_right _ ((ih p hp).2 t ht)⟩
  | stmtSemicolon hstmt _ _ ih =>
      intro p hp
      rcases List.mem_cons.mp hp with hp | hp
      · subst hp
        exact ⟨hstmt, fun t ht => List.mem_append_left _ ht⟩
      · exact ⟨(ih p hp).1, fun t ht => by simp [(ih p hp).2 t ht]⟩

end Derivations

/-! ## Parsed sources -/

/-- A source that parses is a derivation of both grammars. -/
theorem parseSqlScript_eq_ok {source : Bytes} (h : (parseSqlScript source).result = .ok ()) :
    ∃ body pieces, Lexes source (body.map Token.spelled) ∧ Script body pieces ∧
      (parseSqlScript source).script = pieces.map Prod.snd := by
  unfold parseSqlScript at h ⊢
  cases htokens : tokenizeSql source with
  | error e => simp [htokens, ParseOutcome.failed] at h
  | ok tokens =>
      simp only [htokens] at h ⊢
      obtain ⟨body, endToken, rfl, hend, hlexes⟩ := tokenizeSql_eq_ok htokens
      have hendType : endToken.type = .end_ := congrArg Prod.fst hend
      obtain ⟨pieces, hpieces, hscript⟩ :=
        parseScriptLoop_sound hendType _ [] body rfl hlexes.ne_end h
      exact ⟨body, pieces, hlexes, hpieces, by simpa [parseTokens] using hscript⟩

/-- A source that does not parse leaves no statement behind. -/
theorem parseSqlScript_failed {source : Bytes}
    (h : (parseSqlScript source).result ≠ .ok ()) : (parseSqlScript source).script = [] := by
  unfold parseSqlScript at h ⊢
  cases htokens : tokenizeSql source with
  | error e => rfl
  | ok tokens =>
      simp only [htokens] at h ⊢
      exact parseScriptLoop_failed tokens [] h

theorem parseSqlScript_written {source : Bytes} (hsource : NulFree source)
    (h : (parseSqlScript source).result = .ok ()) :
    ∀ statement ∈ (parseSqlScript source).script, statement.Written := by
  obtain ⟨body, pieces, hlexes, hscript, hstatements⟩ := parseSqlScript_eq_ok h
  rw [hstatements]
  intro statement hmem
  obtain ⟨p, hp, rfl⟩ := List.mem_map.mp hmem
  obtain ⟨hstmt, hsub⟩ := hscript.stmt_of_mem p hp
  exact hstmt.written (fun t ht => hlexes.spelledIn t (hsub t ht)) hsource

end MiniSql
