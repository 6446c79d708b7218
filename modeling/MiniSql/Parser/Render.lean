import MiniSql.Parser.Concat

set_option autoImplicit false

/-!
# Statements as texts

A text for every script: its tokens one behind the other, each value between quotes with
its own quotes doubled, and white space or comments behind each token.  The parser takes
such a text to the script it was made for, whatever bytes the values hold; and a script
that has no such text is the script of no text at all.
-/

namespace MiniSql

open Foundation

/-! ## The text of tokens -/

/-- White space and comments. -/
inductive Gap : Bytes → Prop
  | nil : Gap []
  | space {ch : Byte} {rest : Bytes} (hspace : isspace ch = true) (hrest : Gap rest) :
      Gap (ch :: rest)
  | lineComment {body rest : Bytes} (hbody : newline ∉ body) (hrest : Gap rest) :
      Gap (minus :: minus :: body ++ newline :: rest)
  | blockComment {body rest : Bytes} (hbody : ClosesFirst body) (hrest : Gap rest) :
      Gap (slash :: star :: body ++ star :: slash :: rest)

/-- A token as a text spells it: a literal between quotes, its own quotes doubled. -/
def spell : TokenType × Bytes → Bytes
  | (.string, content) => quote :: doubleQuotes content ++ [quote]
  | (_, lexeme) => lexeme

/-- Tokens one behind the other, each with what stands behind it. -/
def layOut (pieces : List ((TokenType × Bytes) × Bytes)) : Bytes :=
  pieces.flatMap fun piece => spell piece.1 ++ piece.2

/-- A gap that ends whatever is read in front of it. -/
structure Separates (gap : Bytes) : Prop where
  isGap : Gap gap
  ne_nil : gap ≠ []
  nulFree : NulFree gap

section Layout

theorem Gap.lexes {gap rest : Bytes} {T : List (TokenType × Bytes)} (h : Gap gap)
    (hrest : Lexes rest T) : Lexes (gap ++ rest) T := by
  induction h with
  | nil => exact hrest
  | space hspace _ ih => exact .space hspace ih
  | @lineComment body gap hbody _ ih =>
      have hline : Lexes (newline :: (gap ++ rest)) T := .space (by decide) ih
      have hcomment := Lexes.lineComment hbody (.inr rfl) hline
      simpa using hcomment
  | @blockComment body gap hbody _ ih =>
      have hcomment := Lexes.blockComment hbody ih
      simpa using hcomment

/-- How a gap begins. -/
theorem Separates.head {gap : Bytes} (h : Separates gap) (rest : Bytes) :
    ∀ b ∈ (gap ++ rest).head?, isspace b = true ∨ b = minus ∨ b = slash := by
  obtain ⟨hgap, hne, -⟩ := h
  intro b hb
  cases hgap with
  | nil => exact absurd rfl hne
  | space hspace _ =>
      obtain rfl := Option.some.inj hb
      exact .inl hspace
  | lineComment =>
      obtain rfl := Option.some.inj hb
      exact .inr (.inl rfl)
  | blockComment =>
      obtain rfl := Option.some.inj hb
      exact .inr (.inr rfl)

theorem isWordByte_gap {b : Byte} (h : isspace b = true ∨ b = minus ∨ b = slash) :
    isWordByte b = false ∧ isdigit b = false ∧ b ≠ quote := by
  rcases h with h | rfl | rfl
  · simp only [isWordByte, isalnum, isalpha, isdigit, isspace, underscore, space, quote] at *
    grind
  · decide
  · decide

/-- A spelling is the one `spell` gives. -/
theorem Spelling.eq_spell {t : TokenType × Bytes} {w : Bytes} (h : Spelling t w) :
    w = spell t := by
  cases h with
  | @word word type hword htype =>
      have hne : type ≠ .string := by
        rcases htype with ⟨reserved, hreserved, -⟩ | ⟨rfl, -⟩
        · have hall : ∀ entry ∈ reservedWords, entry.1 ≠ .string := by decide
          exact hall _ hreserved
        · decide
      cases type <;> first | rfl | exact absurd rfl hne
  | number => rfl
  | negative => rfl
  | string => rfl
  | @simple ch type hsimple =>
      have hall : ∀ entry ∈ simpleTokens, entry.1 ≠ .string := by decide
      have hne := hall _ hsimple
      cases type <;> first | rfl | exact absurd rfl hne

/-- A spelling is a longest match in front of a gap. -/
theorem Spelling.longestMatch {t : TokenType × Bytes} {w gap : Bytes} (h : Spelling t w)
    (hgap : Separates gap) (rest : Bytes) : LongestMatch Spelling w (gap ++ rest) := by
  have hhead : ∀ b ∈ (gap ++ rest).head?,
      isWordByte b = false ∧ isdigit b = false ∧ b ≠ quote :=
    fun b hb => isWordByte_gap (hgap.head rest b hb)
  cases h with
  | word hword _ =>
      cases hword with
      | mk hstart _ => exact longestMatch_word hstart fun b hb => (hhead b hb).1
  | number hne hdigits =>
      obtain ⟨d, digits, rfl⟩ := List.exists_cons_of_ne_nil hne
      exact longestMatch_number (.inl (hdigits d List.mem_cons_self))
        fun b hb => (hhead b hb).2.1
  | negative _ _ => exact longestMatch_number (.inr rfl) fun b hb => (hhead b hb).2.1
  | string _ => exact longestMatch_string fun hquote => (hhead quote hquote).2.2 rfl
  | simple hsimple =>
      exact longestMatch_simple _ (simpleTokenType_eq_some_iff.mpr hsimple)

/-- Spelled tokens with gaps behind them are read back, in whatever layout. -/
theorem lexes_layOut {pieces : List ((TokenType × Bytes) × Bytes)}
    (hspelled : ∀ piece ∈ pieces, ∃ w, Spelling piece.1 w)
    (hgaps : ∀ piece ∈ pieces, Separates piece.2) :
    Lexes (layOut pieces) (pieces.map Prod.fst) := by
  induction pieces with
  | nil => exact .done
  | cons piece pieces ih =>
      obtain ⟨⟨w, hspell⟩, hspelled⟩ := List.forall_mem_cons.mp hspelled
      obtain ⟨hgap, hgaps⟩ := List.forall_mem_cons.mp hgaps
      have hrest := hgap.isGap.lexes (ih hspelled hgaps)
      have htoken := Lexes.token hspell (hspell.longestMatch hgap _) hrest
      rw [hspell.eq_spell, ← List.append_assoc] at htoken
      exact htoken

end Layout

/-! ## The tokens of statements -/

/-- An identifier: a word that is not reserved. -/
structure IsIdent (word : Bytes) : Prop where
  isWord : IsWord word
  type : WordType word .identifier

theorem isWord_of_all {word : Bytes}
    (h : (word.head?.any isWordStart && word.tail.all isWordByte) = true) : IsWord word := by
  cases word with
  | nil => simp at h
  | cons ch body =>
      obtain ⟨hstart, hbody⟩ : isWordStart ch = true ∧ ∀ b ∈ body, isWordByte b = true := by
        simpa using h
      exact .mk hstart hbody

/-- The two tests that make a word an identifier. -/
theorem isIdent_of_keywordType {word : Bytes}
    (hword : (word.head?.any isWordStart && word.tail.all isWordByte) = true)
    (htype : keywordType word = .identifier) : IsIdent word :=
  ⟨isWord_of_all hword, (wordType_iff (isWord_of_all hword).nulFree).mpr htype⟩

/-- A name made of identifiers. -/
inductive QualifiedName.Spellable : QualifiedName → Prop
  | table {table : Bytes} (htable : IsIdent table) : Spellable ⟨none, some table⟩
  | qualified {schema table : Bytes} (hschema : IsIdent schema) (htable : IsIdent table) :
      Spellable ⟨some schema, some table⟩

/-- A statement that can be written down: its names are identifiers, its lists are as
long as the grammar wants them, and its values are C strings. -/
inductive Statement.Spellable : Statement → Prop
  | insert {target : QualifiedName} {columns values : List Bytes} (htarget : target.Spellable)
      (hcolumns : columns ≠ [] ∧ ∀ column ∈ columns, IsIdent column)
      (hvalues : values ≠ [] ∧ ∀ value ∈ values, NulFree value) :
      Spellable (.insert ⟨target, columns, values⟩)
  | select {source : QualifiedName} {selectAll : Bool} {columns : List Bytes}
      {where_ : Option WhereClause} (hsource : source.Spellable)
      (hlist : selectAll = true ↔ columns = []) (hcolumns : ∀ column ∈ columns, IsIdent column)
      (hwhere : ∀ clause ∈ where_, IsIdent clause.column ∧ NulFree clause.value) :
      Spellable (.select ⟨source, selectAll, columns, where_⟩)

/-- A token, wherever it stands. -/
def Token.of (type : TokenType) (lexeme : Bytes) : Token :=
  { type, lexeme, line := 1, column := 1 }

/-- The tokens of a list with commas. -/
def commaTokens (type : TokenType) : List Bytes → List Token
  | [] => []
  | [x] => [.of type x]
  | x :: y :: xs => .of type x :: .of .comma [comma] :: commaTokens type (y :: xs)

/-- The tokens of a name. -/
def QualifiedName.tokens : QualifiedName → List Token
  | ⟨schema, table⟩ =>
      (schema.elim [] fun schema => [.of .identifier schema, .of .dot [dot]]) ++
        [.of .identifier (table.getD [])]

/-- The tokens of a WHERE clause. -/
def WhereClause.tokens (clause : WhereClause) : List Token :=
  [.of .where_ (ascii "WHERE"), .of .identifier clause.column, .of .equal [equal],
    .of .string clause.value]

/-- The tokens of a statement. -/
def Statement.tokens : Statement → List Token
  | .insert ⟨target, columns, values⟩ =>
      .of .insert (ascii "INSERT") :: .of .into (ascii "INTO") :: (target.tokens ++
        .of .lparen [lparen] :: (commaTokens .identifier columns ++
          .of .rparen [rparen] :: .of .values (ascii "VALUES") :: .of .lparen [lparen] ::
            (commaTokens .string values ++ [.of .rparen [rparen]])))
  | .select ⟨source, selectAll, columns, where_⟩ =>
      .of .select (ascii "SELECT") ::
        ((if selectAll then [.of .star [star]] else commaTokens .identifier columns) ++
          .of .from_ (ascii "FROM") :: (source.tokens ++ where_.elim [] WhereClause.tokens))

/-- The tokens of a script, a semicolon behind each statement. -/
def scriptTokens (script : List Statement) : List Token :=
  script.flatMap fun statement => statement.tokens ++ [.of .semicolon [semicolon]]

/-- The text of a script, with a space behind each token. -/
def scriptText (script : List Statement) : Bytes :=
  layOut ((scriptTokens script).map fun t => (t.spelled, [space]))

/-! ## The tokens derive the statement -/

section Derive

theorem identList_commaTokens {columns : List Bytes} (hne : columns ≠ []) :
    IdentList (commaTokens .identifier columns) columns := by
  fun_induction commaTokens .identifier columns with
  | case1 => exact absurd rfl hne
  | case2 x => exact .one rfl
  | case3 x y xs ih => exact .more rfl rfl (ih (by simp))

theorem valueList_commaTokens {values : List Bytes} (hne : values ≠ []) :
    ValueList (commaTokens .string values) values := by
  fun_induction commaTokens .string values with
  | case1 => exact absurd rfl hne
  | case2 x => exact .one rfl
  | case3 x y xs ih => exact .more rfl rfl (ih (by simp))

theorem QualifiedName.Spellable.derives {name : QualifiedName} (h : name.Spellable) :
    Name name.tokens name := by
  cases h with
  | table _ => exact .table rfl
  | qualified _ _ => exact .qualified rfl rfl rfl

theorem Statement.Spellable.derives {statement : Statement} (h : statement.Spellable) :
    Stmt statement.tokens statement := by
  cases h with
  | insert htarget hcolumns hvalues =>
      exact .insert rfl (.mk rfl htarget.derives rfl (identList_commaTokens hcolumns.1) rfl rfl
        rfl (valueList_commaTokens hvalues.1) rfl)
  | @select source selectAll columns where_ hsource hlist hcolumns hwhere =>
      have hwhere : Where (where_.elim [] WhereClause.tokens) where_ := by
        cases where_ with
        | none => exact .absent
        | some clause => exact .present rfl rfl rfl rfl
      have hselect : SelectList
          (if selectAll then [.of .star [star]] else commaTokens .identifier columns)
          (selectAll, columns) := by
        cases selectAll with
        | true =>
            rw [hlist.mp rfl]
            exact .all rfl
        | false => exact .columns (identList_commaTokens fun hnil => by simp [hnil] at hlist)
      exact .select rfl (.mk hselect rfl hsource.derives hwhere)

/-- The tokens of a script derive it. -/
theorem script_scriptTokens {script : List Statement}
    (h : ∀ statement ∈ script, statement.Spellable) :
    Script (scriptTokens script) (script.map fun statement => (statement.tokens, statement)) := by
  induction script with
  | nil => exact .nil
  | cons statement script ih =>
      obtain ⟨hstatement, hscript⟩ := List.forall_mem_cons.mp h
      have hcons := Script.stmtSemicolon (t := .of .semicolon [semicolon]) hstatement.derives rfl
        (ih hscript)
      simpa [scriptTokens] using hcons

end Derive

/-! ## The tokens can be spelled -/

section Spell

/-- A token of the lexical grammar that holds no NUL. -/
structure Token.Spells (t : Token) : Prop where
  spelling : ∃ w, Spelling t.spelled w
  nulFree : NulFree t.lexeme

theorem spells_ident {x : Bytes} (h : IsIdent x) : (Token.of .identifier x).Spells :=
  ⟨⟨x, .word h.isWord h.type⟩, h.isWord.nulFree⟩

theorem spells_value {x : Bytes} (h : NulFree x) : (Token.of .string x).Spells :=
  ⟨⟨_, .string x⟩, h⟩

theorem spells_simple {type : TokenType} {ch : Byte} (h : (type, ch) ∈ simpleTokens) :
    (Token.of type [ch]).Spells := by
  refine ⟨⟨[ch], .simple h⟩, ?_⟩
  have hall : ∀ entry ∈ simpleTokens, NulFree [entry.2] := by decide
  exact hall _ h

theorem isWord_reserved : ∀ entry ∈ reservedWords, IsWord entry.2 := by
  have hall : reservedWords.all (fun entry =>
      entry.2.head?.any isWordStart && entry.2.tail.all isWordByte) = true := by decide
  intro entry hentry
  exact isWord_of_all (List.all_eq_true.mp hall entry hentry)

theorem spells_reserved {type : TokenType} {word : Bytes} (h : (type, word) ∈ reservedWords) :
    (Token.of type word).Spells := by
  have hword := isWord_reserved _ h
  exact ⟨⟨word, .word hword (.inl ⟨word, h, rfl⟩)⟩, hword.nulFree⟩

theorem spells_commaTokens {type : TokenType} {xs : List Bytes}
    (h : ∀ x ∈ xs, (Token.of type x).Spells) : ∀ t ∈ commaTokens type xs, t.Spells := by
  fun_induction commaTokens type xs with
  | case1 => simp
  | case2 x => simpa using h
  | case3 x y xs ih =>
      obtain ⟨hx, hrest⟩ := List.forall_mem_cons.mp h
      simp only [List.forall_mem_cons]
      exact ⟨hx, spells_simple (by decide), ih hrest⟩

theorem QualifiedName.Spellable.spells {name : QualifiedName} (h : name.Spellable) :
    ∀ t ∈ name.tokens, t.Spells := by
  cases h with
  | table htable => simpa [QualifiedName.tokens] using spells_ident htable
  | qualified hschema htable =>
      simpa [QualifiedName.tokens] using
        ⟨spells_ident hschema, spells_simple (by decide), spells_ident htable⟩

theorem Statement.Spellable.spells {statement : Statement} (h : statement.Spellable) :
    ∀ t ∈ statement.tokens, t.Spells := by
  cases h with
  | insert htarget hcolumns hvalues =>
      simp only [Statement.tokens, List.forall_mem_cons, List.forall_mem_append]
      exact ⟨spells_reserved (by decide), spells_reserved (by decide), htarget.spells,
        spells_simple (by decide), spells_commaTokens fun x hx => spells_ident (hcolumns.2 x hx),
        spells_simple (by decide), spells_reserved (by decide), spells_simple (by decide),
        spells_commaTokens fun x hx => spells_value (hvalues.2 x hx),
        spells_simple (by decide), by simp⟩
  | @select source selectAll columns where_ hsource hlist hcolumns hwhere =>
      simp only [Statement.tokens, List.forall_mem_cons, List.forall_mem_append]
      refine ⟨spells_reserved (by decide), ?_, spells_reserved (by decide), hsource.spells, ?_⟩
      · cases selectAll with
        | true => simpa using spells_simple (by decide)
        | false => exact spells_commaTokens fun x hx => spells_ident (hcolumns x hx)
      · cases where_ with
        | none => simp
        | some clause =>
            obtain ⟨hcolumn, hvalue⟩ := hwhere clause rfl
            simp only [Option.elim_some, WhereClause.tokens, List.forall_mem_cons]
            exact ⟨spells_reserved (by decide), spells_ident hcolumn, spells_simple (by decide),
              spells_value hvalue, by simp⟩

theorem spells_scriptTokens {script : List Statement}
    (h : ∀ statement ∈ script, statement.Spellable) : ∀ t ∈ scriptTokens script, t.Spells := by
  intro t ht
  obtain ⟨statement, hstatement, ht⟩ := List.mem_flatMap.mp ht
  rcases List.mem_append.mp ht with ht | ht
  · exact (h statement hstatement).spells t ht
  · rw [List.mem_singleton.mp ht]
    exact spells_simple (by decide)

end Spell

/-! ## What can be read can be written -/

section Read

theorem IsIdent.of_spelling {x w : Bytes} (h : Spelling (.identifier, x) w) : IsIdent x := by
  generalize ht : (TokenType.identifier, x) = t at h
  cases h with
  | word hword htype =>
      obtain ⟨rfl, rfl⟩ := Prod.mk.inj ht
      exact ⟨hword, htype⟩
  | number => simp at ht
  | negative => simp at ht
  | string => simp at ht
  | simple hsimple =>
      obtain ⟨rfl, -⟩ := Prod.mk.inj ht
      have hall : ∀ entry ∈ simpleTokens, entry.1 ≠ .identifier := by decide
      exact absurd rfl (hall _ hsimple)

theorem identLexeme_isIdent {t : Token} {x : Bytes} (ht : t.Spells)
    (h : identLexeme t = some x) : IsIdent x := by
  obtain ⟨htype, rfl⟩ := identLexeme_eq_some_iff.mp h
  obtain ⟨w, hspell⟩ := ht.spelling
  rw [Token.spelled, htype] at hspell
  exact .of_spelling hspell

theorem valueLexeme_nulFree {t : Token} {x : Bytes} (ht : t.Spells)
    (h : valueLexeme t = some x) : NulFree x := by
  obtain ⟨-, rfl⟩ := valueLexeme_eq_some_iff.mp h
  exact ht.nulFree

theorem Name.spellable {b : List Token} {name : QualifiedName} (h : Name b name)
    (hb : ∀ t ∈ b, t.Spells) : name.Spellable := by
  cases h with
  | @table t table htable => exact .table (identLexeme_isIdent (hb t (by simp)) htable)
  | @qualified s d t schema table hschema hdot htable =>
      exact .qualified (identLexeme_isIdent (hb s (by simp)) hschema)
        (identLexeme_isIdent (hb t (by simp)) htable)

theorem IdentList.spellable {b : List Token} {columns : List Bytes} (h : IdentList b columns)
    (hb : ∀ t ∈ b, t.Spells) : columns ≠ [] ∧ ∀ column ∈ columns, IsIdent column := by
  refine ⟨by cases h <;> simp, fun column hcolumn => ?_⟩
  obtain ⟨t, ht, hlexeme⟩ := SepBy1.exists_token h column hcolumn
  exact identLexeme_isIdent (hb t ht) hlexeme

theorem ValueList.spellable {b : List Token} {values : List Bytes} (h : ValueList b values)
    (hb : ∀ t ∈ b, t.Spells) : values ≠ [] ∧ ∀ value ∈ values, NulFree value := by
  refine ⟨by cases h <;> simp, fun value hvalue => ?_⟩
  obtain ⟨t, ht, hlexeme⟩ := SepBy1.exists_token h value hvalue
  exact valueLexeme_nulFree (hb t ht) hlexeme

theorem Where.spellable {b : List Token} {where_ : Option WhereClause} (h : Where b where_)
    (hb : ∀ t ∈ b, t.Spells) : ∀ clause ∈ where_, IsIdent clause.column ∧ NulFree clause.value := by
  intro clause hclause
  cases h with
  | absent => simp at hclause
  | @present w c e v column value hwhere hcolumn hequal hvalue =>
      obtain rfl := Option.some.inj hclause
      exact ⟨identLexeme_isIdent (hb c (by simp)) hcolumn,
        valueLexeme_nulFree (hb v (by simp)) hvalue⟩

theorem Stmt.spellable {b : List Token} {statement : Statement} (h : Stmt b statement)
    (hb : ∀ t ∈ b, t.Spells) : statement.Spellable := by
  cases h with
  | insert hinsert htail =>
      cases htail with
      | mk hinto hname hlp hcolumns hrp hvalues hlp' hliterals hrp' =>
          simp only [List.forall_mem_cons, List.forall_mem_append] at hb
          obtain ⟨-, -, hbname, -, hbcolumns, -, -, -, hbvalues, -⟩ := hb
          exact .insert (hname.spellable hbname) (IdentList.spellable hcolumns hbcolumns)
            (ValueList.spellable hliterals hbvalues)
  | select hselect htail =>
      cases htail with
      | mk hlist hfrom hname hwhere =>
          simp only [List.forall_mem_cons, List.forall_mem_append] at hb
          obtain ⟨-, hblist, -, hbname, hbwhere⟩ := hb
          have hclause := hwhere.spellable hbwhere
          cases hlist with
          | all hstar => exact .select (hname.spellable hbname) (by simp) (by simp) hclause
          | columns hcolumns =>
              obtain ⟨hne, hidents⟩ := IdentList.spellable hcolumns hblist
              exact .select (hname.spellable hbname) (by simp [hne]) hidents hclause

/-- The statements of any text can be written down. -/
theorem parseSqlScript_spellable (text : Bytes) :
    ∀ statement ∈ (parseSqlScript (cString text)).script, statement.Spellable := by
  by_cases hparse : (parseSqlScript (cString text)).result = .ok ()
  · obtain ⟨body, pieces, hlexes, hscript, hstatements⟩ := parseSqlScript_eq_ok hparse
    have hbody : ∀ t ∈ body, t.Spells := by
      intro t ht
      obtain ⟨w, hspell, -⟩ := hlexes.mem_spelling (List.mem_map_of_mem ht)
      exact ⟨⟨w, hspell⟩, fun hnul => cString_nulFree text ((hlexes.spelledIn t ht).subset 0 hnul)⟩
    rw [hstatements]
    intro statement hmem
    obtain ⟨p, hp, rfl⟩ := List.mem_map.mp hmem
    obtain ⟨hstmt, hsub⟩ := hscript.stmt_of_mem p hp
    exact hstmt.spellable fun t ht => hbody t (hsub t ht)
  · rw [parseSqlScript_failed hparse]
    simp

end Read

/-! ## Texts and their scripts -/

theorem nulFree_doubleQuotes {content : Bytes} (h : NulFree content) :
    NulFree (doubleQuotes content) := by
  intro hmem
  obtain ⟨b, hb, hmem⟩ := List.mem_flatMap.mp hmem
  by_cases hquote : b = quote
  · rw [if_pos hquote] at hmem
    exact absurd hmem (by decide)
  · rw [if_neg hquote, List.mem_singleton] at hmem
    rw [← hmem] at hb
    exact h hb

theorem nulFree_spell {t : TokenType × Bytes} (h : NulFree t.2) : NulFree (spell t) := by
  obtain ⟨type, lexeme⟩ := t
  cases type <;> try exact h
  have hquote : NulFree [quote] := by decide
  exact (hquote.append (nulFree_doubleQuotes h)).append hquote

theorem nulFree_layOut {pieces : List ((TokenType × Bytes) × Bytes)}
    (htokens : ∀ piece ∈ pieces, NulFree piece.1.2) (hgaps : ∀ piece ∈ pieces, NulFree piece.2) :
    NulFree (layOut pieces) := by
  intro hmem
  obtain ⟨piece, hpiece, hmem⟩ := List.mem_flatMap.mp hmem
  exact (nulFree_spell (htokens piece hpiece)).append (hgaps piece hpiece) hmem

/-- The pieces that spell the tokens of a script are a text with these tokens. -/
theorem layOut_lexes {script : List Statement} (h : ∀ statement ∈ script, statement.Spellable)
    {pieces : List ((TokenType × Bytes) × Bytes)}
    (htokens : pieces.map Prod.fst = (scriptTokens script).map Token.spelled)
    (hgaps : ∀ piece ∈ pieces, Separates piece.2) :
    NulFree (layOut pieces) ∧
      Lexes (layOut pieces) ((scriptTokens script).map Token.spelled) := by
  have hpieces : ∀ piece ∈ pieces, (∃ w, Spelling piece.1 w) ∧ NulFree piece.1.2 := by
    intro piece hpiece
    have hmem : piece.1 ∈ (scriptTokens script).map Token.spelled := by
      rw [← htokens]
      exact List.mem_map_of_mem hpiece
    obtain ⟨t, ht, hspelled⟩ := List.mem_map.mp hmem
    have hspells := spells_scriptTokens h t ht
    rw [← hspelled]
    exact ⟨hspells.spelling, hspells.nulFree⟩
  refine ⟨nulFree_layOut (fun piece hpiece => (hpieces piece hpiece).2)
    fun piece hpiece => (hgaps piece hpiece).nulFree, ?_⟩
  rw [← htokens]
  exact lexes_layOut (fun piece hpiece => (hpieces piece hpiece).1) hgaps

/-- A text with the tokens of a script is parsed to it. -/
theorem parseSqlScript_of_spelled {script : List Statement}
    (h : ∀ statement ∈ script, statement.Spellable) {text : Bytes} (hnul : NulFree text)
    (hlexes : Lexes text ((scriptTokens script).map Token.spelled)) :
    parseSqlScript (cString text) = ⟨.ok (), script⟩ := by
  obtain ⟨hresult, hscript⟩ := parseSqlScript_of_lexes hlexes (script_scriptTokens h)
  rw [List.map_map, Function.comp_def, List.map_id'] at hscript
  rw [cString_of_nulFree hnul]
  generalize parseSqlScript text = outcome at hresult hscript
  obtain ⟨result, statements⟩ := outcome
  subst hresult
  rw [← hscript]

theorem separates_space : Separates [space] :=
  ⟨.space (by decide) .nil, by simp, by decide⟩

/-- The text of a script is that script. -/
theorem parseSqlScript_scriptText {script : List Statement}
    (h : ∀ statement ∈ script, statement.Spellable) :
    parseSqlScript (cString (scriptText script)) = ⟨.ok (), script⟩ := by
  obtain ⟨htext, hlexes⟩ : NulFree (scriptText script) ∧ _ := by
    refine layOut_lexes h (by simp) ?_
    intro piece hpiece
    obtain ⟨t, -, rfl⟩ := List.mem_map.mp hpiece
    exact separates_space
  exact parseSqlScript_of_spelled h htext hlexes

/-- The scripts the parser answers are those that can be written down, and for each of
them the text of the script is one that is parsed to it. -/
theorem parseSqlScript_range (script : List Statement) :
    ((∃ text, parseSqlScript (cString text) = ⟨.ok (), script⟩) ↔
        ∀ statement ∈ script, statement.Spellable) ∧
      (parseSqlScript (cString (scriptText script)) = ⟨.ok (), script⟩ ↔
        ∀ statement ∈ script, statement.Spellable) := by
  have hread : ∀ text, parseSqlScript (cString text) = ⟨.ok (), script⟩ →
      ∀ statement ∈ script, statement.Spellable := by
    intro text htext
    have hspellable := parseSqlScript_spellable text
    rw [htext] at hspellable
    exact hspellable
  constructor
  · constructor
    · intro h
      obtain ⟨text, htext⟩ := h
      exact hread text htext
    · intro h
      exact ⟨scriptText script, parseSqlScript_scriptText h⟩
  · exact ⟨hread _, parseSqlScript_scriptText⟩

end MiniSql
