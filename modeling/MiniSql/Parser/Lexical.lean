import MiniSql.Parser.Tokenizer

set_option autoImplicit false

/-!
# The lexical grammar

`Lexes source T`: the source is the concatenation of white space, comments and,
as longest matches, the spellings of the tokens `T`.  The grammar says nothing
about how a source is scanned; `tokenizeLoop_lexes` and `Lexes.tokenizeLoop`
show that `tokenize_sql` accepts exactly its sources.
-/

namespace MiniSql

open Foundation

/-- What a token says, without where it stands. -/
def Token.spelled (t : Token) : TokenType × Bytes := (t.type, t.lexeme)

/-- The six reserved words. -/
def reservedWords : List (TokenType × Bytes) :=
  [(.insert, ascii "INSERT"), (.into, ascii "INTO"), (.values, ascii "VALUES"),
    (.select, ascii "SELECT"), (.from_, ascii "FROM"), (.where_, ascii "WHERE")]

/-- The type of a word: that of the reserved word it is in some letter case, and
identifier when there is none. -/
def WordType (word : Bytes) (type : TokenType) : Prop :=
  (∃ reserved, (type, reserved) ∈ reservedWords ∧ foldCase word = foldCase reserved) ∨
    (type = .identifier ∧ ∀ entry ∈ reservedWords, foldCase word ≠ foldCase entry.2)

/-- The characters that are tokens by themselves. -/
def simpleTokens : List (TokenType × Byte) :=
  [(.comma, comma), (.dot, dot), (.lparen, lparen), (.rparen, rparen),
    (.semicolon, semicolon), (.star, star), (.equal, equal)]

/-- A word of the lexical grammar: `[A-Za-z_][A-Za-z0-9_]*`. -/
inductive IsWord : Bytes → Prop
  | mk {ch : Byte} {body : Bytes} (hstart : isWordStart ch = true)
      (hbody : ∀ b ∈ body, isWordByte b = true) : IsWord (ch :: body)

/-- The spellings of a token. -/
inductive Spelling : TokenType × Bytes → Bytes → Prop
  | word {word : Bytes} {type : TokenType} (hword : IsWord word)
      (htype : WordType word type) : Spelling (type, word) word
  | number {digits : Bytes} (hne : digits ≠ [])
      (hdigits : ∀ b ∈ digits, isdigit b = true) : Spelling (.number, digits) digits
  | negative {digits : Bytes} (hne : digits ≠ [])
      (hdigits : ∀ b ∈ digits, isdigit b = true) :
      Spelling (.number, minus :: digits) (minus :: digits)
  | string (content : Bytes) :
      Spelling (.string, content) (quote :: doubleQuotes content ++ [quote])
  | simple {ch : Byte} {type : TokenType} (hsimple : (type, ch) ∈ simpleTokens) :
      Spelling (type, [ch]) [ch]

/-- The lexical grammar. -/
inductive Lexes : Bytes → List (TokenType × Bytes) → Prop
  | done : Lexes [] []
  | space {ch : Byte} {rest : Bytes} {T : List (TokenType × Bytes)}
      (hspace : isspace ch = true) (hrest : Lexes rest T) : Lexes (ch :: rest) T
  | lineComment {body rest : Bytes} {T : List (TokenType × Bytes)}
      (hbody : newline ∉ body) (hend : rest = [] ∨ rest.head? = some newline)
      (hrest : Lexes rest T) : Lexes (minus :: minus :: body ++ rest) T
  | blockComment {body rest : Bytes} {T : List (TokenType × Bytes)}
      (hbody : ClosesFirst body) (hrest : Lexes rest T) :
      Lexes (slash :: star :: body ++ star :: slash :: rest) T
  | token {w rest : Bytes} {t : TokenType × Bytes} {T : List (TokenType × Bytes)}
      (hspell : Spelling t w) (hlongest : LongestMatch Spelling w rest)
      (hrest : Lexes rest T) : Lexes (w ++ rest) (t :: T)

/-! ## Words and their types -/

/-- The bytes of a word are word bytes. -/
theorem IsWord.bytes {word : Bytes} (h : IsWord word) : ∀ b ∈ word, isWordByte b = true := by
  cases h with
  | mk hstart hbody =>
      intro b hb
      rcases List.mem_cons.mp hb with hb | hb
      · rw [hb]
        exact (isWordStart_excludes hstart).2.2.2
      · exact hbody b hb

theorem IsWord.nulFree {word : Bytes} (h : IsWord word) : NulFree word := by
  intro hmem
  have := h.bytes 0 hmem
  revert this
  decide

theorem keywordType_wordType {word : Bytes} (h : NulFree word) :
    WordType word (keywordType word) := by
  have hcmp : ∀ entry ∈ reservedWords,
      sqlStricmp word entry.2 = 0 ↔ foldCase word = foldCase entry.2 := by
    intro entry hentry
    refine sqlStricmp_eq_zero_iff h ?_
    revert entry
    decide
  simp only [reservedWords, List.forall_mem_cons, List.not_mem_nil, false_implies,
    implies_true, and_true] at hcmp
  obtain ⟨h₁, h₂, h₃, h₄, h₅, h₆⟩ := hcmp
  unfold keywordType WordType
  simp only [h₁, h₂, h₃, h₄, h₅, h₆]
  split_ifs with c₁ c₂ c₃ c₄ c₅ c₆
  · exact .inl ⟨_, by decide, c₁⟩
  · exact .inl ⟨_, by decide, c₂⟩
  · exact .inl ⟨_, by decide, c₃⟩
  · exact .inl ⟨_, by decide, c₄⟩
  · exact .inl ⟨_, by decide, c₅⟩
  · exact .inl ⟨_, by decide, c₆⟩
  · refine .inr ⟨rfl, ?_⟩
    simp only [reservedWords, List.forall_mem_cons, List.not_mem_nil, false_implies,
      implies_true, and_true]
    exact ⟨c₁, c₂, c₃, c₄, c₅, c₆⟩

/-- A word has one type only. -/
theorem WordType.unique {word : Bytes} {type type' : TokenType}
    (h : WordType word type) (h' : WordType word type') : type = type' := by
  have hinj : ∀ e ∈ reservedWords, ∀ e' ∈ reservedWords,
      foldCase e.2 = foldCase e'.2 → e.1 = e'.1 := by decide
  rcases h with ⟨r, hr, hfold⟩ | ⟨htype, hnone⟩
  · rcases h' with ⟨r', hr', hfold'⟩ | ⟨_, hnone'⟩
    · exact hinj _ hr _ hr' (hfold.symm.trans hfold')
    · exact absurd hfold (hnone' _ hr)
  · rcases h' with ⟨r', hr', hfold'⟩ | ⟨htype', _⟩
    · exact absurd hfold' (hnone _ hr')
    · rw [htype, htype']

theorem wordType_iff {word : Bytes} {type : TokenType} (h : NulFree word) :
    WordType word type ↔ keywordType word = type := by
  constructor
  · intro htype
    exact (keywordType_wordType h).unique htype
  · intro htype
    rw [← htype]
    exact keywordType_wordType h

theorem simpleTokenType_eq_some_iff {ch : Byte} {type : TokenType} :
    simpleTokenType ch = some type ↔ (type, ch) ∈ simpleTokens := by
  constructor
  · intro h
    unfold simpleTokenType at h
    split_ifs at h with h₁ h₂ h₃ h₄ h₅ h₆ h₇ <;> cases h <;> subst ch <;> decide
  · intro h
    have hall : ∀ e ∈ simpleTokens, simpleTokenType e.2 = some e.1 := by decide
    exact hall _ h

/-! ## The longest matches -/

/-- A spelling is not empty. -/
theorem Spelling.ne_nil {t : TokenType × Bytes} {w : Bytes} (h : Spelling t w) : w ≠ [] := by
  cases h with
  | word hword => cases hword; simp
  | number hne => exact hne
  | negative => simp
  | string => simp
  | simple => simp

/-- How a spelling begins decides its class. -/
theorem Spelling.cases_head {t : TokenType × Bytes} {ch : Byte} {w : Bytes}
    (h : Spelling t (ch :: w)) :
    (isWordStart ch = true ∧ ∀ b ∈ w, isWordByte b = true) ∨
      ((isdigit ch = true ∨ (ch = minus ∧ w ≠ [])) ∧ ∀ b ∈ w, isdigit b = true) ∨
      (ch = quote ∧ ∃ content, w = doubleQuotes content ++ [quote]) ∨
      (simpleTokenType ch = some t.1 ∧ w = []) := by
  generalize hinput : ch :: w = input at h
  cases h with
  | word hword htype =>
      cases hword with
      | mk hstart hbody =>
          obtain ⟨rfl, rfl⟩ := List.cons.inj hinput
          exact .inl ⟨hstart, hbody⟩
  | number hne hdigits =>
      subst hinput
      exact .inr (.inl ⟨.inl (hdigits ch List.mem_cons_self),
        fun b hb => hdigits b (List.mem_cons_of_mem _ hb)⟩)
  | negative hne hdigits =>
      obtain ⟨rfl, rfl⟩ := List.cons.inj hinput
      exact .inr (.inl ⟨.inr ⟨rfl, hne⟩, hdigits⟩)
  | string content =>
      obtain ⟨rfl, rfl⟩ := List.cons.inj hinput
      exact .inr (.inr (.inl ⟨rfl, content, rfl⟩))
  | simple hsimple =>
      obtain ⟨rfl, rfl⟩ := List.cons.inj hinput
      exact .inr (.inr (.inr ⟨simpleTokenType_eq_some_iff.mpr hsimple, rfl⟩))

theorem isWordStart_quote : isWordStart quote = false := by decide

theorem isdigit_quote : isdigit quote = false := by decide

theorem simpleTokenType_quote : simpleTokenType quote = none := by decide

theorem isdigit_isWordByte {ch : Byte} (h : isdigit ch = true) : isWordByte ch = true := by
  simp [isWordByte, isalnum, h]

/-- A word is a longest match when no word byte follows it. -/
theorem longestMatch_word {ch : Byte} {body rest : Bytes} (hstart : isWordStart ch = true)
    (hrest : ∀ b ∈ rest.head?, isWordByte b = false) :
    LongestMatch Spelling (ch :: body) rest := by
  obtain ⟨-, hminus, -, -⟩ := isWordStart_excludes hstart
  rw [longestMatch_iff]
  intro t b rest' hne hsplit hspell
  obtain ⟨c, b', rfl⟩ := List.exists_cons_of_ne_nil hne
  have hc : isWordByte c = false := hrest c (by simp [hsplit])
  have hmem : c ∈ body ++ c :: b' := by simp
  rw [List.cons_append] at hspell
  rcases hspell.cases_head with ⟨-, hbody⟩ | ⟨-, hdigits⟩ | ⟨rfl, -⟩ | ⟨-, hnil⟩
  · simp [hbody c hmem] at hc
  · simp [isdigit_isWordByte (hdigits c hmem)] at hc
  · simp [isWordStart_quote] at hstart
  · simp at hnil

/-- A number is a longest match when no digit follows it. -/
theorem longestMatch_number {ch : Byte} {body rest : Bytes}
    (hstart : isdigit ch = true ∨ ch = minus)
    (hrest : ∀ b ∈ rest.head?, isdigit b = false) :
    LongestMatch Spelling (ch :: body) rest := by
  have hword : isWordStart ch = false := by
    rcases hstart with hdigit | rfl
    · exact (isdigit_excludes hdigit).2.2.2
    · decide
  rw [longestMatch_iff]
  intro t b rest' hne hsplit hspell
  obtain ⟨c, b', rfl⟩ := List.exists_cons_of_ne_nil hne
  have hc : isdigit c = false := hrest c (by simp [hsplit])
  have hmem : c ∈ body ++ c :: b' := by simp
  rw [List.cons_append] at hspell
  rcases hspell.cases_head with ⟨hstart', -⟩ | ⟨-, hdigits⟩ | ⟨rfl, -⟩ | ⟨-, hnil⟩
  · simp [hword] at hstart'
  · simp [hdigits c hmem] at hc
  · rcases hstart with hdigit | hminus
    · simp [isdigit_quote] at hdigit
    · exact absurd hminus (by decide)
  · simp at hnil

/-- A literal is a longest match when no quote follows it. -/
theorem longestMatch_string {content rest : Bytes} (hrest : rest.head? ≠ some quote) :
    LongestMatch Spelling (quote :: doubleQuotes content ++ [quote]) rest := by
  rw [longestMatch_iff]
  intro t b rest' hne hsplit hspell
  obtain ⟨c, b', rfl⟩ := List.exists_cons_of_ne_nil hne
  have hc : (c :: b').head? ≠ some quote := by
    rw [hsplit] at hrest
    simpa using hrest
  rw [List.cons_append, List.cons_append] at hspell
  rcases hspell.cases_head with ⟨hstart, -⟩ | ⟨hstart, -⟩ | ⟨-, content', hw⟩ | ⟨htype, -⟩
  · simp [isWordStart_quote] at hstart
  · rcases hstart with hdigit | ⟨hminus, -⟩
    · simp [isdigit_quote] at hdigit
    · exact absurd hminus (by decide)
  · -- the scan of the longer literal stops at the first quote that is not doubled
    have hshort : readStringLoop (doubleQuotes content ++ [quote] ++ c :: b') [] 0 =
        some (content, c :: b', 0 + (doubleQuotes content).length) :=
      readStringLoop_eq_some_iff.mpr ⟨content, by simp, by simp, hc, rfl⟩
    have hlong : readStringLoop (doubleQuotes content ++ [quote] ++ c :: b') [] 0 =
        some (content', [], 0 + (doubleQuotes content').length) :=
      readStringLoop_eq_some_iff.mpr ⟨content', by simp, hw, by simp, rfl⟩
    rw [hshort] at hlong
    simp at hlong
  · simp [simpleTokenType_quote] at htype

/-- A single character is a longest match whatever follows it. -/
theorem longestMatch_simple {ch : Byte} {type : TokenType} (rest : Bytes)
    (htype : simpleTokenType ch = some type) : LongestMatch Spelling [ch] rest := by
  obtain ⟨-, hminus, -, hword, hdigit, hquote⟩ := simpleTokenType_excludes htype
  rw [longestMatch_iff]
  intro t b rest' hne _ hspell
  rw [List.singleton_append] at hspell
  rcases hspell.cases_head with ⟨hstart, -⟩ | ⟨hstart, -⟩ | ⟨hch, -⟩ | ⟨-, hnil⟩
  · simp [hword] at hstart
  · rcases hstart with hstart | ⟨hch, -⟩
    · simp [hdigit] at hstart
    · exact hminus hch
  · exact hquote hch
  · exact hne hnil

/-! ## The tokenizer accepts the grammar -/

/-- One move of the loop is one production of the grammar. -/
theorem LexMove.lexes {s s' : LexState} {input : Bytes} {T : List (TokenType × Bytes)}
    (h : LexMove s input s') (hrest : Lexes s'.rest T) :
    ∃ U, s'.tokens.map Token.spelled = s.tokens.map Token.spelled ++ U ∧
      Lexes input (U ++ T) := by
  cases h with
  | newline rest => exact ⟨[], by simp, .space (by decide) hrest⟩
  | blank rest hspace hch => exact ⟨[], by simp, .space hspace hrest⟩
  | lineComment hbody hend => exact ⟨[], by simp, .lineComment hbody hend hrest⟩
  | blockComment rest hbody => exact ⟨[], by simp, .blockComment hbody hrest⟩
  | @word ch body rest hstart hbody hboundary =>
      have hword : IsWord (ch :: body) := .mk hstart hbody
      exact ⟨[(keywordType (ch :: body), ch :: body)], by simp [Token.spelled],
        .token (.word hword (keywordType_wordType hword.nulFree))
          (longestMatch_word hstart hboundary) hrest⟩
  | @number ch body rest hstart hbody hboundary =>
      refine ⟨[(.number, ch :: body)], by simp [Token.spelled], ?_⟩
      refine .token ?_ (longestMatch_number (hstart.imp_right And.left) hboundary) hrest
      rcases hstart with hdigit | ⟨rfl, hne⟩
      · refine .number (by simp) ?_
        intro b hb
        rcases List.mem_cons.mp hb with hb | hb
        · rw [hb]
          exact hdigit
        · exact hbody b hb
      · exact .negative hne hbody
  | @string content rest hboundary =>
      refine ⟨[(.string, content)], by simp [Token.spelled], ?_⟩
      have htoken := Lexes.token (.string content) (longestMatch_string hboundary) hrest
      simpa using htoken
  | @simple ch type rest htype =>
      exact ⟨[(type, [ch])], by simp [Token.spelled],
        .token (.simple (simpleTokenType_eq_some_iff.mp htype))
          (longestMatch_simple rest htype) hrest⟩

/-- Every run of the loop to the end of the source is a derivation. -/
theorem tokenizeLoop_lexes {s t : LexState} (h : tokenizeLoop s = .ok t) :
    ∃ T, t.tokens.map Token.spelled = s.tokens.map Token.spelled ++ T ∧ Lexes s.rest T := by
  refine tokenizeLoop_induction (motive := fun s t =>
    ∃ T, t.tokens.map Token.spelled = s.tokens.map Token.spelled ++ T ∧ Lexes s.rest T)
    ?_ ?_ h
  · intro s hrest
    exact ⟨[], by simp, by rw [hrest]; exact .done⟩
  · intro s s' t _ hmove _ ih
    obtain ⟨T, htokens, hlexes⟩ := ih
    obtain ⟨U, htokens', hlexes'⟩ := hmove.lexes hlexes
    exact ⟨U ++ T, by rw [htokens, htokens', List.append_assoc], hlexes'⟩

/-- A source whose first byte is a quote begins with a literal. -/
theorem Lexes.quote_cases {input rest : Bytes} {T : List (TokenType × Bytes)}
    (h : Lexes input T) (hinput : input = quote :: rest) :
    ∃ content rest', rest = doubleQuotes content ++ quote :: rest' := by
  cases h with
  | done => simp at hinput
  | space hspace _ =>
      obtain ⟨rfl, -⟩ := List.cons.inj hinput
      exact absurd hspace (by decide)
  | lineComment => exact absurd (List.cons.inj hinput).1 (by decide)
  | blockComment => exact absurd (List.cons.inj hinput).1 (by decide)
  | @token w rest' t T hspell _ _ =>
      cases w with
      | nil => exact absurd rfl hspell.ne_nil
      | cons ch w =>
          obtain ⟨rfl, rfl⟩ := List.cons.inj hinput
          rcases hspell.cases_head with ⟨hstart, -⟩ | ⟨hstart, -⟩ | ⟨-, content, hw⟩ | ⟨htype, -⟩
          · simp [isWordStart_quote] at hstart
          · rcases hstart with hdigit | ⟨hminus, -⟩
            · simp [isdigit_quote] at hdigit
            · exact absurd hminus (by decide)
          · exact ⟨content, rest', by simp [hw]⟩
          · simp [simpleTokenType_quote] at htype

theorem doubleQuotes_append (v w : Bytes) :
    doubleQuotes (v ++ w) = doubleQuotes v ++ doubleQuotes w :=
  List.flatMap_append

/-- A token in front of a derivable source is what one move of the loop reads. -/
theorem lexMove_of_spelling {t : TokenType × Bytes} {w rest : Bytes}
    {T : List (TokenType × Bytes)} (s : LexState) (hspell : Spelling t w)
    (hlongest : LongestMatch Spelling w rest) (hrest : Lexes rest T) :
    ∃ s', LexMove s (w ++ rest) s' ∧ s'.rest = rest ∧
      s'.tokens.map Token.spelled = s.tokens.map Token.spelled ++ [t] := by
  rw [longestMatch_iff] at hlongest
  cases hspell with
  | @word word type hword htype =>
      have hkey := (wordType_iff hword.nulFree).mp htype
      cases hword with
      | @mk ch body hstart hbody =>
          refine ⟨_, .word hstart hbody ?_, rfl, by simp [Token.spelled, hkey]⟩
          intro b hb
          obtain ⟨rest', hsplit⟩ := exists_cons_of_mem_head? hb
          by_contra hbyte
          have hlonger : IsWord (ch :: (body ++ [b])) := by
            refine .mk hstart ?_
            rw [List.forall_mem_append, List.forall_mem_singleton]
            exact ⟨hbody, by simpa using hbyte⟩
          exact hlongest _ [b] rest' (by simp) hsplit
            (.word hlonger (keywordType_wordType hlonger.nulFree))
  | @number digits hne hdigits =>
      obtain ⟨ch, body, rfl⟩ := List.exists_cons_of_ne_nil hne
      refine ⟨_, .number (.inl (hdigits ch List.mem_cons_self))
        (fun b hb => hdigits b (List.mem_cons_of_mem _ hb)) ?_, rfl,
        by simp [Token.spelled]⟩
      intro b hb
      obtain ⟨rest', hsplit⟩ := exists_cons_of_mem_head? hb
      by_contra hdigit
      refine hlongest (.number, ch :: body ++ [b]) [b] rest' (by simp) hsplit
        (.number (by simp) ?_)
      rw [List.forall_mem_append, List.forall_mem_singleton]
      exact ⟨hdigits, by simpa using hdigit⟩
  | @negative digits hne hdigits =>
      refine ⟨_, .number (.inr ⟨rfl, hne⟩) hdigits ?_, rfl, by simp [Token.spelled]⟩
      intro b hb
      obtain ⟨rest', hsplit⟩ := exists_cons_of_mem_head? hb
      by_contra hdigit
      refine hlongest (.number, minus :: (digits ++ [b])) [b] rest' (by simp) hsplit
        (.negative (by simp) ?_)
      rw [List.forall_mem_append, List.forall_mem_singleton]
      exact ⟨hdigits, by simpa using hdigit⟩
  | string content =>
      have hboundary : rest.head? ≠ some quote := by
        intro hhead
        obtain ⟨rest', hsplit⟩ := exists_cons_of_mem_head? hhead
        obtain ⟨content', rest'', hrest'⟩ := hrest.quote_cases hsplit
        -- two adjacent literals are one longer literal
        refine hlongest (.string, content ++ quote :: content')
          (quote :: doubleQuotes content' ++ [quote]) rest'' (by simp)
          (by simp [hsplit, hrest']) ?_
        have hspell := Spelling.string (content ++ quote :: content')
        rw [doubleQuotes_append, doubleQuotes_quote] at hspell
        simpa using hspell
      have hmove : LexMove s (quote :: doubleQuotes content ++ quote :: rest)
          { s with
            rest
            column := s.column + (doubleQuotes content).length + 1
            tokens := s.tokens ++ [⟨.string, content, s.line, s.column⟩] } :=
        .string hboundary
      exact ⟨_, by simpa using hmove, rfl, by simp [Token.spelled]⟩
  | @simple ch type hsimple =>
      exact ⟨_, .simple rest (simpleTokenType_eq_some_iff.mpr hsimple), rfl,
        by simp [Token.spelled]⟩

/-- Every derivation is a run of the loop to the end of the source. -/
theorem Lexes.tokenizeLoop {input : Bytes} {T : List (TokenType × Bytes)}
    (h : Lexes input T) :
    ∀ s : LexState, s.rest = input →
      ∃ t, MiniSql.tokenizeLoop s = .ok t ∧
        t.tokens.map Token.spelled = s.tokens.map Token.spelled ++ T := by
  induction h with
  | done =>
      intro s hs
      exact ⟨s, tokenizeLoop_nil hs, by simp⟩
  | @space ch rest T hspace _ ih =>
      intro s hs
      by_cases hch : ch = newline
      · subst hch
        have hmove := LexMove.newline (s := s) rest
        rw [tokenizeLoop_of_lexMove (by simp [hs]) (hs ▸ hmove)]
        exact ih _ rfl
      · have hmove := LexMove.blank (s := s) rest hspace hch
        rw [tokenizeLoop_of_lexMove (by simp [hs]) (hs ▸ hmove)]
        exact ih _ rfl
  | lineComment hbody hend _ ih =>
      intro s hs
      have hmove := LexMove.lineComment (s := s) hbody hend
      rw [tokenizeLoop_of_lexMove (by simp [hs]) (hs ▸ hmove)]
      exact ih _ rfl
  | @blockComment body rest T hbody _ ih =>
      intro s hs
      have hmove := LexMove.blockComment (s := s) rest hbody
      rw [tokenizeLoop_of_lexMove (by simp [hs]) (hs ▸ hmove)]
      exact ih _ rfl
  | @token w rest t T hspell hlongest hrest ih =>
      intro s hs
      obtain ⟨s', hmove, hs', htokens⟩ := lexMove_of_spelling s hspell hlongest hrest
      have hne : s.rest ≠ [] := by
        rw [hs]
        simp [hspell.ne_nil]
      rw [tokenizeLoop_of_lexMove hne (hs ▸ hmove)]
      obtain ⟨final, hfinal, htokens'⟩ := ih s' hs'
      exact ⟨final, hfinal, by rw [htokens', htokens, List.append_assoc]; rfl⟩

/-- The spelled tokens of a source, when it has any. -/
def spelledTokens (source : Bytes) : Option (List (TokenType × Bytes)) :=
  (tokenizeSql source).toOption.map (·.map Token.spelled)

/-- `tokenize_sql` answers `T` followed by the end token exactly on the sources
the grammar gives the tokens `T`. -/
theorem spelledTokens_eq_some_iff {source : Bytes} {T : List (TokenType × Bytes)} :
    spelledTokens source = some (T ++ [(.end_, [])]) ↔ Lexes source T := by
  unfold spelledTokens tokenizeSql
  constructor
  · intro h
    cases hloop : MiniSql.tokenizeLoop (.start source) with
    | error e => simp [hloop, Except.toOption] at h
    | ok t =>
        obtain ⟨U, htokens, hlexes⟩ := tokenizeLoop_lexes hloop
        simp only [hloop, Except.toOption, Option.map_some, List.map_append, List.map_cons,
          List.map_nil, Option.some.injEq] at h
        have hU : t.tokens.map Token.spelled = T := (List.append_inj' h rfl).1
        rw [htokens, LexState.start, List.map_nil, List.nil_append] at hU
        rw [← hU]
        exact hlexes
  · intro h
    obtain ⟨t, hloop, htokens⟩ := h.tokenizeLoop (.start source) rfl
    simp only [hloop, Except.toOption, Option.map_some, List.map_append, htokens]
    simp [LexState.start, Token.spelled]

/-! ## What the grammar gives the parser -/

/-- A token list `tokenize_sql` answers is a derivation followed by the only end
token. -/
theorem tokenizeSql_eq_ok {source : Bytes} {tokens : List Token}
    (h : tokenizeSql source = .ok tokens) :
    ∃ body endToken, tokens = body ++ [endToken] ∧ endToken.spelled = (.end_, []) ∧
      Lexes source (body.map Token.spelled) := by
  unfold tokenizeSql at h
  cases hloop : MiniSql.tokenizeLoop (.start source) with
  | error e => simp [hloop] at h
  | ok t =>
      obtain ⟨U, htokens, hlexes⟩ := tokenizeLoop_lexes hloop
      have hU : t.tokens.map Token.spelled = U := by simpa [LexState.start] using htokens
      refine ⟨t.tokens, ⟨.end_, [], t.line, t.column⟩, ?_, rfl, ?_⟩
      · rw [hloop] at h
        exact (Except.ok.inj h).symm
      · rw [hU]
        exact hlexes

/-- A token's type is its spelling's. -/
theorem Spelling.type_ne_end {t : TokenType × Bytes} {w : Bytes} (h : Spelling t w) :
    t.1 ≠ .end_ := by
  cases h with
  | word hword htype =>
      rcases htype with ⟨r, hr, -⟩ | ⟨htype, -⟩
      · have hall : ∀ e ∈ reservedWords, e.1 ≠ .end_ := by decide
        exact hall (_, r) hr
      · simp [htype]
  | number => simp
  | negative => simp
  | string => simp
  | simple hsimple =>
      have hall : ∀ e ∈ simpleTokens, e.1 ≠ .end_ := by decide
      exact hall _ hsimple

/-- An identifier's lexeme is a word. -/
theorem Spelling.isWord {t : TokenType × Bytes} {w : Bytes} (h : Spelling t w)
    (htype : t.1 = .identifier) : IsWord t.2 := by
  cases h with
  | word hword => exact hword
  | number => simp at htype
  | negative => simp at htype
  | string => simp at htype
  | simple hsimple =>
      have hall : ∀ e ∈ simpleTokens, e.1 ≠ .identifier := by decide
      exact absurd htype (hall _ hsimple)

theorem mem_doubleQuotes {b : Byte} {content : Bytes} (h : b ∈ content) :
    b ∈ doubleQuotes content := by
  unfold doubleQuotes
  rw [List.mem_flatMap]
  refine ⟨b, h, ?_⟩
  split
  · rename_i hb
    simp [hb]
  · simp

/-- A lexeme has no byte its spelling lacks. -/
theorem Spelling.lexeme_subset {t : TokenType × Bytes} {w : Bytes} (h : Spelling t w) :
    ∀ b ∈ t.2, b ∈ w := by
  intro b hb
  cases h with
  | word => exact hb
  | number => exact hb
  | negative => exact hb
  | string content => simp [mem_doubleQuotes hb]
  | simple => exact hb

/-- Every token of a derivation is spelled in the source. -/
theorem Lexes.mem_spelling {source : Bytes} {T : List (TokenType × Bytes)}
    (h : Lexes source T) {t : TokenType × Bytes} (ht : t ∈ T) :
    ∃ w, Spelling t w ∧ ∀ b ∈ w, b ∈ source := by
  induction h with
  | done => simp at ht
  | space _ _ ih =>
      obtain ⟨w, hspell, hsub⟩ := ih ht
      exact ⟨w, hspell, fun b hb => List.mem_cons_of_mem _ (hsub b hb)⟩
  | lineComment _ _ _ ih =>
      obtain ⟨w, hspell, hsub⟩ := ih ht
      exact ⟨w, hspell, fun b hb => List.mem_append_right _ (hsub b hb)⟩
  | blockComment _ _ ih =>
      obtain ⟨w, hspell, hsub⟩ := ih ht
      exact ⟨w, hspell, fun b hb => by simp [hsub b hb]⟩
  | token hspell _ _ ih =>
      rcases List.mem_cons.mp ht with ht | ht
      · subst ht
        exact ⟨_, hspell, fun b hb => List.mem_append_left _ hb⟩
      · obtain ⟨w, hspell', hsub⟩ := ih ht
        exact ⟨w, hspell', fun b hb => List.mem_append_right _ (hsub b hb)⟩

/-! ## Comments and literals -/

/-- The grammar gives a source its tokens at most once. -/
theorem Lexes.unique {source : Bytes} {T T' : List (TokenType × Bytes)}
    (h : Lexes source T) (h' : Lexes source T') : T = T' := by
  have heq := (spelledTokens_eq_some_iff.mpr h).symm.trans (spelledTokens_eq_some_iff.mpr h')
  exact List.append_cancel_right (Option.some.inj heq)

/-- A move that adds no token leaves the tokens of the source as they are. -/
theorem lexes_iff_of_lexMove {s s' : LexState} (hne : s.rest ≠ [])
    (h : LexMove s s.rest s') (htokens : s'.tokens = s.tokens)
    (T : List (TokenType × Bytes)) : Lexes s.rest T ↔ Lexes s'.rest T := by
  constructor
  · intro hlexes
    obtain ⟨t, hloop, ht⟩ := hlexes.tokenizeLoop s rfl
    rw [tokenizeLoop_of_lexMove hne h] at hloop
    obtain ⟨T', ht', hlexes'⟩ := tokenizeLoop_lexes hloop
    rw [ht, htokens] at ht'
    rw [List.append_cancel_left ht']
    exact hlexes'
  · intro hlexes
    obtain ⟨U, hU, hlexes'⟩ := h.lexes hlexes
    rw [htokens] at hU
    have hnil : U = [] := by simpa using hU
    simpa [hnil] using hlexes'

/-- Sources with the same derivations have the same tokens. -/
theorem spelledTokens_congr {source source' : Bytes}
    (h : ∀ T, Lexes source T ↔ Lexes source' T) :
    spelledTokens source = spelledTokens source' := by
  have hform : ∀ src tokens, spelledTokens src = some tokens →
      ∃ T, tokens = T ++ [(.end_, [])] := by
    intro src tokens hsrc
    obtain ⟨raw, hraw, rfl⟩ := Option.map_eq_some_iff.mp hsrc
    cases htok : tokenizeSql src with
    | error e => simp [htok, Except.toOption] at hraw
    | ok ts =>
        obtain ⟨body, endToken, hts, hend, _⟩ := tokenizeSql_eq_ok htok
        obtain rfl : ts = raw := by simpa [htok, Except.toOption] using hraw
        exact ⟨body.map Token.spelled, by simp [hts, hend]⟩
  refine Option.ext fun tokens => ?_
  constructor
  · intro hsrc
    obtain ⟨T, rfl⟩ := hform _ _ hsrc
    exact spelledTokens_eq_some_iff.mpr ((h T).mp (spelledTokens_eq_some_iff.mp hsrc))
  · intro hsrc
    obtain ⟨T, rfl⟩ := hform _ _ hsrc
    exact spelledTokens_eq_some_iff.mpr ((h T).mpr (spelledTokens_eq_some_iff.mp hsrc))

theorem spelledTokens_lineComment {body : Bytes} (rest : Bytes) (hbody : newline ∉ body) :
    spelledTokens (minus :: minus :: body ++ newline :: rest) =
      spelledTokens (newline :: rest) := by
  apply spelledTokens_congr
  intro T
  have hend : newline :: rest = [] ∨ (newline :: rest).head? = some newline := .inr rfl
  have hmove := LexMove.lineComment
    (s := .start (minus :: minus :: body ++ newline :: rest)) hbody hend
  exact lexes_iff_of_lexMove (by simp [LexState.start]) hmove rfl T

theorem spelledTokens_newline (rest : Bytes) :
    spelledTokens (newline :: rest) = spelledTokens rest := by
  apply spelledTokens_congr
  intro T
  have hmove := LexMove.newline (s := .start (newline :: rest)) rest
  exact lexes_iff_of_lexMove (by simp [LexState.start]) hmove rfl T

theorem spelledTokens_blockComment {body : Bytes} (rest : Bytes) (hbody : ClosesFirst body) :
    spelledTokens (slash :: star :: body ++ star :: slash :: rest) = spelledTokens rest := by
  apply spelledTokens_congr
  intro T
  have hmove := LexMove.blockComment
    (s := .start (slash :: star :: body ++ star :: slash :: rest)) rest hbody
  exact lexes_iff_of_lexMove (by simp [LexState.start]) hmove rfl T

theorem spelledTokens_string (v : Bytes) :
    spelledTokens (quote :: doubleQuotes v ++ [quote]) =
      some [(.string, v), (.end_, [])] := by
  have hlexes : Lexes (quote :: doubleQuotes v ++ [quote] ++ []) [(.string, v)] :=
    .token (.string v) (longestMatch_string (by simp)) .done
  rw [List.append_nil] at hlexes
  exact spelledTokens_eq_some_iff.mpr hlexes

/-- `tokenize_sql` accepts exactly the lexical grammar and loses no byte; a
literal stands for its content whatever bytes that has, and a comment stands
for nothing whatever bytes it has. -/
theorem tokenizeSql_lexical_grammar :
    (∀ (source : Bytes) (T : List (TokenType × Bytes)),
      spelledTokens source = some (T ++ [(.end_, [])]) ↔ Lexes source T) ∧
    (∀ v : Bytes, spelledTokens (quote :: doubleQuotes v ++ [quote]) =
      some [(.string, v), (.end_, [])]) ∧
    (∀ body rest : Bytes, newline ∉ body →
      spelledTokens (minus :: minus :: body ++ newline :: rest) = spelledTokens rest) ∧
    (∀ body rest : Bytes, ClosesFirst body →
      spelledTokens (slash :: star :: body ++ star :: slash :: rest) =
        spelledTokens rest) := by
  refine ⟨fun source T => spelledTokens_eq_some_iff, spelledTokens_string, ?_, ?_⟩
  · intro body rest hbody
    rw [spelledTokens_lineComment rest hbody, spelledTokens_newline]
  · intro body rest hbody
    exact spelledTokens_blockComment rest hbody

/-- A quote in a line comment and one in a block comment open no literal. -/
theorem tokenizeSql_lexical_grammar_comment :
    spelledTokens (minus :: minus :: [quote] ++ newline :: [semicolon]) =
        some [(.semicolon, [semicolon]), (.end_, [])] ∧
      spelledTokens (slash :: star :: [quote] ++ star :: slash :: [semicolon]) =
        some [(.semicolon, [semicolon]), (.end_, [])] := by
  obtain ⟨-, -, hline, hblock⟩ := tokenizeSql_lexical_grammar
  have hclose : ClosesFirst [quote] :=
    (closesFirst_cons_iff quote []).mpr ⟨by decide, closesFirst_nil⟩
  have hlexes : Lexes ([semicolon] ++ []) [(.semicolon, [semicolon])] :=
    .token (.simple (by decide))
      (longestMatch_simple [] (show simpleTokenType semicolon = some .semicolon by decide))
      .done
  have hsource := spelledTokens_eq_some_iff.mpr hlexes
  constructor
  · rw [hline [quote] [semicolon] (by decide)]
    exact hsource
  · rw [hblock [quote] [semicolon] hclose]
    exact hsource

end MiniSql
