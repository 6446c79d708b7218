import MiniSql.Parser.Carry

set_option autoImplicit false

/-!
# Sources one after the other

A newline behind an accepted source ends whatever the tokenizer may be reading
there, and a statement cannot go on with the first word of the next.  So a source
goes on behind another as it would stand alone (`parseSqlScript_append`).
-/

namespace MiniSql

open Foundation

/-! ## The tokenizer -/

section Tokenizer

variable {s t : LexState}

/-- A state with more source behind what it still has to read. -/
def LexState.extend (s : LexState) (more : Bytes) : LexState :=
  { s with rest := s.rest ++ more }

/-- A class that newlines are not in ends where it ended before. -/
theorem head?_append_newline {p : Byte → Bool} (hp : p newline = false) {rest : Bytes}
    (hrest : ∀ b ∈ rest.head?, p b = false) (more : Bytes) :
    ∀ b ∈ (rest ++ newline :: more).head?, p b = false := by
  cases rest with
  | nil => simpa using hp
  | cons c rest => simpa using hrest

/-- A move of the loop is the same move with a newline and anything behind the
source. -/
theorem lexMove_extend {input : Bytes} (h : LexMove s input t) (more : Bytes) :
    LexMove (s.extend (newline :: more)) (input ++ newline :: more)
      (t.extend (newline :: more)) := by
  cases h with
  | newline rest => exact .newline (rest ++ newline :: more)
  | blank rest hspace hch => exact .blank (rest ++ newline :: more) hspace hch
  | @lineComment body rest hbody hrest =>
      have hend : rest ++ newline :: more = [] ∨
          (rest ++ newline :: more).head? = some newline := by
        rcases hrest with rfl | hrest
        · exact .inr rfl
        · exact .inr (by simp [hrest])
      have hmove := LexMove.lineComment (s := s.extend (newline :: more)) hbody hend
      simpa [LexState.extend] using hmove
  | @blockComment body rest hbody =>
      have hmove := LexMove.blockComment (s := s.extend (newline :: more))
        (rest ++ newline :: more) hbody
      simpa [LexState.extend] using hmove
  | @word ch body rest hstart hbody hrest =>
      have hmove := LexMove.word (s := s.extend (newline :: more)) hstart hbody
        (head?_append_newline (by decide) hrest more)
      simpa [LexState.extend] using hmove
  | @number ch body rest hstart hbody hrest =>
      have hmove := LexMove.number (s := s.extend (newline :: more)) hstart hbody
        (head?_append_newline (by decide) hrest more)
      simpa [LexState.extend] using hmove
  | @string content rest hrest =>
      have hnotQuote : (rest ++ newline :: more).head? ≠ some quote := by
        cases rest with
        | nil => simp [newline, quote]
        | cons c rest => simpa using hrest
      have hmove : LexMove (s.extend (newline :: more))
          (quote :: doubleQuotes content ++ quote :: (rest ++ newline :: more)) _ :=
        .string hnotQuote
      simpa [LexState.extend] using hmove
  | simple rest htype => exact .simple (rest ++ newline :: more) htype

/-- The loop reads an accepted source as if nothing stood behind it. -/
theorem tokenizeLoop_extend (h : tokenizeLoop s = .ok t) (more : Bytes) :
    tokenizeLoop (s.extend (newline :: more)) = tokenizeLoop (t.extend (newline :: more)) := by
  refine tokenizeLoop_induction (motive := fun s t =>
    tokenizeLoop (s.extend (newline :: more)) = tokenizeLoop (t.extend (newline :: more)))
    ?_ ?_ h
  · intro s _
    rfl
  · intro s s' t _ hmove _ ih
    have hne : (s.extend (newline :: more)).rest ≠ [] := by simp [LexState.extend]
    rw [tokenizeLoop_of_lexMove hne (lexMove_extend hmove more), ih]

theorem tokenizeLoop_rest (h : tokenizeLoop s = .ok t) : t.rest = [] :=
  tokenizeLoop_induction (motive := fun _ t => t.rest = []) (fun _ hrest => hrest)
    (fun _ _ _ _ _ _ ih => ih) h

end Tokenizer

/-- The tokens of two sources with a newline between them. -/
theorem Lexes.append {source source' : Bytes} {T T' : List (TokenType × Bytes)}
    (h : Lexes source T) (h' : Lexes source' T') :
    Lexes (source ++ newline :: source') (T ++ T') := by
  obtain ⟨t, hloop, htokens⟩ := h.tokenizeLoop (.start source) rfl
  have hline : Lexes (newline :: source') T' := .space (by decide) h'
  have hrest : (t.extend (newline :: source')).rest = newline :: source' := by
    rw [LexState.extend, tokenizeLoop_rest hloop, List.nil_append]
  obtain ⟨final, hfinal, htokens'⟩ := hline.tokenizeLoop _ hrest
  rw [← tokenizeLoop_extend hloop] at hfinal
  obtain ⟨U, hU, hlexes⟩ := tokenizeLoop_lexes hfinal
  have hall : final.tokens.map Token.spelled = T ++ T' := by
    rw [htokens', LexState.extend, htokens]
    rfl
  have hUall : U = T ++ T' := by
    rw [← hall, hU]
    rfl
  rw [← hUall]
  exact hlexes

/-! ## The parser -/

/-- Scripts one behind the other are one script. -/
theorem Script.append {body body' : List Token} {pieces pieces' : List (List Token × Statement)}
    (h : Script body pieces) (h' : Script body' pieces') :
    Script (body ++ body') (pieces ++ pieces') := by
  induction h with
  | nil => exact h'
  | semicolon hsemi _ ih => exact .semicolon hsemi ih
  | stmt hstmt _ ih =>
      rw [List.append_assoc]
      exact .stmt hstmt ih
  | stmtSemicolon hstmt hsemi _ ih =>
      rw [List.append_assoc, List.cons_append]
      exact .stmtSemicolon hstmt hsemi ih

/-- Tokens with the same spelling agree, from every region on. -/
theorem agree_of_spelled {body body' : List Token} (r : Region)
    (h : body.map Token.spelled = body'.map Token.spelled) :
    Agree Region.next (LexemeAgree (· = ·)) r body body' := by
  induction body generalizing body' r with
  | nil =>
      obtain rfl : body' = [] := by simpa using h.symm
      exact .nil
  | cons t body ih =>
      cases body' with
      | nil => simp at h
      | cons t' body' =>
          obtain ⟨htoken, hrest⟩ := List.cons.inj h
          obtain ⟨htype, hlexeme⟩ := Prod.mk.inj htoken
          refine .cons ⟨htype.symm, ?_⟩ (ih _ hrest)
          simpa using hlexeme

/-- The statements of a script depend on the spelling of its tokens only. -/
theorem Script.of_spelled {body body' : List Token} {pieces : List (List Token × Statement)}
    (h : Script body pieces) (hspelled : body.map Token.spelled = body'.map Token.spelled) :
    ∃ pieces', Script body' pieces' ∧ pieces'.map Prod.snd = pieces.map Prod.snd := by
  obtain ⟨pieces', hscript, hagree⟩ := h.carried (agree_of_spelled .other hspelled)
  refine ⟨pieces', hscript, ?_⟩
  have heq : List.Forall₂ (· = ·) (pieces.map Prod.snd) (pieces'.map Prod.snd) :=
    hagree.imp fun _ _ hstatement => hstatement.eq
  rw [List.forall₂_eq_eq_eq] at heq
  exact heq.symm

/-- A source with these tokens, which make up a script, is accepted. -/
theorem parseSqlScript_of_lexes {source : Bytes} {body : List Token}
    {pieces : List (List Token × Statement)}
    (hlexes : Lexes source (body.map Token.spelled)) (hscript : Script body pieces) :
    (parseSqlScript source).result = .ok () ∧
      (parseSqlScript source).script = pieces.map Prod.snd := by
  have hspelled := spelledTokens_eq_some_iff.mpr hlexes
  cases htokens : tokenizeSql source with
  | error e => simp [spelledTokens, htokens, Except.toOption] at hspelled
  | ok tokens =>
      obtain ⟨body', endToken, rfl, hend, hlexes'⟩ := tokenizeSql_eq_ok htokens
      obtain ⟨pieces', hscript', hsame⟩ := hscript.of_spelled (hlexes.unique hlexes')
      have hparse : parseTokens (body' ++ [endToken]) = ⟨.ok (), pieces'.map Prod.snd⟩ :=
        parseScriptLoop_complete (congrArg Prod.fst hend) hscript' []
      unfold parseSqlScript
      simp only [htokens, hparse]
      exact ⟨trivial, hsame⟩

/-- Two accepted sources with a newline between them are accepted, and hold the
statements of the one and then those of the other. -/
theorem parseSqlScript_append {source source' : Bytes}
    (h : (parseSqlScript source).result = .ok ())
    (h' : (parseSqlScript source').result = .ok ()) :
    (parseSqlScript (source ++ newline :: source')).result = .ok () ∧
      (parseSqlScript (source ++ newline :: source')).script =
        (parseSqlScript source).script ++ (parseSqlScript source').script := by
  obtain ⟨body, pieces, hlexes, hscript, hstatements⟩ := parseSqlScript_eq_ok h
  obtain ⟨body', pieces', hlexes', hscript', hstatements'⟩ := parseSqlScript_eq_ok h'
  have hboth := hlexes.append hlexes'
  rw [← List.map_append] at hboth
  rw [hstatements, hstatements', ← List.map_append]
  exact parseSqlScript_of_lexes hboth (hscript.append hscript')

end MiniSql
