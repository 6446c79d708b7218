import MiniSql.Parser.Parse

set_option autoImplicit false

/-!
# Scripts (`parse_sql_script`)

The statements that were already appended travel with the loop; every exit but
the last resets them.
-/

namespace MiniSql

open Foundation

/-- What `parse_sql_script` answers and what it leaves in `*script`. -/
structure ParseOutcome where
  result : Except SqlError Unit
  script : List Statement

/-- An answer of false, after `free_script`. -/
def ParseOutcome.failed (e : SqlError) : ParseOutcome := ⟨.error e, []⟩

/-- `match` with its answer ignored. -/
def skipToken (type : TokenType) (tokens : List Token) : List Token :=
  if (peek tokens).type = type then tokens.tail else tokens

theorem skipToken_length_le (type : TokenType) (tokens : List Token) :
    (skipToken type tokens).length ≤ tokens.length := by
  unfold skipToken
  split
  · simp
  · exact Nat.le_refl _

theorem parseStatement_length_lt {tokens rest : List Token} {statement : Statement}
    (h : parseStatement tokens = .ok (statement, rest)) : rest.length < tokens.length := by
  obtain ⟨b, rfl, hstmt⟩ := parseStatement_sound _ _ _ h
  obtain ⟨t, b', rfl, _⟩ := hstmt.exists_cons
  simp only [List.cons_append, List.length_cons, List.length_append]
  omega

theorem tail_length_lt_of_peek {tokens : List Token} (h : (peek tokens).type ≠ .end_) :
    tokens.tail.length < tokens.length := by
  obtain ⟨ts, hts⟩ := peek_eq_cons h
  rw [hts]
  simp

/-- The loop of `parse_sql_script`. -/
def parseScriptLoop (tokens : List Token) (script : List Statement) : ParseOutcome :=
  if _hend : (peek tokens).type = .end_ then ⟨.ok (), script⟩
  else if (peek tokens).type = .semicolon then parseScriptLoop tokens.tail script
  else
    match _hstmt : parseStatement tokens with
    | .error e => .failed e
    | .ok (statement, rest) =>
        parseScriptLoop (skipToken .semicolon rest) (script ++ [statement])
  termination_by tokens.length
  decreasing_by
    · exact tail_length_lt_of_peek _hend
    · exact Nat.lt_of_le_of_lt (skipToken_length_le .semicolon rest)
        (parseStatement_length_lt _hstmt)

/-- The parsing stage of `parse_sql_script`. -/
def parseTokens (tokens : List Token) : ParseOutcome := parseScriptLoop tokens []

/-- `parse_sql_script`. -/
def parseSqlScript (source : Bytes) : ParseOutcome :=
  match tokenizeSql source with
  | .error e => .failed e
  | .ok tokens => parseTokens tokens

/-! ## One round of the loop -/

section Rounds

variable {tokens rest : List Token} {script : List Statement} {statement : Statement}
  {e : SqlError}

theorem parseScriptLoop_of_end (h : (peek tokens).type = .end_) :
    parseScriptLoop tokens script = ⟨.ok (), script⟩ := by
  rw [parseScriptLoop, dif_pos h]

theorem parseScriptLoop_of_semicolon (h : (peek tokens).type = .semicolon) :
    parseScriptLoop tokens script = parseScriptLoop tokens.tail script := by
  rw [parseScriptLoop, dif_neg (by simp [h]), if_pos h]

theorem parseScriptLoop_of_error (hend : (peek tokens).type ≠ .end_)
    (hsemi : (peek tokens).type ≠ .semicolon) (h : parseStatement tokens = .error e) :
    parseScriptLoop tokens script = .failed e := by
  rw [parseScriptLoop, dif_neg hend, if_neg hsemi]
  split
  · rename_i e' he'
    rw [h] at he'
    rw [Except.error.inj he']
  · rename_i heq
    simp [h] at heq

theorem parseScriptLoop_of_ok (hend : (peek tokens).type ≠ .end_)
    (hsemi : (peek tokens).type ≠ .semicolon)
    (h : parseStatement tokens = .ok (statement, rest)) :
    parseScriptLoop tokens script =
      parseScriptLoop (skipToken .semicolon rest) (script ++ [statement]) := by
  rw [parseScriptLoop, dif_neg hend, if_neg hsemi]
  split
  · rename_i he
    simp [h] at he
  · rename_i heq
    rw [h] at heq
    obtain ⟨hs, hr⟩ := Prod.mk.inj (Except.ok.inj heq)
    rw [hs, hr]

end Rounds

/-! ## The loop against the grammar -/

/-- Without its end token a list of tokens ends where the end token stood. -/
theorem append_end_split {body b rest : List Token} {endToken : Token}
    (hend : endToken.type = .end_) (hb : ∀ t ∈ b, t.type ≠ .end_)
    (h : body ++ [endToken] = b ++ rest) :
    ∃ body', rest = body' ++ [endToken] ∧ body = b ++ body' := by
  rcases List.append_eq_append_iff.mp h with ⟨c, rfl, hc⟩ | ⟨c, rfl, rfl⟩
  · cases c with
    | nil => exact ⟨[], by simpa using hc.symm, by simp⟩
    | cons t c =>
        obtain ⟨rfl, -⟩ : endToken = t ∧ [] = c ++ rest := by simpa using hc
        exact absurd hend (hb _ (by simp))
  · exact ⟨c, rfl, rfl⟩

theorem peek_append_end {body : List Token} {endToken : Token}
    (hbody : ∀ t ∈ body, t.type ≠ .end_) (hend : endToken.type = .end_) :
    (peek (body ++ [endToken])).type = .end_ ↔ body = [] := by
  cases body with
  | nil => simp [peek, hend]
  | cons t ts => simpa [peek] using hbody t List.mem_cons_self

/-- The loop appends the statements of a derivation and nothing else. -/
theorem parseScriptLoop_sound {endToken : Token} (hend : endToken.type = .end_)
    (tokens : List Token) (script : List Statement) :
    ∀ body, tokens = body ++ [endToken] → (∀ t ∈ body, t.type ≠ .end_) →
      (parseScriptLoop tokens script).result = .ok () →
      ∃ pieces, Script body pieces ∧
        (parseScriptLoop tokens script).script = script ++ pieces.map Prod.snd := by
  induction tokens, script using parseScriptLoop.induct with
  | case1 tokens script hpeek =>
      intro body htokens hbody _
      subst htokens
      have hnil : body = [] := (peek_append_end hbody hend).mp hpeek
      subst hnil
      exact ⟨[], .nil, by rw [parseScriptLoop_of_end hpeek, List.map_nil, List.append_nil]⟩
  | case2 tokens script hpeek hsemi ih =>
      intro body htokens hbody hok
      rw [parseScriptLoop_of_semicolon hsemi] at hok ⊢
      cases body with
      | nil => exact absurd (by simpa [htokens, peek] using hend) hpeek
      | cons t ts =>
          subst htokens
          obtain ⟨pieces, hscript, happend⟩ :=
            ih ts rfl (fun u hu => hbody u (List.mem_cons_of_mem t hu)) hok
          exact ⟨pieces, .semicolon (by simpa using hsemi) hscript, happend⟩
  | case3 tokens script hpeek hsemi e he =>
      intro body htokens hbody hok
      rw [parseScriptLoop_of_error hpeek hsemi he] at hok
      simp [ParseOutcome.failed] at hok
  | case4 tokens script hpeek hsemi statement rest hstmt ih =>
      intro body htokens hbody hok
      rw [parseScriptLoop_of_ok hpeek hsemi hstmt] at hok ⊢
      obtain ⟨b, hb, hderive⟩ := parseStatement_sound _ _ _ hstmt
      obtain ⟨body', hrest, rfl⟩ :=
        append_end_split hend hderive.ne_end (htokens.symm.trans hb)
      have hbody' : ∀ t ∈ body', t.type ≠ .end_ :=
        fun t ht => hbody t (List.mem_append_right b ht)
      -- the optional semicolon behind the statement
      by_cases hopt : (peek rest).type = .semicolon
      · rw [skipToken, if_pos hopt] at ih hok ⊢
        cases body' with
        | nil => simp [hrest, peek, hend] at hopt
        | cons t ts =>
            obtain ⟨pieces, hscript, happend⟩ := ih ts (by rw [hrest]; rfl)
              (fun u hu => hbody' u (List.mem_cons_of_mem t hu)) hok
            refine ⟨(b, statement) :: pieces, .stmtSemicolon hderive ?_ hscript, ?_⟩
            · simpa [hrest] using hopt
            · rw [happend, List.append_assoc]
              rfl
      · rw [skipToken, if_neg hopt] at ih hok ⊢
        obtain ⟨pieces, hscript, happend⟩ := ih body' hrest hbody' hok
        refine ⟨(b, statement) :: pieces, .stmt hderive hscript, ?_⟩
        rw [happend, List.append_assoc]
        rfl

/-- What follows a statement in a script is neither a dot nor WHERE. -/
theorem Script.follow {body : List Token} {pieces : List (List Token × Statement)}
    (h : Script body pieces) {endToken : Token} (hend : endToken.type = .end_) :
    NotBefore .dot (body ++ [endToken]) ∧ NotBefore .where_ (body ++ [endToken]) := by
  have hstmt : ∀ {b ts : List Token} {statement : Statement}, Stmt b statement →
      NotBefore .dot (b ++ ts) ∧ NotBefore .where_ (b ++ ts) := by
    intro b ts statement hb
    obtain ⟨t, b', rfl, ht | ht⟩ := hb.exists_cons
    · simp [NotBefore, ht]
    · simp [NotBefore, ht]
  cases h with
  | nil => simp [NotBefore, peek, hend]
  | semicolon hsemi _ => simp [NotBefore, hsemi]
  | stmt hb _ =>
      rw [List.append_assoc]
      exact hstmt hb
  | stmtSemicolon hb _ _ =>
      rw [List.append_assoc]
      exact hstmt hb

/-- One round of the loop over a derived statement. -/
theorem parseScriptLoop_stmt {b rest : List Token} {statement : Statement}
    (h : Stmt b statement) (hdot : NotBefore .dot rest) (hwhere : NotBefore .where_ rest)
    (script : List Statement) :
    parseScriptLoop (b ++ rest) script =
      parseScriptLoop (skipToken .semicolon rest) (script ++ [statement]) := by
  have hparse := parseStatement_complete b statement rest h ⟨hdot, hwhere⟩
  obtain ⟨t, b', rfl, ht⟩ := h.exists_cons
  have hpeek : (peek (t :: b' ++ rest)).type ≠ .end_ := by
    rcases ht with ht | ht <;> simp [ht]
  have hsemi : (peek (t :: b' ++ rest)).type ≠ .semicolon := by
    rcases ht with ht | ht <;> simp [ht]
  exact parseScriptLoop_of_ok hpeek hsemi hparse

theorem parseScriptLoop_complete {endToken : Token} (hend : endToken.type = .end_)
    {body : List Token} {pieces : List (List Token × Statement)} (h : Script body pieces) :
    ∀ script, parseScriptLoop (body ++ [endToken]) script =
      ⟨.ok (), script ++ pieces.map Prod.snd⟩ := by
  induction h with
  | nil =>
      intro script
      rw [List.nil_append, parseScriptLoop_of_end (by simpa [peek] using hend), List.map_nil,
        List.append_nil]
  | @semicolon t ts pieces hsemi _ ih =>
      intro script
      rw [List.cons_append, parseScriptLoop_of_semicolon (by simpa using hsemi)]
      exact ih script
  | @stmt b ts statement pieces hstmt hrest ih =>
      intro script
      have hfollow := hrest.follow hend
      rw [List.append_assoc, parseScriptLoop_stmt hstmt hfollow.1 hfollow.2]
      by_cases hopt : (peek (ts ++ [endToken])).type = .semicolon
      · -- a script that goes on with a semicolon of its own: it goes with the statement
        cases ts with
        | nil => simp [peek, hend] at hopt
        | cons u us =>
            have hround := ih (script ++ [statement])
            have hu : u.type = .semicolon := by simpa using hopt
            rw [List.cons_append, parseScriptLoop_of_semicolon (by simpa using hu)] at hround
            rw [skipToken, if_pos hopt]
            simpa using hround
      · rw [skipToken, if_neg hopt, ih, List.append_assoc]
        rfl
  | @stmtSemicolon b ts t statement pieces hstmt hsemi _ ih =>
      intro script
      have hdot : NotBefore .dot (t :: (ts ++ [endToken])) := by simp [NotBefore, hsemi]
      have hwhere : NotBefore .where_ (t :: (ts ++ [endToken])) := by
        simp [NotBefore, hsemi]
      rw [List.append_assoc, List.cons_append, parseScriptLoop_stmt hstmt hdot hwhere,
        skipToken, if_pos (by simpa using hsemi), List.tail_cons, ih, List.append_assoc]
      rfl

/-! ## The derivation of a script is unique -/

/-- Two statements at the beginning of the same tokens, each with a rest that no
statement can go on with, are the same tokens. -/
theorem Stmt.unique {b b' rest rest' : List Token} {statement statement' : Statement}
    (h : Stmt b statement) (h' : Stmt b' statement') (heq : b ++ rest = b' ++ rest')
    (hrest : NotBefore .dot rest ∧ NotBefore .where_ rest)
    (hrest' : NotBefore .dot rest' ∧ NotBefore .where_ rest') :
    b = b' ∧ statement = statement' ∧ rest = rest' := by
  have hleft := parseStatement_complete b statement rest h hrest
  have hright := parseStatement_complete b' statement' rest' h' hrest'
  rw [heq, hright] at hleft
  obtain ⟨hs, hr⟩ := Prod.mk.inj (Except.ok.inj hleft)
  subst hr
  exact ⟨List.append_cancel_right heq, hs.symm, rfl⟩

/-- A first semicolon stands alone. -/
theorem Script.of_semicolon {t : Token} {ts : List Token}
    {pieces : List (List Token × Statement)} (h : Script (t :: ts) pieces)
    (ht : t.type = .semicolon) : Script ts pieces := by
  have hne : ∀ {b rest : List Token} {statement : Statement}, Stmt b statement →
      t :: ts ≠ b ++ rest := by
    intro b rest statement hb heq
    obtain ⟨u, b', rfl, hu⟩ := hb.exists_cons
    obtain ⟨rfl, -⟩ := List.cons.inj heq
    simp [ht] at hu
  generalize htokens : t :: ts = tokens at h
  cases h with
  | nil => simp at htokens
  | semicolon _ hrest =>
      obtain ⟨-, rfl⟩ := List.cons.inj htokens
      exact hrest
  | stmt hb _ => exact absurd htokens (hne hb)
  | stmtSemicolon hb _ _ => exact absurd htokens (hne hb)

/-- A script that begins with a statement: the statement and a script behind it. -/
theorem Script.of_stmt {b ts : List Token} {statement : Statement}
    {pieces : List (List Token × Statement)} (h : Script (b ++ ts) pieces)
    (hb : Stmt b statement) {tail : List (List Token × Statement)} (hts : Script ts tail) :
    ∃ pieces', pieces = (b, statement) :: pieces' ∧ Script ts pieces' := by
  have hend : pastEnd.type = .end_ := rfl
  have hfollow := hts.follow hend
  generalize htokens : b ++ ts = tokens at h
  cases h with
  | nil =>
      obtain ⟨t, b', rfl, _⟩ := hb.exists_cons
      simp at htokens
  | @semicolon t rest pieces hsemi hrest =>
      obtain ⟨u, b', rfl, hu⟩ := hb.exists_cons
      obtain ⟨rfl, -⟩ := List.cons.inj htokens
      simp [hsemi] at hu
  | @stmt b' rest statement' pieces hb' hrest =>
      have heq : b ++ (ts ++ [pastEnd]) = b' ++ (rest ++ [pastEnd]) := by
        rw [← List.append_assoc, htokens, List.append_assoc]
      obtain ⟨rfl, rfl, hts'⟩ := Stmt.unique hb hb' heq hfollow (hrest.follow hend)
      obtain rfl := List.append_cancel_right hts'
      exact ⟨pieces, rfl, hrest⟩
  | @stmtSemicolon b' rest t statement' pieces hb' hsemi hrest =>
      have heq : b ++ (ts ++ [pastEnd]) = b' ++ (t :: rest ++ [pastEnd]) := by
        rw [← List.append_assoc, htokens, List.append_assoc]
      obtain ⟨rfl, rfl, hts'⟩ := Stmt.unique hb hb' heq hfollow
        ((Script.semicolon hsemi hrest).follow hend)
      obtain rfl := List.append_cancel_right hts'
      exact ⟨pieces, rfl, .semicolon hsemi hrest⟩

theorem Script.unique {body : List Token} {pieces pieces' : List (List Token × Statement)}
    (h : Script body pieces) (h' : Script body pieces') : pieces = pieces' := by
  induction h generalizing pieces' with
  | nil =>
      generalize htokens : ([] : List Token) = tokens at h'
      cases h' with
      | nil => rfl
      | semicolon => simp at htokens
      | stmt hb _ =>
          obtain ⟨t, b', rfl, _⟩ := hb.exists_cons
          simp at htokens
      | stmtSemicolon hb _ _ => simp at htokens
  | semicolon hsemi _ ih => exact ih (h'.of_semicolon hsemi)
  | stmt hb hrest ih =>
      obtain ⟨tail, rfl, htail⟩ := h'.of_stmt hb hrest
      rw [ih htail]
  | stmtSemicolon hb hsemi hrest ih =>
      obtain ⟨tail, rfl, htail⟩ := h'.of_stmt hb (.semicolon hsemi hrest)
      rw [ih (htail.of_semicolon hsemi)]

/-- Every answer of false leaves the script empty. -/
theorem parseScriptLoop_failed (tokens : List Token) (script : List Statement) :
    (parseScriptLoop tokens script).result ≠ .ok () →
      (parseScriptLoop tokens script).script = [] := by
  induction tokens, script using parseScriptLoop.induct with
  | case1 tokens script hpeek =>
      intro h
      rw [parseScriptLoop_of_end hpeek] at h
      exact absurd rfl h
  | case2 tokens script hpeek hsemi ih =>
      rw [parseScriptLoop_of_semicolon hsemi]
      exact ih
  | case3 tokens script hpeek hsemi e he =>
      intro _
      rw [parseScriptLoop_of_error hpeek hsemi he]
      rfl
  | case4 tokens script hpeek hsemi statement rest hstmt ih =>
      rw [parseScriptLoop_of_ok hpeek hsemi hstmt]
      exact ih

/-- The parser accepts exactly the scripts of the grammar.  The script it answers
holds the statement of each piece of the one derivation, in order; a script it
rejects is left empty. -/
theorem parseTokens_grammar (body : List Token) (endToken : Token)
    (hbody : ∀ t ∈ body, t.type ≠ .end_) (hend : endToken.type = .end_) :
    ((parseTokens (body ++ [endToken])).result = .ok () ↔ ∃ pieces, Script body pieces) ∧
      ((parseTokens (body ++ [endToken])).result = .ok () →
        ∃ pieces, Script body pieces ∧ (∀ pieces', Script body pieces' → pieces' = pieces) ∧
          (parseTokens (body ++ [endToken])).script = pieces.map Prod.snd) ∧
      ((parseTokens (body ++ [endToken])).result ≠ .ok () →
        (parseTokens (body ++ [endToken])).script = []) := by
  have hsound := parseScriptLoop_sound hend (body ++ [endToken]) [] body rfl hbody
  refine ⟨⟨?_, ?_⟩, ?_, parseScriptLoop_failed (body ++ [endToken]) []⟩
  · intro hok
    obtain ⟨pieces, hpieces, _⟩ := hsound hok
    exact ⟨pieces, hpieces⟩
  · intro h
    obtain ⟨pieces, hpieces⟩ := h
    rw [parseTokens, parseScriptLoop_complete hend hpieces]
  · intro hok
    obtain ⟨pieces, hpieces, hscript⟩ := hsound hok
    refine ⟨pieces, hpieces, ?_, by simpa [parseTokens] using hscript⟩
    intro pieces' hpieces'
    exact hpieces'.unique hpieces

/-- Two statements with no semicolon between them are accepted as they derive. -/
theorem parseTokens_grammar_two :
    let word (type : TokenType) (text : String) : Token := ⟨type, ascii text, 1, 1⟩
    let select : List Token := [word .select "select", word .star "*", word .from_ "from",
      word .identifier "t"]
    (parseTokens (select ++ select ++ [word .end_ ""])).result = .ok () := by
  intro word select
  have hstmt : Stmt select (.select ⟨⟨none, some (ascii "t")⟩, true, [], none⟩) :=
    .select rfl (.mk (.all rfl) rfl (.table rfl) .absent)
  have hlast := Script.stmt hstmt .nil
  rw [List.append_nil] at hlast
  exact (parseTokens_grammar (select ++ select) (word .end_ "") (by decide) rfl).1.mpr
    ⟨_, .stmt hstmt hlast⟩

end MiniSql
