import MiniSql.Foundation.Lookahead
import MiniSql.Parser.Position
import MiniSql.Parser.Script

set_option autoImplicit false

/-!
# The first impossible token

The parser of statements looks one token ahead and gives up in front of the first
token that nothing can make part of a script.  A syntax error names that token.
-/

namespace MiniSql

open Foundation

/-- The token lists the parser is given: the end token is the last one, and the only
one of its type. -/
def EndsInEnd (tokens : List Token) : Prop :=
  ∃ body endToken, tokens = body ++ [endToken] ∧ (∀ t ∈ body, t.type ≠ .end_) ∧
    endToken.type = .end_

/-- The parsing stage accepts the list. -/
def Accepted (tokens : List Token) : Prop :=
  EndsInEnd tokens ∧ (parseTokens tokens).result = .ok ()

/-- The tokens before token `k` begin an accepted list, those up to it begin none. -/
def FirstImpossible (tokens : List Token) (k : Nat) : Prop :=
  (∃ accepted, Accepted accepted ∧ tokens.take k <+: accepted) ∧
    ∀ accepted, Accepted accepted → ¬ tokens.take (k + 1) <+: accepted

/-- The error is a message at this token, or at the end of the tokens. -/
def FaultAt (token : Option Token) (e : SqlError) : Prop :=
  ∃ message, e = (token.getD pastEnd).fault message

/-! ## The parts look one token ahead -/

section Parts

variable {type : TokenType} {message : String} {item : Token → Option Bytes} {α : Type}

theorem peek_eq_head? (tokens : List Token) : peek tokens = tokens.head?.getD pastEnd := by
  cases tokens <;> rfl

/-- Two lists with one first token look alike to `peek`. -/
theorem peek_congr {tokens tokens' : List Token} (h : tokens'.head? = tokens.head?) :
    peek tokens' = peek tokens := by
  rw [peek_eq_head?, peek_eq_head?, h]

theorem faultAt_peek (tokens : List Token) (message : String) :
    FaultAt tokens.head? ((peek tokens).fault message) :=
  ⟨message, by rw [peek_eq_head?]⟩

theorem consume_oneAhead (h : type ≠ .end_) :
    OneAhead FaultAt (Terminal type) (consume type message) where
  derives := ⟨[⟨type, [], 0, 0⟩], (), _, rfl, rfl⟩
  ok := by
    intro tokens x rest hok
    unfold consume at hok
    split at hok
    · rename_i htype
      obtain ⟨ts, hts⟩ : ∃ ts, tokens = peek tokens :: ts :=
        peek_eq_cons (by rw [htype]; exact h)
      have hrest : tokens.tail = rest := by simpa using hok
      refine ⟨[peek tokens], ?_, ?_⟩
      · rw [← hrest, hts]
        rfl
      · intro rest' _
        simp [consume, htype]
    · simp at hok
  error := by
    intro tokens e herr
    unfold consume at herr
    split at herr
    · simp at herr
    · rename_i htype
      obtain rfl := Except.error.inj herr
      refine ⟨[], tokens, rfl, faultAt_peek tokens message,
        ⟨[⟨type, [], 0, 0⟩], (), _, rfl, rfl⟩, ?_⟩
      intro tokens' hhead
      rw [List.nil_append, consume, peek_congr hhead, if_neg htype]

theorem takeToken_oneAhead (h : item pastEnd = none) (hitem : ∃ t x, item t = some x) :
    OneAhead FaultAt (Item item) (takeToken item message) := by
  obtain ⟨t₀, x₀, hitem₀⟩ := hitem
  have hderives : Item item [t₀] x₀ := ⟨t₀, rfl, hitem₀⟩
  refine ⟨⟨_, _, hderives⟩, ?_, ?_⟩
  · intro tokens x rest hok
    obtain ⟨b, rfl, hb⟩ := takeToken_sound h _ _ _ hok
    exact ⟨b, rfl, fun rest' _ => takeToken_complete b x rest' hb trivial⟩
  · intro tokens e herr
    unfold takeToken at herr
    split at herr
    · rename_i hnone
      obtain rfl := Except.error.inj herr
      refine ⟨[], tokens, rfl, faultAt_peek tokens message, ⟨_, _, hderives⟩, ?_⟩
      intro tokens' hhead
      rw [List.nil_append, takeToken, peek_congr hhead, hnone]
    · simp at herr

theorem fail_oneAhead {G : Grammar Token α} (hG : ∃ b x, G b x) (message : String) :
    OneAhead FaultAt G (fun tokens => .error ((peek tokens).fault message)) := by
  have hfail : OneAhead FaultAt G
      (fun tokens => .error ((tokens.head?.getD pastEnd).fault message)) :=
    .fail (fun t => (t.getD pastEnd).fault message) (fun t => ⟨message, rfl⟩) hG
  have hpeek : (fun tokens : List Token => Except.error (α := α × List Token)
      ((peek tokens).fault message)) =
      fun tokens => .error ((tokens.head?.getD pastEnd).fault message) :=
    funext fun tokens => by rw [peek_eq_head?]
  exact hpeek ▸ hfail

/-- A test of the token in front and the parser each way takes; either way leads into
the one grammar. -/
theorem matchToken_oneAhead {G K : Grammar Token α} {p q : Parse α} (htype : type ≠ .end_)
    (hp : OneAhead FaultAt G p) (hq : OneAhead FaultAt K q)
    (hG : ∀ t b x, t.type = type → G b x → K (t :: b) x) :
    OneAhead FaultAt K (do if ← matchToken type then p else q) where
  derives := hq.derives
  ok := by
    intro tokens x rest hok
    rw [matchToken_bind_eq] at hok
    split at hok
    · rename_i hpeek
      obtain ⟨ts, hts⟩ : ∃ ts, tokens = peek tokens :: ts :=
        peek_eq_cons (by rw [hpeek]; exact htype)
      obtain ⟨b, htail, hread⟩ := hp.ok _ x rest hok
      refine ⟨peek tokens :: b, ?_, ?_⟩
      · rw [List.cons_append, ← htail, hts]
        rfl
      · intro rest' hhead
        rw [matchToken_bind_eq, if_pos (by simpa using hpeek)]
        exact hread rest' hhead
    · rename_i hpeek
      obtain ⟨b, rfl, hread⟩ := hq.ok tokens x rest hok
      refine ⟨b, rfl, ?_⟩
      intro rest' hhead
      rw [matchToken_bind_eq, peek_congr (head?_append_congr b hhead), if_neg hpeek]
      exact hread rest' hhead
  error := by
    intro tokens e herr
    rw [matchToken_bind_eq] at herr
    split at herr
    · rename_i hpeek
      obtain ⟨ts, hts⟩ : ∃ ts, tokens = peek tokens :: ts :=
        peek_eq_cons (by rw [hpeek]; exact htype)
      obtain ⟨b, rest, htail, hfault, ⟨c, x, hGc⟩, hfails⟩ := hp.error _ e herr
      refine ⟨peek tokens :: b, rest, ?_, hfault, ⟨c, x, hG _ _ x hpeek hGc⟩, ?_⟩
      · rw [List.cons_append, ← htail, hts]
        rfl
      · intro rest' hhead
        rw [matchToken_bind_eq, if_pos (by simpa using hpeek)]
        exact hfails rest' hhead
    · rename_i hpeek
      obtain ⟨b, rest, rfl, hfault, hK, hfails⟩ := hq.error tokens e herr
      refine ⟨b, rest, rfl, hfault, hK, ?_⟩
      intro rest' hhead
      rw [matchToken_bind_eq, peek_congr (head?_append_congr b hhead), if_neg hpeek]
      exact hfails rest' hhead

theorem takeIdent_oneAhead : OneAhead FaultAt (Item identLexeme) (takeToken identLexeme message) :=
  takeToken_oneAhead identLexeme_pastEnd ⟨⟨.identifier, [], 0, 0⟩, [], rfl⟩

theorem takeValue_oneAhead : OneAhead FaultAt (Item valueLexeme) (takeToken valueLexeme message) :=
  takeToken_oneAhead valueLexeme_pastEnd ⟨⟨.string, [], 0, 0⟩, [], rfl⟩

end Parts

theorem parseIdentifierList_oneAhead : OneAhead FaultAt IdentList parseIdentifierList := by
  refine (sepBy1_oneAhead (fun t => ⟨"expected identifier", rfl⟩) ?_).mono ?_
  · exact ⟨⟨.identifier, [], 0, 0⟩, [], rfl⟩
  · intro b xs h
    simpa [IdentList] using h

theorem parseValueList_oneAhead : OneAhead FaultAt ValueList parseValueList := by
  refine (sepBy1_oneAhead (fun t => ⟨"expected literal value", rfl⟩) ?_).mono ?_
  · exact ⟨⟨.string, [], 0, 0⟩, [], rfl⟩
  · intro b xs h
    simpa [ValueList] using h

theorem parseQualifiedName_oneAhead : OneAhead FaultAt Name parseQualifiedName := by
  refine OneAhead.mono ?_ fun b name h => name_iff.mpr h
  refine takeIdent_oneAhead.bind (takeToken_sound identLexeme_pastEnd) fun first => ?_
  refine matchToken_oneAhead (by simp) ?_ ((OneAhead.pure _).mono fun _ _ => .inr)
    fun t b x ht h => .first ht h
  exact takeIdent_oneAhead.bind (takeToken_sound identLexeme_pastEnd) fun second => .pure _

theorem parseInsert_oneAhead : OneAhead FaultAt InsertTail parseInsert := by
  refine OneAhead.mono ?_ fun b statement h => insertTail_iff.mpr h
  refine (consume_oneAhead (by simp)).bind (consume_sound (by simp)) fun _ => ?_
  refine parseQualifiedName_oneAhead.bind parseQualifiedName_sound fun target => ?_
  refine (consume_oneAhead (by simp)).bind (consume_sound (by simp)) fun _ => ?_
  refine parseIdentifierList_oneAhead.bind parseIdentifierList_sound fun columns => ?_
  refine (consume_oneAhead (by simp)).bind (consume_sound (by simp)) fun _ => ?_
  refine (consume_oneAhead (by simp)).bind (consume_sound (by simp)) fun _ => ?_
  refine (consume_oneAhead (by simp)).bind (consume_sound (by simp)) fun _ => ?_
  refine parseValueList_oneAhead.bind parseValueList_sound fun values => ?_
  exact (consume_oneAhead (by simp)).bind (consume_sound (by simp)) fun _ => .pure _

theorem parseSelectList_oneAhead : OneAhead FaultAt SelectList parseSelectList := by
  refine OneAhead.mono ?_ fun b list h => selectList_iff.mpr h
  refine matchToken_oneAhead (by simp) (.pure (true, [])) (.mono ?_ fun _ _ => .inr)
    fun t b x ht h => .first ht h
  exact parseIdentifierList_oneAhead.bind parseIdentifierList_sound fun columns => .pure _

theorem parseWhere_oneAhead : OneAhead FaultAt Where parseWhere := by
  refine OneAhead.mono ?_ fun b where_ h => where_iff.mpr h
  refine matchToken_oneAhead (by simp) ?_ ((OneAhead.pure _).mono fun _ _ => .inr)
    fun t b x ht h => .first ht h
  refine takeIdent_oneAhead.bind (takeToken_sound identLexeme_pastEnd) fun column => ?_
  refine (consume_oneAhead (by simp)).bind (consume_sound (by simp)) fun _ => ?_
  exact takeValue_oneAhead.bind (takeToken_sound valueLexeme_pastEnd) fun value => .pure _

theorem parseSelect_oneAhead : OneAhead FaultAt SelectTail parseSelect := by
  refine OneAhead.mono ?_ fun b statement h => selectTail_iff.mpr h
  refine parseSelectList_oneAhead.bind parseSelectList_sound fun list => ?_
  refine (consume_oneAhead (by simp)).bind (consume_sound (by simp)) fun _ => ?_
  refine parseQualifiedName_oneAhead.bind parseQualifiedName_sound fun source => ?_
  exact parseWhere_oneAhead.bind parseWhere_sound fun where_ => .pure _

/-- Where neither word stands either would have done. -/
theorem parseStatement_oneAhead : OneAhead FaultAt Stmt parseStatement := by
  have hselect := parseSelect_oneAhead.bind parseSelect_sound fun s =>
    OneAhead.pure (Statement.select s)
  refine matchToken_oneAhead (by simp) (parseInsert_oneAhead.bind parseInsert_sound fun s =>
    .pure (Statement.insert s)) ?_ ?_
  · refine matchToken_oneAhead (by simp) hselect ?_ ?_
    · obtain ⟨b, s, h⟩ := hselect.derives
      obtain ⟨s, htail, rfl⟩ := seq_empty_iff.mp h
      have hword : (⟨.select, [], 0, 0⟩ : Token).type = .select := rfl
      exact fail_oneAhead ⟨_, _, Stmt.select hword htail⟩ _
    · intro t b x ht h
      obtain ⟨s, htail, rfl⟩ := seq_empty_iff.mp h
      exact .select ht htail
  · intro t b x ht h
    obtain ⟨s, htail, rfl⟩ := seq_empty_iff.mp h
    exact .insert ht htail

/-! ## The loop -/

/-- The loop has read a beginning of a script and fails alike on every list that goes on
with the token in front. -/
def LoopFails (tokens : List Token) (e : SqlError) : Prop :=
  ∃ b rest, tokens = b ++ rest ∧ FaultAt rest.head? e ∧
    (∃ c pieces, Script (b ++ c) pieces) ∧
    ∀ rest' script', rest'.head? = rest.head? →
      (parseScriptLoop (b ++ rest') script').result = .error e

section Loop

variable {tokens mid : List Token} {statement : Statement} {e : SqlError}

theorem LoopFails.semicolon (hsemi : (peek tokens).type = .semicolon)
    (h : LoopFails tokens.tail e) : LoopFails tokens e := by
  obtain ⟨b, rest, htail, hfault, ⟨c, pieces, hscript⟩, hfails⟩ := h
  obtain ⟨ts, hts⟩ : ∃ ts, tokens = peek tokens :: ts := peek_eq_cons (by simp [hsemi])
  refine ⟨peek tokens :: b, rest, ?_, hfault, ⟨c, pieces, .semicolon hsemi hscript⟩, ?_⟩
  · rw [List.cons_append, ← htail, hts]
    rfl
  · intro rest' script' hhead
    rw [parseScriptLoop_of_semicolon (by simpa using hsemi)]
    exact hfails rest' script' hhead

/-- The statement in front is the one that fails. -/
theorem LoopFails.of_error (hend : (peek tokens).type ≠ .end_)
    (hsemi : (peek tokens).type ≠ .semicolon) (h : parseStatement tokens = .error e) :
    LoopFails tokens e := by
  obtain ⟨b, rest, rfl, hfault, ⟨c, statement, hstmt⟩, hfails⟩ :=
    parseStatement_oneAhead.error tokens e h
  refine ⟨b, rest, rfl, hfault, ⟨c, [(b ++ c, statement)], ?_⟩, ?_⟩
  · have hscript := Script.stmt hstmt .nil
    rwa [List.append_nil] at hscript
  · intro rest' script' hhead
    have hsame := peek_congr (head?_append_congr b hhead)
    rw [parseScriptLoop_of_error (hsame ▸ hend) (hsame ▸ hsemi) (hfails rest' hhead)]
    rfl

/-- The tokens of a parsed statement, and how the loop goes on behind them. -/
theorem exists_statement_tokens (hend : (peek tokens).type ≠ .end_)
    (hsemi : (peek tokens).type ≠ .semicolon)
    (h : parseStatement tokens = .ok (statement, mid)) :
    ∃ b, tokens = b ++ mid ∧ Stmt b statement ∧
      ∀ mid' script, mid'.head? = mid.head? →
        parseScriptLoop (b ++ mid') script =
          parseScriptLoop (skipToken .semicolon mid') (script ++ [statement]) := by
  obtain ⟨b, htokens, hread⟩ := parseStatement_oneAhead.ok tokens statement mid h
  obtain ⟨b', htokens', hstmt⟩ := parseStatement_sound tokens statement mid h
  obtain rfl := List.append_cancel_right (htokens.symm.trans htokens')
  refine ⟨b, htokens, hstmt, ?_⟩
  intro mid' script hhead
  have hsame := peek_congr (head?_append_congr b hhead)
  rw [← htokens] at hsame
  exact parseScriptLoop_of_ok (hsame ▸ hend) (hsame ▸ hsemi) (hread mid' hhead)

theorem LoopFails.of_ok (hend : (peek tokens).type ≠ .end_)
    (hsemi : (peek tokens).type ≠ .semicolon)
    (hstmt : parseStatement tokens = .ok (statement, mid))
    (h : LoopFails (skipToken .semicolon mid) e) : LoopFails tokens e := by
  obtain ⟨b₁, htokens, hb₁, hread⟩ := exists_statement_tokens hend hsemi hstmt
  obtain ⟨b₂, rest, hskip, hfault, ⟨c, pieces, hscript⟩, hfails⟩ := h
  by_cases hmid : (peek mid).type = .semicolon
  · -- the semicolon behind the statement goes with it
    obtain ⟨ts, hts⟩ : ∃ ts, mid = peek mid :: ts := peek_eq_cons (by simp [hmid])
    have hb₂ : mid = peek mid :: (b₂ ++ rest) := by
      rw [skipToken, if_pos hmid] at hskip
      rw [← hskip, hts]
      rfl
    refine ⟨b₁ ++ peek mid :: b₂, rest, ?_, hfault, ⟨c, (b₁, statement) :: pieces, ?_⟩, ?_⟩
    · rw [htokens, List.append_assoc, List.cons_append, ← hb₂]
    · rw [List.append_assoc]
      exact .stmtSemicolon hb₁ hmid hscript
    · intro rest' script' hhead
      have hmid' : (peek mid :: (b₂ ++ rest')).head? = mid.head? := by
        rw [hb₂]
        rfl
      rw [List.append_assoc, List.cons_append, hread _ script' hmid', skipToken,
        if_pos (by simpa using hmid), List.tail_cons]
      exact hfails rest' _ hhead
  · rw [skipToken, if_neg hmid] at hskip
    refine ⟨b₁ ++ b₂, rest, ?_, hfault, ⟨c, (b₁, statement) :: pieces, ?_⟩, ?_⟩
    · rw [htokens, hskip, List.append_assoc]
    · rw [List.append_assoc]
      exact .stmt hb₁ hscript
    · intro rest' script' hhead
      have hmid' : (b₂ ++ rest').head? = mid.head? := by
        rw [hskip]
        exact head?_append_congr b₂ hhead
      rw [List.append_assoc, hread _ script' hmid', skipToken, peek_congr hmid', if_neg hmid]
      exact hfails rest' _ hhead

end Loop

theorem parseScriptLoop_error (tokens : List Token) (script : List Statement) (e : SqlError) :
    (parseScriptLoop tokens script).result = .error e → LoopFails tokens e := by
  induction tokens, script using parseScriptLoop.induct with
  | case1 tokens script hpeek =>
      intro h
      simp [parseScriptLoop_of_end hpeek] at h
  | case2 tokens script hpeek hsemi ih =>
      intro h
      rw [parseScriptLoop_of_semicolon hsemi] at h
      exact .semicolon hsemi (ih h)
  | case3 tokens script hpeek hsemi e' he' =>
      intro h
      rw [parseScriptLoop_of_error hpeek hsemi he'] at h
      obtain rfl : e' = e := Except.error.inj h
      exact .of_error hpeek hsemi he'
  | case4 tokens script hpeek hsemi statement mid hstmt ih =>
      intro h
      rw [parseScriptLoop_of_ok hpeek hsemi hstmt] at h
      exact .of_ok hpeek hsemi hstmt (ih h)

theorem Script.ne_end {b : List Token} {pieces : List (List Token × Statement)}
    (h : Script b pieces) : ∀ t ∈ b, t.type ≠ .end_ := by
  induction h with
  | nil => simp
  | semicolon hsemi _ ih => simpa [hsemi] using ih
  | stmt hstmt _ ih => exact List.forall_mem_append.mpr ⟨hstmt.ne_end, ih⟩
  | @stmtSemicolon b ts t statement pieces hstmt hsemi _ ih =>
      have ht : t.type ≠ .end_ := by simp [hsemi]
      exact List.forall_mem_append.mpr
        ⟨hstmt.ne_end, List.forall_mem_cons.mpr ⟨ht, ih⟩⟩

/-- The parsing stage rejects a list at one of its tokens, the first impossible one. -/
theorem parseTokens_error {tokens : List Token} {e : SqlError} (hend : EndsInEnd tokens)
    (h : (parseTokens tokens).result = .error e) :
    ∃ k t, tokens[k]? = some t ∧ (∃ message, e = t.fault message) ∧
      FirstImpossible tokens k := by
  obtain ⟨b, rest, rfl, hfault, ⟨c, pieces, hscript⟩, hfails⟩ :=
    parseScriptLoop_error _ _ _ h
  have hb : ∀ t ∈ b ++ c, t.type ≠ .end_ := hscript.ne_end
  obtain ⟨body, endToken, htokens, hbody, hendToken⟩ := hend
  -- what was read holds no end token, so the end token is still in front
  obtain ⟨t, ts, rfl⟩ : ∃ t ts, rest = t :: ts := by
    obtain ⟨body', hrest, -⟩ := append_end_split hendToken
      (fun t ht => hb t (List.mem_append_left c ht)) htokens.symm
    exact List.exists_cons_of_ne_nil (by simp [hrest])
  refine ⟨b.length, t, by simp, hfault, ?_, ?_⟩
  · refine ⟨b ++ c ++ [endToken], ⟨⟨b ++ c, endToken, rfl, hb, hendToken⟩, ?_⟩, ?_⟩
    · exact (parseTokens_grammar (b ++ c) endToken hb hendToken).1.mpr ⟨pieces, hscript⟩
    · rw [List.take_left, List.append_assoc]
      exact List.prefix_append b (c ++ [endToken])
  · rintro accepted ⟨-, hok⟩ hprefix
    obtain ⟨later, rfl⟩ := hprefix
    have htake : (b ++ t :: ts).take (b.length + 1) ++ later = b ++ t :: later := by
      simp [List.take_append, List.take_of_length_le]
    rw [htake, parseTokens, hfails (t :: later) [] rfl] at hok
    simp at hok

/-! ## The positions of the tokens -/

/-- Earlier in the source. -/
def Before (p q : Nat × Nat) : Prop := p.1 < q.1 ∨ p.1 = q.1 ∧ p.2 < q.2

theorem Before.trans {p q r : Nat × Nat} (h : Before p q) (h' : Before q r) : Before p r := by
  unfold Before at *
  omega

theorem before_advance (line column : Nat) {w : Bytes} (hw : w ≠ []) :
    Before (line, column) (advance (line, column) w) := by
  by_cases hmem : newline ∈ w
  · have hcount := List.count_pos_iff.mpr hmem
    left
    rw [advance_fst]
    omega
  · have hlength := List.length_pos_of_ne_nil hw
    rw [advance_of_not_mem hmem]
    exact .inr ⟨rfl, by simp only; omega⟩

/-- Every iteration moves the position on. -/
theorem LexMove.before {s s' : LexState} (h : LexMove s s.rest s') :
    Before (s.line, s.column) (s'.line, s'.column) := by
  obtain ⟨w, hrest, hposition⟩ := position_of_lexMove h
  rcases hposition with ⟨-, hadvance⟩ | ⟨content, -, rfl, hline, hcolumn⟩
  · have hw : w ≠ [] := by
      rintro rfl
      have hlength := h.length_lt
      rw [hrest, List.nil_append] at hlength
      omega
    rw [hadvance]
    exact before_advance s.line s.column hw
  · right
    simp only [List.length_append, List.length_cons, List.length_nil] at hcolumn
    exact ⟨hline.symm, by simp only; omega⟩

/-- The stored tokens stand in order, all of them in front of the position. -/
structure LexState.Ordered (s : LexState) : Prop where
  tokens : (s.tokens.map Token.position).Pairwise Before
  last : ∀ t ∈ s.tokens, Before t.position (s.line, s.column)

theorem LexState.Ordered.concat {s : LexState} (h : s.Ordered) {t : Token}
    (ht : t.position = (s.line, s.column)) :
    ((s.tokens ++ [t]).map Token.position).Pairwise Before := by
  rw [List.map_append, List.pairwise_append]
  refine ⟨h.tokens, by simp, ?_⟩
  intro p hp q hq
  obtain ⟨u, hu, rfl⟩ := List.mem_map.mp hp
  obtain rfl : q = t.position := by simpa using hq
  exact ht ▸ h.last u hu

theorem LexState.Ordered.next {s s' : LexState} (h : s.Ordered) (hmove : LexMove s s.rest s') :
    s'.Ordered := by
  have hbefore := hmove.before
  rcases tokens_of_lexMove hmove with htokens | ⟨t, htokens, ht⟩
  · exact ⟨htokens ▸ h.tokens, fun u hu => (h.last u (htokens ▸ hu)).trans hbefore⟩
  · refine ⟨htokens ▸ h.concat ht, ?_⟩
    intro u hu
    rw [htokens] at hu
    rcases List.mem_append.mp hu with hu | hu
    · exact (h.last u hu).trans hbefore
    · obtain rfl := List.mem_singleton.mp hu
      rw [Token.position, ht]
      exact hbefore

/-- No two tokens of a source have one position. -/
theorem tokenizeSql_positions_nodup {source : Bytes} {tokens : List Token}
    (h : tokenizeSql source = .ok tokens) : (tokens.map Token.position).Nodup := by
  have hrun : ∀ {s t : LexState}, tokenizeLoop s = .ok t → s.Ordered → t.Ordered := by
    intro s t hloop
    refine tokenizeLoop_induction (motive := fun s t => s.Ordered → t.Ordered) ?_ ?_ hloop
    · exact fun s _ hs => hs
    · exact fun s s' t _ hmove _ ih hs => ih (hs.next hmove)
  unfold tokenizeSql at h
  cases hloop : tokenizeLoop (.start source) with
  | error e => simp [hloop] at h
  | ok t =>
      rw [hloop] at h
      rw [← Except.ok.inj h]
      have hordered := hrun hloop ⟨.nil, by simp [LexState.start]⟩
      refine List.Pairwise.imp ?_ (hordered.concat rfl)
      intro p q hpq heq
      subst heq
      unfold Before at hpq
      omega

/-! ## The reported position -/

/-- A syntax error has the position of the first impossible token of the list, and where
no two tokens have one position, as in every list the tokenizer makes, the token at the
position reported is that one. -/
theorem parseTokens_error_firstImpossible (tokens : List Token) (e : SqlError)
    (hend : EndsInEnd tokens) (h : (parseTokens tokens).result = .error e) :
    (∃ k t, tokens[k]? = some t ∧ e.position = some t.position ∧ FirstImpossible tokens k) ∧
      ((tokens.map Token.position).Nodup →
        ∀ k t, tokens[k]? = some t → e.position = some t.position →
          FirstImpossible tokens k) ∧
      ∀ source, tokenizeSql source = .ok tokens → (tokens.map Token.position).Nodup := by
  obtain ⟨k, t, ht, ⟨message, rfl⟩, hfirst⟩ := parseTokens_error hend h
  refine ⟨⟨k, t, ht, rfl, hfirst⟩, ?_, fun source => tokenizeSql_positions_nodup⟩
  intro hnodup j u hu hposition
  have hsame : (tokens.map Token.position)[j]? = (tokens.map Token.position)[k]? := by
    rw [List.getElem?_map, List.getElem?_map, hu, ht]
    exact hposition.symm
  obtain ⟨hj, -⟩ := List.getElem?_eq_some_iff.mp hu
  obtain rfl := (List.getElem?_inj (by simpa using hj) hnodup).mp hsame
  exact hfirst

/-- A keyword for a table name: the error is at the keyword, the fourth token. -/
theorem parseTokens_error_firstImpossible_from :
    let word (type : TokenType) (text : String) (column : Nat) : Token :=
      ⟨type, ascii text, 1, column⟩
    let tokens : List Token := [word .select "SELECT" 1, word .star "*" 8, word .from_ "FROM" 10,
      word .where_ "WHERE" 15, word .end_ "" 20]
    (parseTokens tokens).result = .error (.atPosition "expected table name" 1 15) ∧
      FirstImpossible tokens 3 := by
  intro word tokens
  have herror : (parseTokens tokens).result =
      .error (.atPosition "expected table name" 1 15) := by decide +kernel
  have hend : EndsInEnd tokens := ⟨tokens.dropLast, word .end_ "" 20, rfl, by decide, rfl⟩
  have hreported := (parseTokens_error_firstImpossible tokens _ hend herror).2.1
  exact ⟨herror, hreported (by decide) 3 (word .where_ "WHERE" 15) rfl rfl⟩

end MiniSql
