import Mathlib.Data.List.DropRight
import MiniSql.Parser.Tokenizer

set_option autoImplicit false

/-!
# Positions

The tokenizer counts lines and columns by hand.  Inside a string literal it counts
no line, and of the two quotes only one, so a recorded position is the true one
exactly when no literal stands in front of it on its line and no literal in front
of it contains a newline (`tokenizeSql_positions_iff`).
-/

namespace MiniSql

open Foundation

/-- The line and the column of the byte behind `before`. -/
def truePosition (before : Bytes) : Nat × Nat :=
  (1 + before.count newline, 1 + (before.rtakeWhile (· != newline)).length)

/-- The states of the loop of `tokenize_sql`, one for each iteration it begins and one
at the end, also of a loop that fails. -/
def loopHeads (s : LexState) : List LexState :=
  match hrest : s.rest with
  | [] => [s]
  | ch :: tail =>
      match hstep : tokenizeStep s ch tail with
      | .error _ => [s]
      | .ok s' =>
          have hlt : s'.rest.length < s.rest.length := by
            rw [hrest]
            exact (lexMove_of_tokenizeStep hstep).length_lt
          s :: loopHeads s'
termination_by s.rest.length

/-- The position an error of the tokenizer prints. -/
def SqlError.position : SqlError → Option (Nat × Nat)
  | .atPosition _ line column => some (line, column)
  | .unexpectedCharacter _ line column => some (line, column)
  | _ => none

/-- The position that is stored in the token of this iteration, or in the end token, or
printed in its error. -/
def LexState.recorded (s : LexState) : Option (Nat × Nat) :=
  match s.rest with
  | [] => some (s.line, s.column)
  | ch :: tail =>
      match tokenizeStep s ch tail with
      | .error e => e.position
      | .ok s' => (s'.tokens.drop s.tokens.length).head?.map fun t => (t.line, t.column)

/-- The content of the literal that begins here, and the source behind it. -/
def LexState.literal (s : LexState) : Option (Bytes × Bytes) :=
  match s.rest with
  | [] => none
  | ch :: tail =>
      if ch = quote then (readStringLoop tail [] 0).map fun r => (r.1, r.2.1) else none

/-- The source in front of what is still to be read. -/
def LexState.before (s : LexState) (source : Bytes) : Bytes :=
  source.take (source.length - s.rest.length)

/-! ## Positions in a text -/

section Advance

variable {line column : Nat} {w : Bytes}

theorem advance_append (p : Nat × Nat) (v w : Bytes) :
    advance p (v ++ w) = advance (advance p v) w := by
  induction v generalizing p with
  | nil => rfl
  | cons ch v ih =>
      obtain ⟨line, column⟩ := p
      exact ih _

theorem advance_fst (line column : Nat) (w : Bytes) :
    (advance (line, column) w).1 = line + w.count newline := by
  induction w generalizing line column with
  | nil => rfl
  | cons ch w ih =>
      rw [advance]
      split
      · rename_i hch
        rw [ih, hch, List.count_cons_self]
        omega
      · rename_i hch
        rw [ih, List.count_cons_of_ne hch]

/-- Without a newline every byte is a column. -/
theorem advance_snd_of_not_mem (h : newline ∉ w) :
    (advance (line, column) w).2 = column + w.length := by
  induction w generalizing line column with
  | nil => rfl
  | cons ch w ih =>
      rw [List.mem_cons, not_or] at h
      rw [advance, if_neg (Ne.symm h.1), ih h.2, List.length_cons]
      omega

theorem advance_of_not_mem (h : newline ∉ w) :
    advance (line, column) w = (line, column + w.length) := by
  refine Prod.ext ?_ (advance_snd_of_not_mem h)
  rw [advance_fst, List.count_eq_zero.mpr h, Nat.add_zero]

/-- Behind a newline it does not matter where the text began. -/
theorem advance_snd_of_mem (h : newline ∈ w) (p q : Nat × Nat) :
    (advance p w).2 = (advance q w).2 := by
  have hcolumn : ∀ (v : Bytes) (l l' c : Nat), (advance (l, c) v).2 = (advance (l', c) v).2 := by
    intro v
    induction v with
    | nil => exact fun _ _ _ => rfl
    | cons ch v ih =>
        intro l l' c
        rw [advance, advance]
        split
        · exact ih _ _ _
        · exact ih _ _ _
  induction w generalizing p q with
  | nil => simp at h
  | cons ch w ih =>
      obtain ⟨line, column⟩ := p
      obtain ⟨line', column'⟩ := q
      rw [advance, advance]
      by_cases hch : ch = newline
      · rw [if_pos hch, if_pos hch]
        exact hcolumn w _ _ _
      · rw [if_neg hch, if_neg hch]
        exact ih ((List.mem_cons.mp h).resolve_left (Ne.symm hch)) _ _

theorem truePosition_eq_advance (before : Bytes) : truePosition before = advance (1, 1) before := by
  induction before using List.reverseRecOn with
  | nil => rfl
  | append_singleton before ch ih =>
      rw [advance_append, ← ih]
      unfold truePosition
      rw [List.count_append, List.rtakeWhile_concat, advance, advance]
      by_cases hch : ch = newline
      · simp [hch]
        omega
      · simp [hch]
        omega

end Advance

/-! ## One iteration -/

section Iteration

variable {s s' : LexState} {ch : Byte} {tail : Bytes}

theorem literal_of_head_ne (hrest : s.rest = ch :: tail) (h : ch ≠ quote) :
    s.literal = none := by
  simp [LexState.literal, hrest, h]

/-- The positions behind a word, a number, a comment or a blank are counted as they
are; behind a literal the line stands still and a column is missing. -/
theorem position_of_lexMove (h : LexMove s s.rest s') :
    ∃ w, s.rest = w ++ s'.rest ∧
      ((s.literal = none ∧ (s'.line, s'.column) = advance (s.line, s.column) w) ∨
        ∃ content, s.literal = some (content, s'.rest) ∧
          w = quote :: doubleQuotes content ++ [quote] ∧ s'.line = s.line ∧
          s'.column + 1 = s.column + w.length) := by
  generalize hinput : s.rest = input at h
  cases h with
  | newline rest =>
      exact ⟨[newline], rfl, .inl ⟨literal_of_head_ne hinput (by decide), rfl⟩⟩
  | @blank ch rest hspace hch =>
      have hquote : ch ≠ quote := fun hquote => absurd (hquote ▸ hspace) (by decide)
      refine ⟨[ch], rfl, .inl ⟨literal_of_head_ne hinput hquote, ?_⟩⟩
      have hnot : newline ∉ [ch] := by simpa using Ne.symm hch
      exact (advance_of_not_mem hnot).symm
  | @lineComment body rest hbody hrest =>
      refine ⟨minus :: minus :: body, rfl,
        .inl ⟨literal_of_head_ne hinput (by decide), ?_⟩⟩
      have hnot : newline ∉ minus :: minus :: body := by
        simp only [List.mem_cons, not_or]
        exact ⟨by decide, by decide, hbody⟩
      rw [advance_of_not_mem hnot, List.length_cons, List.length_cons]
      exact Prod.ext rfl (by simp only; omega)
  | @blockComment body rest hbody =>
      refine ⟨slash :: star :: body ++ [star, slash], by simp,
        .inl ⟨literal_of_head_ne hinput (by decide), ?_⟩⟩
      have hopen : advance (s.line, s.column) (slash :: star :: body) =
          advance (s.line, s.column + 2) body := rfl
      have hclose : newline ∉ [star, slash] := by decide
      rw [advance_append, hopen]
      exact (advance_of_not_mem hclose).symm
  | @word ch body rest hstart hbody hrest =>
      have hquote : ch ≠ quote := fun hquote => absurd (hquote ▸ hstart) (by decide)
      refine ⟨ch :: body, rfl, .inl ⟨literal_of_head_ne hinput hquote, ?_⟩⟩
      have hnot : newline ∉ ch :: body := by
        intro hmem
        rcases List.mem_cons.mp hmem with hch | hmem
        · exact absurd (hch ▸ hstart) (by decide)
        · exact absurd (hbody newline hmem) (by decide)
      exact (advance_of_not_mem hnot).symm
  | @number ch body rest hstart hbody hrest =>
      have hquote : ch ≠ quote := by
        rcases hstart with hdigit | ⟨rfl, -⟩
        · exact fun hquote => absurd (hquote ▸ hdigit) (by decide)
        · decide
      refine ⟨ch :: body, rfl, .inl ⟨literal_of_head_ne hinput hquote, ?_⟩⟩
      have hnot : newline ∉ ch :: body := by
        intro hmem
        rcases List.mem_cons.mp hmem with hch | hmem
        · rcases hstart with hdigit | ⟨hminus, -⟩
          · exact absurd (hch ▸ hdigit) (by decide)
          · exact absurd (hch.trans hminus) (by decide)
        · exact absurd (hbody newline hmem) (by decide)
      exact (advance_of_not_mem hnot).symm
  | @string content rest hrest =>
      refine ⟨quote :: doubleQuotes content ++ [quote], by simp, .inr ⟨content, ?_, rfl, rfl, ?_⟩⟩
      · have hread : readStringLoop (doubleQuotes content ++ quote :: rest) [] 0 =
            some (content, rest, 0 + (doubleQuotes content).length) :=
          readStringLoop_eq_some_iff.mpr ⟨content, by simp, rfl, hrest, rfl⟩
        simp [LexState.literal, hinput, hread]
      · simp
        omega
  | @simple ch type rest htype =>
      have hquote : ch ≠ quote := (simpleTokenType_excludes htype).2.2.2.2.2
      have hspace := (simpleTokenType_excludes htype).1
      refine ⟨[ch], rfl, .inl ⟨literal_of_head_ne hinput hquote, ?_⟩⟩
      have hnot : newline ∉ [ch] := by
        intro hmem
        rw [← List.mem_singleton.mp hmem] at hspace
        exact absurd hspace (by decide)
      exact (advance_of_not_mem hnot).symm

/-- An iteration that fails prints its own position, or none. -/
theorem tokenizeStep_error {e : SqlError} (h : tokenizeStep s ch tail = .error e) :
    e.position = some (s.line, s.column) ∨ e = .unterminatedBlockComment := by
  unfold tokenizeStep at h
  split at h
  · split at h
    · simp at h
    · simp at h
  · split at h
    · simp at h
    · split at h
      · split at h
        · exact .inr (Except.error.inj h).symm
        · simp at h
      · split at h
        · simp at h
        · split at h
          · simp at h
          · split at h
            · unfold readStringToken at h
              split at h
              · exact .inl (Except.error.inj h ▸ rfl)
              · simp at h
            · split at h
              · exact .inl (Except.error.inj h ▸ rfl)
              · simp at h

/-- A move stores at most one token, with the position it began at. -/
theorem tokens_of_lexMove {input : Bytes} (h : LexMove s input s') :
    s'.tokens = s.tokens ∨ ∃ t : Token, s'.tokens = s.tokens ++ [t] ∧
      (t.line, t.column) = (s.line, s.column) := by
  cases h with
  | newline => exact .inl rfl
  | blank => exact .inl rfl
  | lineComment => exact .inl rfl
  | blockComment => exact .inl rfl
  | word => exact .inr ⟨_, rfl, rfl⟩
  | number => exact .inr ⟨_, rfl, rfl⟩
  | string => exact .inr ⟨_, rfl, rfl⟩
  | simple => exact .inr ⟨_, rfl, rfl⟩

/-- What an iteration records is the position it began at. -/
theorem recorded_eq {p : Nat × Nat} (h : s.recorded = some p) : p = (s.line, s.column) := by
  unfold LexState.recorded at h
  split at h
  · exact (Option.some.inj h).symm
  · split at h
    · rename_i e hstep
      rcases tokenizeStep_error hstep with hposition | rfl
      · exact Option.some.inj (h.symm.trans hposition)
      · simp [SqlError.position] at h
    · rename_i s' hstep
      rcases tokens_of_lexMove (lexMove_of_tokenizeStep hstep) with htokens | ⟨t, htokens, ht⟩
      · simp [htokens] at h
      · rw [htokens, List.drop_left] at h
        rw [← ht]
        exact (Option.some.inj h).symm

end Iteration

/-! ## The whole loop -/

/-- The iterations that led from the start to a state, first to last. -/
inductive Reached (source : Bytes) : List LexState → LexState → Prop
  | start : Reached source [] (.start source)
  | next {past : List LexState} {s s' : LexState} (hpast : Reached source past s)
      (hmove : LexMove s s.rest s') : Reached source (past ++ [s]) s'

/-- No newline stands in the literal, and one stands between it and the state `s`. -/
def ClearOf (s literal : LexState) : Prop :=
  ∀ content behind, literal.literal = some (content, behind) →
    newline ∉ content ∧ ∃ between, behind = between ++ s.rest ∧ newline ∈ between

/-- The contents of the literals that were read. -/
def literalContents (past : List LexState) : Bytes :=
  past.flatMap fun t => (t.literal.map Prod.fst).getD []

/-- What stands between a literal and the state `s`, given the source behind both. -/
def upTo (s : LexState) (behind : Bytes) : Bytes :=
  behind.take (behind.length - s.rest.length)

/-- The literals with no newline behind them yet. -/
def openLiterals (past : List LexState) (s : LexState) : Nat :=
  past.countP fun t => t.literal.any fun l => newline ∉ upTo s l.2

/-- How far the counted position is from the true one: the line by the newlines in
literals, the column by one for each literal on the line. -/
structure Drift (source : Bytes) (past : List LexState) (s : LexState) : Prop where
  suffix : source = upTo s source ++ s.rest
  behind : ∀ t ∈ past, ∀ l, t.literal = some l → l.2 = upTo s l.2 ++ s.rest
  line : s.line + (literalContents past).count newline = (truePosition (upTo s source)).1
  column : newline ∉ literalContents past →
    s.column + openLiterals past s = (truePosition (upTo s source)).2

section Loop

variable {source : Bytes} {past : List LexState} {s s' : LexState}

theorem upTo_append (between : Bytes) : upTo s (between ++ s.rest) = between := by
  simp [upTo]

/-- A source that ends in what `s` has to read still does after a move. -/
theorem upTo_move {w text : Bytes} (hrest : s.rest = w ++ s'.rest)
    (h : text = upTo s text ++ s.rest) :
    upTo s' text = upTo s text ++ w ∧ text = upTo s' text ++ s'.rest := by
  rw [hrest, ← List.append_assoc] at h
  have hbetween : upTo s' text = upTo s text ++ w := by
    conv_lhs => rw [h]
    exact upTo_append _
  refine ⟨hbetween, ?_⟩
  rw [hbetween]
  exact h

theorem count_newline_doubleQuotes (content : Bytes) :
    (doubleQuotes content).count newline = content.count newline := by
  induction content with
  | nil => rfl
  | cons ch content ih =>
      by_cases hch : ch = quote
      · rw [hch, doubleQuotes_quote, List.count_cons_of_ne (by decide),
          List.count_cons_of_ne (by decide), List.count_cons_of_ne (by decide), ih]
      · rw [doubleQuotes_cons hch, List.count_cons, List.count_cons, ih]

theorem literalContents_concat (past : List LexState) (s : LexState) :
    literalContents (past ++ [s]) =
      literalContents past ++ (s.literal.map Prod.fst).getD [] := by
  simp [literalContents]

theorem openLiterals_concat (past : List LexState) (s s' : LexState) :
    openLiterals (past ++ [s]) s' =
      openLiterals past s' + openLiterals [s] s' := by
  simp [openLiterals]

/-- A newline ends the line for every literal on it. -/
theorem openLiterals_of_mem {w : Bytes} (hrest : s.rest = w ++ s'.rest) (hw : newline ∈ w)
    (hbehind : ∀ t ∈ past, ∀ l, t.literal = some l → l.2 = upTo s l.2 ++ s.rest) :
    openLiterals past s' = 0 := by
  unfold openLiterals
  rw [List.countP_eq_zero]
  intro t ht
  cases hliteral : t.literal with
  | none => simp
  | some l =>
      have hupTo := (upTo_move hrest (hbehind t ht l hliteral)).1
      simp [hupTo, hw]

theorem openLiterals_of_not_mem {w : Bytes} (hrest : s.rest = w ++ s'.rest) (hw : newline ∉ w)
    (hbehind : ∀ t ∈ past, ∀ l, t.literal = some l → l.2 = upTo s l.2 ++ s.rest) :
    openLiterals past s' = openLiterals past s := by
  unfold openLiterals
  apply List.countP_congr
  intro t ht
  cases hliteral : t.literal with
  | none => simp
  | some l =>
      have hupTo := (upTo_move hrest (hbehind t ht l hliteral)).1
      simp [hupTo, hw]

theorem truePosition_append (before w : Bytes) :
    truePosition (before ++ w) = advance (truePosition before) w := by
  rw [truePosition_eq_advance, truePosition_eq_advance, advance_append]

theorem Drift.start (source : Bytes) : Drift source [] (.start source) := by
  refine ⟨?_, by simp, ?_, ?_⟩
  · simp [upTo, LexState.start]
  · simp [upTo, LexState.start, literalContents, truePosition]
  · intro _
    simp [upTo, LexState.start, openLiterals, truePosition]

/-- A move keeps the account of what is missing. -/
theorem Drift.next (h : Drift source past s) (hmove : LexMove s s.rest s') :
    Drift source (past ++ [s]) s' := by
  obtain ⟨w, hrest, hcase⟩ := position_of_lexMove hmove
  obtain ⟨hupTo, hsuffix⟩ := upTo_move hrest h.suffix
  have hposition := truePosition_append (upTo s source) w
  rw [← hupTo] at hposition
  have hline : (truePosition (upTo s' source)).1 =
      (truePosition (upTo s source)).1 + w.count newline := by
    rw [hposition]
    exact advance_fst _ _ w
  rcases hcase with ⟨hnone, hadvance⟩ | ⟨content, hliteral, hw, hline', hcolumn'⟩
  · have hcontents : literalContents (past ++ [s]) = literalContents past := by
      rw [literalContents_concat, hnone]
      exact List.append_nil _
    have hself : openLiterals [s] s' = 0 := by simp [openLiterals, hnone]
    refine ⟨hsuffix, ?_, ?_, ?_⟩
    · intro t ht l hl
      rcases List.mem_append.mp ht with ht | ht
      · exact (upTo_move hrest (h.behind t ht l hl)).2
      · rw [List.mem_singleton.mp ht, hnone] at hl
        simp at hl
    · rw [hcontents, hline, ← h.line, show s'.line = _ from congrArg Prod.fst hadvance,
        advance_fst]
      omega
    · intro hnot
      rw [hcontents] at hnot
      rw [openLiterals_concat, hself, Nat.add_zero, hposition,
        show s'.column = _ from congrArg Prod.snd hadvance]
      by_cases hnewline : newline ∈ w
      · rw [openLiterals_of_mem hrest hnewline h.behind, Nat.add_zero]
        exact advance_snd_of_mem hnewline _ _
      · rw [openLiterals_of_not_mem hrest hnewline h.behind,
          advance_snd_of_not_mem hnewline, advance_snd_of_not_mem hnewline, ← h.column hnot]
        omega
  · have hcontents : literalContents (past ++ [s]) = literalContents past ++ content := by
      rw [literalContents_concat, hliteral]
      rfl
    have hself : openLiterals [s] s' = 1 := by simp [openLiterals, hliteral, upTo]
    have hcount : w.count newline = content.count newline := by
      rw [hw, List.count_append, List.count_cons_of_ne (by decide),
        count_newline_doubleQuotes]
      rfl
    refine ⟨hsuffix, ?_, ?_, ?_⟩
    · intro t ht l hl
      rcases List.mem_append.mp ht with ht | ht
      · exact (upTo_move hrest (h.behind t ht l hl)).2
      · rw [List.mem_singleton.mp ht, hliteral] at hl
        obtain rfl := Option.some.inj hl
        simp [upTo]
    · rw [hcontents, hline, ← h.line, hline', List.count_append, hcount, Nat.add_assoc]
    · intro hnot
      rw [hcontents, List.mem_append, not_or] at hnot
      have hnewline : newline ∉ w := by
        rw [← List.count_eq_zero, hcount, List.count_eq_zero]
        exact hnot.2
      have hcolumn := h.column hnot.1
      rw [openLiterals_concat, hself, hposition, openLiterals_of_not_mem hrest hnewline h.behind,
        advance_snd_of_not_mem hnewline]
      omega

theorem Reached.drift (h : Reached source past s) : Drift source past s := by
  induction h with
  | start => exact .start source
  | next _ hmove ih => exact ih.next hmove

/-- The counted position is the true one exactly when no literal is to blame. -/
theorem Drift.eq_truePosition_iff (h : Drift source past s) :
    (s.line, s.column) = truePosition (s.before source) ↔ ∀ t ∈ past, ClearOf s t := by
  have hbefore : s.before source = upTo s source := rfl
  rw [hbefore, Prod.ext_iff]
  constructor
  · intro heq
    obtain ⟨hline, hcolumn⟩ := heq
    have hcount : (literalContents past).count newline = 0 := by
      have := h.line
      simp only at hline
      omega
    have hnot := List.count_eq_zero.mp hcount
    have hopen : openLiterals past s = 0 := by
      have := h.column hnot
      simp only at hcolumn
      omega
    intro t ht content behind hliteral
    refine ⟨?_, upTo s behind, h.behind t ht _ hliteral, ?_⟩
    · intro hmem
      apply hnot
      exact List.mem_flatMap.mpr ⟨t, ht, by simpa [hliteral] using hmem⟩
    · have hclosed := List.countP_eq_zero.mp hopen t ht
      simpa [hliteral] using hclosed
  · intro hclear
    have hnot : newline ∉ literalContents past := by
      intro hmem
      obtain ⟨t, ht, hmem⟩ := List.mem_flatMap.mp hmem
      cases hliteral : t.literal with
      | none => simp [hliteral] at hmem
      | some l =>
          rw [hliteral] at hmem
          exact (hclear t ht l.1 l.2 hliteral).1 hmem
    have hopen : openLiterals past s = 0 := by
      unfold openLiterals
      rw [List.countP_eq_zero]
      intro t ht
      cases hliteral : t.literal with
      | none => simp
      | some l =>
          obtain ⟨-, between, hbehind, hmem⟩ := hclear t ht l.1 l.2 hliteral
          have hupTo : upTo s l.2 = between := by
            rw [hbehind]
            exact upTo_append between
          simpa [hupTo] using hmem
    have hline := h.line
    have hcolumn := h.column hnot
    rw [List.count_eq_zero.mpr hnot] at hline
    rw [hopen] at hcolumn
    exact ⟨hline, hcolumn⟩

end Loop

/-! ## What the loop records -/

/-- Every position the tokenizer stores in a token or prints is that of the first byte
the iteration looks at. -/
def PositionsTrue (source : Bytes) : Prop :=
  ∀ s ∈ loopHeads (.start source), ∀ p ∈ s.recorded, p = truePosition (s.before source)

instance (source : Bytes) : Decidable (PositionsTrue source) :=
  inferInstanceAs (Decidable (∀ s ∈ loopHeads (.start source), ∀ p ∈ s.recorded,
    p = truePosition (s.before source)))

section Heads

variable {source : Bytes} {past : List LexState} {s s' : LexState}

/-- The states of the loop are reached through those before them. -/
theorem Reached.of_loopHeads {middle post : List LexState} {t : LexState}
    (h : Reached source past s) (hheads : loopHeads s = middle ++ t :: post) :
    Reached source (past ++ middle) t := by
  fun_induction loopHeads s generalizing past middle with
  | case1 s hrest =>
      obtain ⟨rfl, rfl, rfl⟩ : middle = [] ∧ t = s ∧ post = [] := by
        simpa [List.singleton_eq_append_iff] using hheads
      rwa [List.append_nil]
  | case2 s ch tail hrest e hstep =>
      obtain ⟨rfl, rfl, rfl⟩ : middle = [] ∧ t = s ∧ post = [] := by
        simpa [List.singleton_eq_append_iff] using hheads
      rwa [List.append_nil]
  | case3 s ch tail hrest s' hstep hlt ih =>
      have hmove : LexMove s s.rest s' := by
        rw [hrest]
        exact lexMove_of_tokenizeStep hstep
      cases middle with
      | nil =>
          obtain ⟨rfl, -⟩ := List.cons.inj hheads
          rwa [List.append_nil]
      | cons first middle =>
          obtain ⟨rfl, htail⟩ := List.cons.inj hheads
          have hreached := ih (h.next hmove) htail
          rwa [List.append_assoc] at hreached

/-- The position of a token. -/
def Token.position (t : Token) : Nat × Nat := (t.line, t.column)

theorem recorded_of_ok {ch : Byte} {tail : Bytes} (hrest : s.rest = ch :: tail)
    (hstep : tokenizeStep s ch tail = .ok s') :
    s'.tokens.map Token.position =
      s.tokens.map Token.position ++ s.recorded.toList := by
  have hrecorded : s.recorded =
      (s'.tokens.drop s.tokens.length).head?.map fun t => (t.line, t.column) := by
    unfold LexState.recorded
    rw [hrest]
    simp only [hstep]
  rw [hrecorded]
  rcases tokens_of_lexMove (lexMove_of_tokenizeStep hstep) with htokens | ⟨t, htokens, -⟩
  · simp [htokens]
  · simp [htokens, Token.position]

/-- The positions of the tokens, and then that of the end token, are what the loop
records; the position an error prints is recorded too. -/
theorem loopHeads_recorded (s : LexState) :
    (∀ t, tokenizeLoop s = .ok t →
        t.tokens.map Token.position ++ [(t.line, t.column)] =
          s.tokens.map Token.position ++ (loopHeads s).filterMap LexState.recorded) ∧
      ∀ e, tokenizeLoop s = .error e → ∀ p ∈ e.position,
        ∃ t ∈ loopHeads s, t.recorded = some p := by
  fun_induction loopHeads s with
  | case1 s hrest =>
      have hrecorded : s.recorded = some (s.line, s.column) := by
        unfold LexState.recorded
        rw [hrest]
      rw [tokenizeLoop_nil hrest]
      refine ⟨?_, fun e he => by simp at he⟩
      intro t ht
      obtain rfl := Except.ok.inj ht
      simp [hrecorded]
  | case2 s ch tail hrest e hstep =>
      have hrecorded : s.recorded = e.position := by
        unfold LexState.recorded
        rw [hrest]
        simp only [hstep]
      rw [tokenizeLoop_of_error hrest hstep]
      refine ⟨fun t ht => by simp at ht, ?_⟩
      intro e' he p hp
      obtain rfl := Except.error.inj he
      exact ⟨s, List.mem_singleton_self s, hrecorded.trans hp⟩
  | case3 s ch tail hrest s' hstep hlt ih =>
      rw [tokenizeLoop_of_ok hrest hstep]
      have hrecorded := recorded_of_ok hrest hstep
      refine ⟨?_, ?_⟩
      · intro t ht
        rw [ih.1 t ht, hrecorded, List.append_assoc]
        cases hposition : s.recorded with
        | none => rw [List.filterMap_cons_none hposition, Option.toList_none, List.nil_append]
        | some p =>
            rw [List.filterMap_cons_some hposition, Option.toList_some, List.singleton_append]
      · intro e he p hp
        obtain ⟨t, ht, hposition⟩ := ih.2 e he p hp
        exact ⟨t, List.mem_cons_of_mem s ht, hposition⟩

/-- The tokens, the end token and the two errors that print a position get the position
of the loop.  All these positions are true exactly when no literal stands in front of
one of them on its line, and none with a newline in front of one at all. -/
theorem tokenizeSql_positions_iff (source : Bytes) :
    (∀ tokens, tokenizeSql source = .ok tokens →
        tokens.map Token.position =
          (loopHeads (.start source)).filterMap LexState.recorded) ∧
      (∀ e, tokenizeSql source = .error e → ∀ p ∈ e.position,
        ∃ s ∈ loopHeads (.start source), s.recorded = some p) ∧
      (PositionsTrue source ↔
        ∀ past s later, loopHeads (.start source) = past ++ s :: later →
          s.recorded.isSome = true → ∀ t ∈ past, ClearOf s t) := by
  obtain ⟨hok, herror⟩ := loopHeads_recorded (.start source)
  refine ⟨?_, ?_, ?_⟩
  · intro tokens h
    unfold tokenizeSql at h
    cases hloop : tokenizeLoop (.start source) with
    | error e => simp [hloop] at h
    | ok t =>
        rw [hloop] at h
        rw [← Except.ok.inj h, List.map_append]
        exact hok t hloop
  · intro e h
    unfold tokenizeSql at h
    cases hloop : tokenizeLoop (.start source) with
    | error e' =>
        rw [hloop] at h
        obtain rfl := Except.error.inj h
        exact herror e' hloop
    | ok t => simp [hloop] at h
  · constructor
    · intro htrue past s later hheads hrecorded
      have hdrift := (Reached.start.of_loopHeads hheads).drift
      rw [List.nil_append] at hdrift
      obtain ⟨p, hp⟩ := Option.isSome_iff_exists.mp hrecorded
      rw [← hdrift.eq_truePosition_iff, ← recorded_eq hp]
      exact htrue s (by simp [hheads]) p hp
    · intro hclear s hs p hp
      obtain ⟨past, later, hheads⟩ := List.append_of_mem hs
      have hdrift := (Reached.start.of_loopHeads hheads).drift
      rw [List.nil_append] at hdrift
      rw [recorded_eq hp, hdrift.eq_truePosition_iff]
      exact hclear past s later hheads (Option.isSome_iff_exists.mpr ⟨p, hp⟩)

/-- A literal and a word on one line: the word is stored one column too far to the
left, and so is the end of the source. -/
theorem tokenizeSql_positions_literal :
    tokenizeSql (ascii "'a' b") =
        .ok [⟨.string, ascii "a", 1, 1⟩, ⟨.identifier, ascii "b", 1, 4⟩, ⟨.end_, [], 1, 5⟩] ∧
      truePosition (ascii "'a' ") = (1, 5) ∧ ¬ PositionsTrue (ascii "'a' b") := by
  decide +kernel

-- behind a literal with a newline the line is wrong for good
example : tokenizeSql (ascii "'\n'\nb") =
    .ok [⟨.string, ascii "\n", 1, 1⟩, ⟨.identifier, ascii "b", 2, 1⟩, ⟨.end_, [], 2, 2⟩] := by
  decide +kernel

end Heads

end MiniSql
