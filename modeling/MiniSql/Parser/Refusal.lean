import MiniSql.Parser.Memory

set_option autoImplicit false

/-!
# A refused request

A request the parser looks at ends the call; the one it does not look at leaves its
hole.  So a script is built that is not the script of the source exactly when the copy
of some WHERE column is refused and nothing else is.
-/

namespace MiniSql

open Foundation

/-- The request whose answer is not looked at. -/
def Unlooked (site : Request) : Prop := site = .whereColumn

/-! ## The tokenizer -/

section Tokens

open Alloc

theorem tokenListAppend_checked (s : LexState) (capacity : Nat) (type : TokenType)
    (lexeme : Bytes) : Checked Unlooked (tokenListAppend s capacity type lexeme) := by
  refine (Checked.reserve (by simp [Unlooked]) _ _ _ _).bind fun capacity => ?_
  exact (Checked.demand (by simp [Unlooked]) _).bind fun _ => .done _

theorem readStringLoopAlloc_checked (input buffer : Bytes) (capacity column : Nat) :
    Checked Unlooked (readStringLoopAlloc input buffer capacity column) := by
  have hbyte : ∀ buffer capacity, Checked Unlooked (reserveByte buffer capacity) :=
    fun _ _ => .reserve (by simp [Unlooked]) _ _ _ _
  fun_induction readStringLoopAlloc input buffer capacity column with
  | case1 => exact .done _
  | case2 => exact .done _
  | case3 buffer capacity column tail ih => exact (hbyte buffer capacity).bind ih
  | case4 => exact .done _
  | case5 ch tail buffer capacity column hch ih => exact (hbyte buffer capacity).bind ih

theorem readStringTokenAlloc_checked (s : LexState) (capacity : Nat) (tail : Bytes) :
    Checked Unlooked (readStringTokenAlloc s capacity tail) := by
  refine (readStringLoopAlloc_checked tail [] 0 s.column).bind fun r => ?_
  obtain ⟨literal, bufferCapacity⟩ := r
  cases literal with
  | none => exact .fail _
  | some literal =>
      refine (Checked.reserve (by simp [Unlooked]) _ _ _ _).bind fun _ => ?_
      exact (Checked.reserve (by simp [Unlooked]) _ _ _ _).bind fun _ => .done _

theorem tokenizeStepAlloc_checked (s : LexState) (capacity : Nat) (ch : Byte) (tail : Bytes) :
    Checked Unlooked (tokenizeStepAlloc s capacity ch tail) := by
  unfold tokenizeStepAlloc
  split_ifs
  · exact .done _
  · exact .done _
  · exact .done _
  · cases skipBlockComment tail.tail s.line (s.column + 2) with
    | none => exact .fail _
    | some r => exact .done _
  · exact (tokenListAppend_checked s capacity _ _).bind fun _ => .done _
  · exact (tokenListAppend_checked s capacity _ _).bind fun _ => .done _
  · exact readStringTokenAlloc_checked s capacity tail
  · cases simpleTokenType ch with
    | none => exact .fail _
    | some type => exact (tokenListAppend_checked s capacity _ _).bind fun _ => .done _

theorem tokenizeLoopAlloc_checked (iterations : Nat) (s : LexState) (capacity : Nat) :
    Checked Unlooked (tokenizeLoopAlloc iterations s capacity) := by
  induction iterations generalizing s capacity with
  | zero => exact .done _
  | succ iterations ih =>
      unfold tokenizeLoopAlloc
      split
      · exact .done _
      · exact (tokenizeStepAlloc_checked s capacity _ _).bind fun r => ih r.1 r.2

theorem tokenizeSqlAlloc_checked (source : Bytes) :
    Checked Unlooked (tokenizeSqlAlloc source) := by
  refine (tokenizeLoopAlloc_checked source.length (.start source) 0).bind fun r => ?_
  exact (tokenListAppend_checked r.1 r.2 .end_ []).bind fun _ => .done _

end Tokens

/-! ## The parser -/

section Parts

open Alloc

variable {α β : Type}

/-- No request of the part goes unlooked at. -/
def ParseChecked (p : AllocParse α) : Prop := ∀ tokens, Checked Unlooked (p tokens)

/-- The part reads the same tokens whatever is refused, and has a hole in its value
exactly when a request that is not looked at was refused. -/
def ParseHoled (p : AllocParse α) : Prop := ∀ tokens,
  Shadow Unlooked (fun holed y x => (holed = true ↔ y.1 ≠ x.1) ∧ y.2 = x.2) false
    (p tokens) (p tokens)

theorem ParseChecked.pure (x : α) : ParseChecked (Pure.pure x) := fun _ => .done _

theorem ParseChecked.plain (p : Parse α) : ParseChecked (MiniSql.plain p) := by
  intro tokens
  unfold MiniSql.plain
  cases p tokens with
  | error e => exact .fail _
  | ok r => exact .done r

theorem ParseChecked.bind {p : AllocParse α} {k : α → AllocParse β} (hp : ParseChecked p)
    (hk : ∀ x, ParseChecked (k x)) : ParseChecked (p >>= k) :=
  fun tokens => (hp tokens).bind fun r => hk r.1 r.2

theorem ParseChecked.requests {c : Allocating α} (hc : Checked Unlooked c) :
    ParseChecked (MiniSql.requests c) :=
  fun _ => hc.bind fun _ => .done _

theorem ParseChecked.choice (b : Bool) {p q : AllocParse α} (hp : ParseChecked p)
    (hq : ParseChecked q) : ParseChecked (if b then p else q) := by
  cases b with
  | false => exact hq
  | true => exact hp

theorem ParseChecked.holed {p : AllocParse α} (hp : ParseChecked p) : ParseHoled p := by
  refine fun tokens => (hp tokens false).mono ?_
  rintro _ y _ ⟨rfl, rfl⟩
  exact ⟨by simp, rfl⟩

/-- A part without such a request in front. -/
theorem ParseChecked.andThen {p : AllocParse α} {k : α → AllocParse β} (hp : ParseChecked p)
    (hk : ∀ x, ParseHoled (k x)) : ParseHoled (p >>= k) :=
  fun tokens => (hp tokens).bindShadow fun r => hk r.1 r.2

theorem ParseHoled.choice (b : Bool) {p q : AllocParse α} (hp : ParseHoled p)
    (hq : ParseHoled q) : ParseHoled (if b then p else q) := by
  cases b with
  | false => exact hq
  | true => exact hp

/-- What is made of a value has a hole where the value has one. -/
theorem ParseHoled.map {p : AllocParse α} {f : α → β} (hp : ParseHoled p)
    (hf : ∀ y x, f y = f x → y = x) : ParseHoled (p >>= fun x => Pure.pure (f x)) := by
  refine fun tokens => (hp tokens).bind ?_
  rintro holed y x ⟨hholed, hrest⟩
  refine .done ⟨hholed.trans ⟨fun hne heq => hne (hf _ _ heq), ?_⟩, hrest⟩
  exact fun hne heq => hne (congrArg f heq)

theorem parseListAlloc_checked (item : Token → Option Bytes) (message task : String)
    (tokens : List Token) (list : List Bytes) (capacity : Nat) :
    Checked Unlooked (parseListAlloc item message task tokens list capacity) := by
  have happend := @stringListAppend_checked Unlooked (by simp [Unlooked]) (by simp [Unlooked])
    (.outOfMemory task)
  induction tokens using sepBy1.induct item (fun t : Token => t.type == .comma)
    (fun t => (t.getD pastEnd).fault message) generalizing list capacity with
  | case1 => exact .fail _
  | case2 t rest hitem =>
      simp only [parseListAlloc, hitem]
      exact .fail _
  | case3 t x hitem =>
      simp only [parseListAlloc, hitem]
      exact (happend list capacity x).bind fun _ => .done _
  | case4 t x hitem s rest' hsep e he ih =>
      simp only [parseListAlloc, hitem, hsep, if_true]
      exact (happend list capacity x).bind fun r => ih r.1 r.2
  | case5 t x hitem s rest' hsep xs rest'' hxs ih =>
      simp only [parseListAlloc, hitem, hsep, if_true]
      exact (happend list capacity x).bind fun r => ih r.1 r.2
  | case6 t x hitem s rest' hsep =>
      simp only [parseListAlloc, hitem, hsep]
      exact (happend list capacity x).bind fun _ => .done _

theorem parseQualifiedNameAlloc_checked : ParseChecked parseQualifiedNameAlloc := by
  refine (ParseChecked.plain _).bind fun first => (ParseChecked.plain _).bind fun dot => ?_
  refine .choice dot ((ParseChecked.plain _).bind fun second => ?_) ?_
  · exact (ParseChecked.requests (.demandBoth (by simp [Unlooked]) (by simp [Unlooked]) _)).bind
      fun _ => .pure _
  · exact (ParseChecked.requests (.demand (by simp [Unlooked]) _)).bind fun _ => .pure _

theorem parseInsertAlloc_checked : ParseChecked parseInsertAlloc := by
  refine (ParseChecked.plain _).bind fun _ => parseQualifiedNameAlloc_checked.bind fun target => ?_
  refine (ParseChecked.plain _).bind fun _ => ?_
  refine ParseChecked.bind (fun tokens => parseListAlloc_checked _ _ _ tokens [] 0)
    fun columns => ?_
  refine (ParseChecked.plain _).bind fun _ => (ParseChecked.plain _).bind fun _ => ?_
  refine (ParseChecked.plain _).bind fun _ => ?_
  refine ParseChecked.bind (fun tokens => parseListAlloc_checked _ _ _ tokens [] 0)
    fun values => ?_
  exact (ParseChecked.plain _).bind fun _ => .pure _

/-- The rest of a WHERE clause is read alike with the column and without. -/
theorem parseWhereAlloc_holed : ParseHoled parseWhereAlloc := by
  refine (ParseChecked.plain _).andThen fun present => .choice present ?_ ?_
  · refine (ParseChecked.plain _).andThen fun column => ?_
    have hrest : ∀ (copied : Bool) (tokens : List Token),
        Shadow Unlooked (fun holed y x => (holed = true ↔ y.1 ≠ x.1) ∧ y.2 = x.2) (!copied)
          ((do
            plain (consume .equal "expected '=' inside WHERE clause")
            let value ← plain (takeToken valueLexeme "expected literal after '='")
            requests (Alloc.demand .whereValue (.outOfMemory "parsing WHERE clause"))
            pure (some ⟨if copied then some column else none, value⟩) :
              AllocParse (Option BuiltWhere)) tokens)
          ((do
            plain (consume .equal "expected '=' inside WHERE clause")
            let value ← plain (takeToken valueLexeme "expected literal after '='")
            requests (Alloc.demand .whereValue (.outOfMemory "parsing WHERE clause"))
            pure (some ⟨some column, value⟩) : AllocParse (Option BuiltWhere)) tokens) := by
      intro copied tokens
      refine (ParseChecked.plain _ tokens).bindShadow fun r => ?_
      refine (ParseChecked.plain _ r.2).bindShadow fun r => ?_
      refine (ParseChecked.requests (.demand (by simp [Unlooked]) _) r.2).bindShadow fun _ => ?_
      exact .done ⟨by cases copied <;> simp, rfl⟩
    exact fun tokens => .loose rfl (hrest false tokens) (hrest true tokens)
  · exact (ParseChecked.pure none).holed

theorem parseSelectAlloc_holed : ParseHoled parseSelectAlloc := by
  have hlist : ParseChecked parseSelectListAlloc := by
    refine (ParseChecked.plain _).bind fun all => .choice all (.pure _) ?_
    exact ParseChecked.bind (fun tokens => parseListAlloc_checked _ _ _ tokens [] 0)
      fun _ => .pure _
  refine hlist.andThen fun list => (ParseChecked.plain _).andThen fun _ => ?_
  refine parseQualifiedNameAlloc_checked.andThen fun source => parseWhereAlloc_holed.map ?_
  simp

theorem parseStatementAlloc_holed : ParseHoled parseStatementAlloc := by
  refine (ParseChecked.plain _).andThen fun insert => .choice insert ?_ ?_
  · exact (parseInsertAlloc_checked.bind fun _ => .pure _).holed
  · refine (ParseChecked.plain _).andThen fun select => .choice select ?_ ?_
    · exact parseSelectAlloc_holed.map (by simp)
    · exact (ParseChecked.plain _).holed

/-- Two scripts of one length grow alike. -/
theorem scriptAppend_alike {script script' : List BuiltStatement} (capacity : Nat)
    (y x : BuiltStatement) (holed : Bool) (hlength : script.length = script'.length) :
    Shadow Unlooked (fun holed' r r' => holed' = holed ∧ r.1 = script ++ [y] ∧
        r'.1 = script' ++ [x] ∧ r.2 = r'.2) holed
      (scriptAppend script capacity y) (scriptAppend script' capacity x) := by
  unfold scriptAppend
  rw [hlength]
  refine Checked.bindShadow (.reserve ?_ _ _ _ _) fun _ => .done ⟨rfl, rfl, rfl, rfl⟩
  simp [Unlooked]

/-- The loop over a script with a hole and the loop over the script without. -/
theorem parseScriptLoopAlloc_holed (iterations : Nat) (tokens : List Token)
    (script script' : List BuiltStatement) (capacity : Nat) (holed : Bool)
    (hlength : script.length = script'.length) (hholed : holed = true ↔ script ≠ script') :
    Shadow Unlooked (fun holed y x => holed = true ↔ y ≠ x) holed
      (parseScriptLoopAlloc iterations tokens script capacity)
      (parseScriptLoopAlloc iterations tokens script' capacity) := by
  induction iterations generalizing tokens script script' capacity holed with
  | zero => exact .done hholed
  | succ iterations ih =>
      unfold parseScriptLoopAlloc
      split_ifs
      · exact .done hholed
      · exact ih _ _ _ _ _ hlength hholed
      · have hstmt := (parseStatementAlloc_holed tokens).frame holed
        rw [Bool.or_false] at hstmt
        refine hstmt.bind ?_
        rintro holed' ⟨y, rest⟩ ⟨x, rest'⟩ ⟨own, rfl, hown, rfl⟩
        refine (scriptAppend_alike capacity y x _ hlength).bind ?_
        rintro _ ⟨_, capacity'⟩ ⟨_, _⟩ ⟨rfl, rfl, rfl, rfl⟩
        refine ih _ _ _ _ _ ?_ ?_
        · rw [List.length_append, List.length_append, hlength]
          rfl
        have hconcat : script ++ [y] = script' ++ [x] ↔ script = script' ∧ y = x := by
          constructor
          · intro heq
            obtain ⟨hscript, hlast⟩ := List.append_inj heq hlength
            exact ⟨hscript, by simpa using hlast⟩
          · rintro ⟨rfl, rfl⟩
            rfl
        rw [Bool.or_eq_true, hholed, hown, Ne, Ne, Ne, hconcat, not_and_or]

theorem parseSqlScriptAlloc_holed (source : Bytes) :
    Shadow Unlooked (fun holed y x => holed = true ↔ y ≠ x) false
      (parseSqlScriptAlloc source) (parseSqlScriptAlloc source) := by
  refine (tokenizeSqlAlloc_checked source).bindShadow fun tokens => ?_
  exact parseScriptLoopAlloc_holed _ tokens [] [] 0 false rfl (by simp)

end Parts

/-! ## The script under a pattern -/

/-- The requests `parse_sql_script` makes on a source when each one is granted. -/
def parseRequests (source : Bytes) : List Request := (parseSqlScriptAlloc source).sites

/-- An answer of false and an empty script, or an answer of true and the script that is
built when nothing is refused. -/
def ParsesFaithfully (pattern : Nat → Bool) (source : Bytes) : Prop :=
  let outcome := parseSqlScriptUnder pattern source
  ((∃ e, outcome.result = .error e) ∧ outcome.script = []) ∨
    (outcome.result = .ok () ∧ (parseSqlScript source).result = .ok () ∧
      outcome.script = (parseSqlScript source).script.map Statement.built)

/-- Parsing is faithful unless the copy of a WHERE column is refused, every other request
is granted and the source is one the parser accepts. -/
theorem parseSqlScriptUnder_faithful_iff (source : Bytes) (pattern : Nat → Bool) :
    ParsesFaithfully pattern source ↔
      (parseSqlScript source).result ≠ .ok () ∨
        Alloc.Refuses (· ≠ .whereColumn) pattern (parseRequests source) ∨
        ¬ Alloc.Refuses (· = .whereColumn) pattern (parseRequests source) := by
  obtain ⟨hfails, hanswers⟩ := (parseSqlScriptAlloc_holed source).run pattern
  have hgranted : (parseSqlScriptAlloc source).granted = _ :=
    (parseSqlScriptAlloc_grants source).granted_eq
  rw [ParseOutcome.answer] at hgranted
  unfold ParsesFaithfully parseSqlScriptUnder
  by_cases hrefused : Alloc.Refuses (· ≠ .whereColumn) pattern (parseRequests source)
  · obtain ⟨e, hrun⟩ := hfails hrefused
    rw [hrun]
    exact ⟨fun _ => .inr (.inl hrefused), fun _ => .inl ⟨⟨e, rfl⟩, rfl⟩⟩
  · cases hresult : (parseSqlScript source).result with
    | error e =>
        rw [hresult] at hgranted
        rcases hanswers hrefused with ⟨e', -, hrun⟩ | ⟨_, _, x, hok, -⟩
        · rw [hrun]
          exact ⟨fun _ => .inl (by simp), fun _ => .inl ⟨⟨e', rfl⟩, rfl⟩⟩
        · rw [hgranted] at hok
          simp [Except.map, Except.mapError] at hok
    | ok =>
        rw [hresult] at hgranted
        rcases hanswers hrefused with ⟨e', herror, -⟩ | ⟨holed, y, x, hok, hrun, hyx, hholed⟩
        · rw [hgranted] at herror
          simp [Except.map, Except.mapError] at herror
        · obtain rfl : (parseSqlScript source).script.map Statement.built = x := by
            rw [hgranted] at hok
            exact Except.ok.inj hok
          have hloose : holed = true ↔
              Alloc.Refuses (· = .whereColumn) pattern (parseRequests source) :=
            hholed.trans ⟨fun h => h.resolve_left Bool.false_ne_true, .inr⟩
          have hsame : y = (parseSqlScript source).script.map Statement.built ↔
              ¬ Alloc.Refuses (· = .whereColumn) pattern (parseRequests source) := by
            rw [← hloose, hyx, Ne, not_not]
          rw [hrun, ← hsame]
          constructor
          · intro h
            rcases h with ⟨⟨e, he⟩, -⟩ | ⟨-, -, hscript⟩
            · exact absurd he (by simp)
            · exact .inr (.inr hscript)
          · intro h
            rcases h with hne | hother | hscript
            · exact absurd rfl hne
            · exact absurd hother hrefused
            · exact .inr ⟨rfl, rfl, hscript⟩

/-- Only the copy of the column is refused, and the statement is accepted without it. -/
theorem parseSqlScriptUnder_hole :
    let source := ascii "SELECT * FROM t WHERE a = 'b'"
    let pattern := fun n : Nat => n != 11
    (parseRequests source)[11]? = some .whereColumn ∧
      (parseSqlScriptUnder pattern source).result = .ok () ∧
      (parseSqlScriptUnder pattern source).script =
        [.select ⟨⟨none, some (ascii "t")⟩, true, [], some ⟨none, ascii "b"⟩⟩] ∧
      ¬ ParsesFaithfully pattern source := by
  intro source pattern
  have hrun : (parseSqlScriptAlloc source).run pattern =
      .ok [.select ⟨⟨none, some (ascii "t")⟩, true, [], some ⟨none, ascii "b"⟩⟩] := by
    decide +kernel
  have hscript : (parseSqlScript source).script =
      [.select ⟨⟨none, some (ascii "t")⟩, true, [], some ⟨ascii "a", ascii "b"⟩⟩] := by
    decide +kernel
  unfold ParsesFaithfully parseSqlScriptUnder
  rw [hrun, hscript]
  exact ⟨by decide +kernel, rfl, rfl, by simp [Statement.built, SelectStatement.built,
    WhereClause.built]⟩

end MiniSql
