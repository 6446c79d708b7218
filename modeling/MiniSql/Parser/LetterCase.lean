import MiniSql.Parser.Carry

set_option autoImplicit false

/-!
# Letter case in a script

Two token lists agree up to letter case when they have the same types and the
same lexemes but for the letter case of reserved words and of identifiers in
column positions.  Scripts that agree so hold the same statements but for the
letter case of column names.
-/

namespace MiniSql

open Foundation

/-- Tokens that differ at most in letter case, and only where it does not matter. -/
def TokenAgree (r : Region) (t t' : Token) : Prop :=
  t'.type = t.type ∧
    if t.type.isReserved ∨ (t.type = .identifier ∧ r = .columns) then
      foldCase t.lexeme = foldCase t'.lexeme
    else t.lexeme = t'.lexeme

/-- Token lists that agree up to letter case, from a region on. -/
abbrev CaseAgree : Region → List Token → List Token → Prop := Agree Region.next TokenAgree

/-- A column name in another letter case. -/
abbrev SameName (name name' : Bytes) : Prop := foldCase name = foldCase name'

/-- Statements that differ only in the letter case of column names. -/
inductive SameStatement : Statement → Statement → Prop
  | insert {target : QualifiedName} {columns columns' values : List Bytes}
      (hcolumns : List.Forall₂ SameName columns columns') :
      SameStatement (.insert ⟨target, columns, values⟩) (.insert ⟨target, columns', values⟩)
  | select {source : QualifiedName} {selectAll : Bool} {columns columns' : List Bytes}
      {where_ where_' : Option WhereClause}
      (hcolumns : List.Forall₂ SameName columns columns')
      (hwhere : Option.Rel (fun c c' => SameName c.column c'.column ∧ c.value = c'.value)
        where_ where_') :
      SameStatement (.select ⟨source, selectAll, columns, where_⟩)
        (.select ⟨source, selectAll, columns', where_'⟩)

/-- Scripts that agree up to letter case hold the same statements, one for one. -/
theorem Script.sameStatements {r : Region} {body body' : List Token}
    {pieces : List (List Token × Statement)} (h : Script body pieces)
    (hagree : CaseAgree r body body') :
    ∃ pieces', Script body' pieces' ∧
      List.Forall₂ SameStatement (pieces.map Prod.snd) (pieces'.map Prod.snd) := by
  have hlexemes : Agree Region.next (LexemeAgree SameName) r body body' := hagree
  obtain ⟨pieces', hscript, hsame⟩ := h.carried hlexemes
  refine ⟨pieces', hscript, hsame.imp ?_⟩
  intro statement statement' hstatement
  cases hstatement with
  | insert hcolumns => exact .insert hcolumns
  | select hcolumns hwhere => exact .select hcolumns hwhere

/-! ## Sources -/

/-- Two sources whose tokens agree up to letter case parse alike. -/
theorem parseSqlScript_sameStatements {source source' : Bytes} {tokens tokens' : List Token}
    (htokens : tokenizeSql source = .ok tokens) (htokens' : tokenizeSql source' = .ok tokens')
    (hagree : CaseAgree .other tokens tokens')
    (hok : (parseSqlScript source).result = .ok ()) :
    (parseSqlScript source').result = .ok () ∧
      List.Forall₂ SameStatement (parseSqlScript source).script
        (parseSqlScript source').script := by
  obtain ⟨body, endToken, rfl, hend, hlexes⟩ := tokenizeSql_eq_ok htokens
  have hendType : endToken.type = .end_ := congrArg Prod.fst hend
  obtain ⟨body', last, rfl, hbody, hlast⟩ := hagree.append_left
  cases hlast with
  | @cons _ _ endToken' _ _ htoken hnil =>
      cases hnil
      have hendType' : endToken'.type = .end_ := htoken.1.trans hendType
      unfold parseSqlScript at hok ⊢
      simp only [htokens, htokens'] at hok ⊢
      obtain ⟨pieces, hpieces, hscript⟩ :=
        parseScriptLoop_sound hendType _ [] body rfl hlexes.ne_end hok
      obtain ⟨pieces', hpieces', hsame⟩ := hpieces.sameStatements hbody
      have hscript' : parseTokens (body' ++ [endToken']) = ⟨.ok (), pieces'.map Prod.snd⟩ :=
        parseScriptLoop_complete hendType' hpieces' []
      rw [hscript']
      refine ⟨rfl, ?_⟩
      rw [parseTokens, hscript]
      exact hsame

end MiniSql
