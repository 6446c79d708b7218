import Mathlib.Logic.Function.Basic
import MiniSql.Foundation.Interleave
import MiniSql.Foundation.Simulation

set_option autoImplicit false

/-!
# Foundation: parties that run their commands side by side

Each party has a list of commands of its own, and all work on one shared state.  In small
steps a command takes a while, and the steps of the others come in between.  As a whole a
command takes effect at once.  `Linearizes` is the rely-guarantee argument that leads from
the one to the other: whatever the small steps do in whatever order, the parties could
have run whole commands in some order (`Linearizes.run`).  The state the whole commands
share need not be that of the small steps, if only the two go together.
-/

namespace MiniSql.Foundation

variable {π ι σ τ ε δ ω υ P : Type} [DecidableEq π]

/-- The commands a party has still to run, and what it has answered so far. -/
structure Progress (ι ε ω : Type) where
  todo : List ι
  outputs : List ω
  fault : Option ε

/-- A party that has not begun. -/
def Progress.start (items : List ι) : Progress ι ε ω := ⟨items, [], none⟩

/-- A party runs its next command as a whole; behind a fault it runs none. -/
def Progress.next (step : Command ι σ ε ω) (p : Progress ι ε ω) (s : σ) :
    Progress ι ε ω × σ :=
  match p.fault, p.todo with
  | none, i :: rest =>
      match step i s with
      | (.error e, s') => ({ p with fault := some e }, s')
      | (.ok w, s') => ({ p with todo := rest, outputs := p.outputs ++ [w] }, s')
  | _, _ => (p, s)

/-- Whole commands, one after the other: the order says whose turn it is. -/
def interleave (step : Command ι σ ε ω) :
    List π → (π → Progress ι ε ω) × σ → (π → Progress ι ε ω) × σ
  | [], world => world
  | i :: order, (parties, s) =>
      interleave step order
        (Function.update parties i ((parties i).next step s).1, ((parties i).next step s).2)

section Next

variable {step : Command ι σ ε ω} {p : Progress ι ε ω} {s s' : σ} {i : ι} {rest : List ι}

theorem Progress.next_ok {w : ω} (hfault : p.fault = none) (htodo : p.todo = i :: rest)
    (h : step i s = (.ok w, s')) :
    p.next step s = (⟨rest, p.outputs ++ [w], none⟩, s') := by
  obtain ⟨todo, outputs, fault⟩ := p
  subst hfault htodo
  simp only [next, h]

theorem Progress.next_error {e : ε} (hfault : p.fault = none) (htodo : p.todo = i :: rest)
    (h : step i s = (.error e, s')) :
    p.next step s = (⟨i :: rest, p.outputs, some e⟩, s') := by
  obtain ⟨todo, outputs, fault⟩ := p
  subst hfault htodo
  simp only [next, h]

/-- What is left to run was there before. -/
theorem Progress.mem_todo_next (h : i ∈ (p.next step s).1.todo) : i ∈ p.todo := by
  obtain ⟨todo, outputs, fault⟩ := p
  cases fault with
  | some e => exact h
  | none =>
      cases todo with
      | nil => exact h
      | cons j rest =>
          cases hstep : step j s with
          | mk answer s' =>
              cases answer with
              | error e =>
                  rw [next_error rfl rfl hstep] at h
                  exact h
              | ok w =>
                  rw [next_ok rfl rfl hstep] at h
                  exact List.mem_cons_of_mem j h

theorem interleave_append (order order' : List π) (world : (π → Progress ι ε ω) × σ) :
    interleave step (order ++ order') world =
      interleave step order' (interleave step order world) := by
  induction order generalizing world with
  | nil => rfl
  | cons i order ih => exact ih _

end Next

/-! ## Small steps -/

/-- The parties and the state they share. -/
structure World (π P σ : Type) where
  parties : π → P
  shared : σ

/-- A small step of one party. -/
def WorldStep (small : P → σ → P → σ → Prop) (w : World π P σ) (i : π) (w' : World π P σ) :
    Prop :=
  ∃ p s, small (w.parties i) w.shared p s ∧ w' = ⟨Function.update w.parties i p, s⟩

/-- What the parties have done is what whole commands have done, whatever they are in the
middle of. -/
structure World.Shows (progress : P → Progress ι ε ω) (Same : σ → τ → Prop) (w : World π P σ)
    (whole : (π → Progress ι ε ω) × τ) : Prop where
  progress : whole.1 = fun i => progress (w.parties i)
  shared : Same w.shared whole.2

/-- A small step shows nothing, or it is where the next command takes effect as a whole.
`I` is what a party knows of the shared state, `G` what a step does to it at most, and `Same`
how it stands to the state that the whole commands share. -/
structure Linearizes (small : P → σ → P → σ → Prop) (step : Command ι τ ε ω)
    (progress : P → Progress ι ε ω) (I : σ → P → Prop) (G : σ → σ → Prop)
    (Same : σ → τ → Prop) : Prop where
  effect : ∀ {p s p' s' t}, I s p → Same s t → small p s p' s' →
    (progress p' = progress p ∧ Same s' t) ∨
      (progress p' = ((progress p).next step t).1 ∧ Same s' ((progress p).next step t).2)
  knows : ∀ {p s p' s'}, I s p → small p s p' s' → I s' p'
  guarantees : ∀ {p s p' s'}, I s p → small p s p' s' → G s s'
  stable : ∀ {s s' p}, G s s' → I s p → I s' p

namespace Linearizes

variable {small : P → σ → P → σ → Prop} {step : Command ι τ ε ω}
  {progress : P → Progress ι ε ω} {I : σ → P → Prop} {G : σ → σ → Prop} {Same : σ → τ → Prop}
  {whole : (π → Progress ι ε ω) × τ}

/-- A step keeps what every party knows, and is at most one whole command. -/
theorem worldStep (h : Linearizes small step progress I G Same) {w w' : World π P σ} {i : π}
    (hknows : ∀ j, I w.shared (w.parties j)) (hshows : w.Shows progress Same whole)
    (hstep : WorldStep small w i w') :
    (∀ j, I w'.shared (w'.parties j)) ∧
      ∃ order : List π, order.Sublist [i] ∧
        w'.Shows progress Same (interleave step order whole) := by
  obtain ⟨p, s, hsmall, rfl⟩ := hstep
  obtain ⟨parties, t⟩ := whole
  obtain ⟨hparties, hsame⟩ := hshows
  obtain rfl : parties = fun j => progress (w.parties j) := hparties
  have hguarantee := h.guarantees (hknows i) hsmall
  constructor
  · intro j
    by_cases hj : j = i
    · subst hj
      simpa using h.knows (hknows j) hsmall
    · simpa [hj] using h.stable hguarantee (hknows j)
  · have hupdate : (fun j => progress (Function.update w.parties i p j)) =
        Function.update (fun j => progress (w.parties j)) i (progress p) := by
      funext j
      by_cases hj : j = i
      · subst hj
        simp
      · simp [hj]
    rcases h.effect (hknows i) hsame hsmall with ⟨hprogress, hsame'⟩ | ⟨hprogress, hsame'⟩
    · refine ⟨[], List.nil_sublist _, ?_, hsame'⟩
      rw [hupdate, hprogress, Function.update_eq_self]
      rfl
    · refine ⟨[i], List.Sublist.refl _, ?_, hsame'⟩
      rw [hupdate, hprogress]
      rfl

/-- Whatever the small steps of the parties do, in whatever order, whole commands do in
some order; each command takes effect at one of its own party's steps. -/
theorem run (h : Linearizes small step progress I G Same) {w w' : World π P σ}
    {events : List (Event (World π P σ) π)} (hknows : ∀ j, I w.shared (w.parties j))
    (hshows : w.Shows progress Same whole) (hrun : Run (WorldStep small) w events w') :
    ∃ order : List π, order.Sublist (events.map Event.label) ∧
      w'.Shows progress Same (interleave step order whole) := by
  induction hrun generalizing whole with
  | done => exact ⟨[], List.nil_sublist _, hshows⟩
  | step hstep _ ih =>
      obtain ⟨hknows', first, hfirst, hshows'⟩ := h.worldStep hknows hshows hstep
      obtain ⟨order, horder, hrest⟩ := ih hknows' hshows'
      refine ⟨first ++ order, hfirst.append horder, ?_⟩
      rw [interleave_append]
      exact hrest

end Linearizes

/-! ## Two systems side by side -/

section Mirrors

variable {R : σ → τ → Prop} {Q : ω → υ → Prop} {step : Command ι σ ε ω}
  {step' : Command ι τ δ υ}

/-- Two parties with the same commands left, whose answers are related. -/
structure MirrorsProgress (Q : ω → υ → Prop) (p : Progress ι ε ω) (q : Progress ι δ υ) :
    Prop where
  todo : p.todo = q.todo
  outputs : List.Forall₂ Q p.outputs q.outputs
  fault : p.fault.isSome = q.fault.isSome

theorem MirrorsProgress.start (Q : ω → υ → Prop) (items : List ι) :
    MirrorsProgress Q (.start items : Progress ι ε ω) (.start items : Progress ι δ υ) :=
  ⟨rfl, .nil, rfl⟩

theorem MirrorsProgress.next {p : Progress ι ε ω} {q : Progress ι δ υ} {s : σ} {t : τ}
    (h : MirrorsProgress Q p q)
    (hstep : ∀ i ∈ p.todo, ∀ s t, R s t → Mirrors R Q (step i s) (step' i t)) (hR : R s t) :
    MirrorsProgress Q (p.next step s).1 (q.next step' t).1 ∧
      R (p.next step s).2 (q.next step' t).2 := by
  obtain ⟨todo, outputs, fault⟩ := p
  obtain ⟨todo', outputs', fault'⟩ := q
  obtain ⟨htodo, houtputs, hfault⟩ := h
  simp only at htodo houtputs hfault hstep
  subst htodo
  cases fault with
  | some e =>
      cases fault' with
      | none => simp at hfault
      | some d => exact ⟨⟨rfl, houtputs, rfl⟩, hR⟩
  | none =>
      cases fault' with
      | some d => simp at hfault
      | none =>
          cases todo with
          | nil => exact ⟨⟨rfl, houtputs, rfl⟩, hR⟩
          | cons i rest =>
              have hmirrors := hstep i List.mem_cons_self s t hR
              cases hs : step i s with
              | mk answer s' =>
                  cases ht : step' i t with
                  | mk answer' t' =>
                      rw [hs, ht] at hmirrors
                      cases answer with
                      | error e =>
                          cases answer' with
                          | error d =>
                              rw [Progress.next_error rfl rfl hs, Progress.next_error rfl rfl ht]
                              exact ⟨⟨rfl, houtputs, rfl⟩, hmirrors⟩
                          | ok u => exact hmirrors.elim
                      | ok w =>
                          cases answer' with
                          | error d => exact hmirrors.elim
                          | ok u =>
                              rw [Progress.next_ok rfl rfl hs, Progress.next_ok rfl rfl ht]
                              refine ⟨⟨rfl, ?_, rfl⟩, hmirrors.2⟩
                              exact List.rel_append houtputs (.cons hmirrors.1 .nil)

/-- Commands that are simulated are simulated in every order. -/
theorem interleave_mirrors (order : List π) {parties : π → Progress ι ε ω}
    {parties' : π → Progress ι δ υ} {s : σ} {t : τ}
    (hstep : ∀ j, ∀ i ∈ (parties j).todo, ∀ s t, R s t → Mirrors R Q (step i s) (step' i t))
    (hparties : ∀ j, MirrorsProgress Q (parties j) (parties' j)) (hR : R s t) :
    (∀ j, MirrorsProgress Q ((interleave step order (parties, s)).1 j)
        ((interleave step' order (parties', t)).1 j)) ∧
      R (interleave step order (parties, s)).2 (interleave step' order (parties', t)).2 := by
  induction order generalizing parties parties' s t with
  | nil => exact ⟨hparties, hR⟩
  | cons k order ih =>
      obtain ⟨hprogress, hnext⟩ := (hparties k).next (hstep k) hR
      simp only [interleave]
      refine ih ?_ ?_ hnext
      · intro j i hi
        by_cases hj : j = k
        · subst hj
          rw [Function.update_self] at hi
          exact hstep j i (Progress.mem_todo_next hi)
        · rw [Function.update_of_ne hj] at hi
          exact hstep j i hi
      · intro j
        by_cases hj : j = k
        · subst hj
          simpa using hprogress
        · simpa [hj] using hparties j

end Mirrors

end MiniSql.Foundation
