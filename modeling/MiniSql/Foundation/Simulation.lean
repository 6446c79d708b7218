import MiniSql.Foundation.Runner

set_option autoImplicit false

/-!
# Foundation: one command system that simulates another

The two have states of their own.  `R` relates the states, and `Q` the answers; faults
need not be the same.  What is proved of one command is lifted to a run.
-/

namespace MiniSql.Foundation

variable {ι σ τ ε δ ω υ : Type}

section Outcomes

variable (R : σ → τ → Prop) (Q : ω → υ → Prop)

/-- Both commands answer, or both fault, and the states are related again. -/
def Mirrors : Except ε ω × σ → Except δ υ × τ → Prop
  | (.ok w, s), (.ok u, t) => Q w u ∧ R s t
  | (.error _, s), (.error _, t) => R s t
  | _, _ => False

/-- The traces of two runs: the answers are related one by one, and both runs stop at a
fault or neither does. -/
structure MirrorsTrace (trace : Trace σ ε ω) (trace' : Trace τ δ υ) : Prop where
  state : R trace.state trace'.state
  outputs : List.Forall₂ Q trace.outputs trace'.outputs
  fault : trace.fault.isSome = trace'.fault.isSome

end Outcomes

variable {R : σ → τ → Prop} {Q : ω → υ → Prop} {step : Command ι σ ε ω}
  {step' : Command ι τ δ υ}

/-- A run of commands that are simulated is simulated. -/
theorem runAll_mirrors {items : List ι}
    (hstep : ∀ i ∈ items, ∀ s t, R s t → Mirrors R Q (step i s) (step' i t)) {s : σ} {t : τ}
    (h : R s t) : MirrorsTrace R Q (runAll step items s) (runAll step' items t) := by
  induction items generalizing s t with
  | nil => exact ⟨h, .nil, rfl⟩
  | cons i rest ih =>
      obtain ⟨hi, hrest⟩ := List.forall_mem_cons.mp hstep
      have hmirrors := hi s t h
      cases hs : step i s with
      | mk answer s' =>
          cases ht : step' i t with
          | mk answer' t' =>
              rw [hs, ht] at hmirrors
              cases answer with
              | error e =>
                  cases answer' with
                  | error d =>
                      rw [runAll_cons_error hs, runAll_cons_error ht]
                      exact ⟨hmirrors, .nil, rfl⟩
                  | ok u => exact hmirrors.elim
              | ok w =>
                  cases answer' with
                  | error d => exact hmirrors.elim
                  | ok u =>
                      have htail := ih hrest hmirrors.2
                      rw [runAll_cons_ok hs, runAll_cons_ok ht]
                      exact ⟨htail.state, .cons hmirrors.1 htail.outputs, htail.fault⟩

/-- States that no command tells apart make the same runs. -/
theorem runAll_congr {R : σ → σ → Prop} {items : List ι}
    (hstep : ∀ i ∈ items, ∀ s t, R s t →
      (step i s).1 = (step i t).1 ∧ R (step i s).2 (step i t).2) {s t : σ} (h : R s t) :
    (runAll step items s).outputs = (runAll step items t).outputs ∧
      (runAll step items s).fault = (runAll step items t).fault ∧
      R (runAll step items s).state (runAll step items t).state := by
  induction items generalizing s t with
  | nil => exact ⟨rfl, rfl, h⟩
  | cons i rest ih =>
      obtain ⟨hfirst, hrest⟩ := List.forall_mem_cons.mp hstep
      obtain ⟨hanswer, hnext⟩ := hfirst s t h
      cases hs : step i s with
      | mk answer s' =>
          cases ht : step i t with
          | mk answer' t' =>
              rw [hs, ht] at hanswer hnext
              obtain rfl : answer = answer' := hanswer
              cases answer with
              | error e =>
                  rw [runAll_cons_error hs, runAll_cons_error ht]
                  exact ⟨rfl, rfl, hnext⟩
              | ok w =>
                  obtain ⟨houtputs, hfault, hstate⟩ := ih hrest hnext
                  rw [runAll_cons_ok hs, runAll_cons_ok ht]
                  exact ⟨by rw [houtputs], hfault, hstate⟩

/-! ## A command that may break off -/

section Breaking

variable {κ : Type} {run : Command ι σ ε ω} {run' : Command κ σ δ ω} {item : κ → ι} {fault : ε → δ}
  {Broken : κ → σ → δ → σ → Prop}

variable (run run' item fault Broken) in
/-- The command does what the other does, or it breaks off with a fault of its own. -/
def BreaksOff (k : κ) (s : σ) : Prop :=
  run' k s = ((run (item k) s).1.mapError fault, (run (item k) s).2) ∨
    ∃ d s', run' k s = (.error d, s') ∧ Broken k s d s'

variable (run run' item Broken) in
/-- A run that broke off at a command, in front of which everything was done. -/
def BrokeOff (items : List κ) (s : σ) : Prop :=
  ∃ before k after d s', items = before ++ k :: after ∧
    (runAll run (before.map item) s).fault = none ∧
    Broken k (runAll run (before.map item) s).state d s' ∧
    runAll run' items s = ⟨(runAll run (before.map item) s).outputs, s', some d⟩

/-- A run of commands that may break off does what the other run does, or it breaks off at
one of them. -/
theorem runAll_breaksOff {items : List κ}
    (hstep : ∀ k ∈ items, ∀ s, BreaksOff run run' item fault Broken k s) (s : σ) :
    runAll run' items s =
        ⟨(runAll run (items.map item) s).outputs, (runAll run (items.map item) s).state,
          (runAll run (items.map item) s).fault.map fault⟩ ∨
      BrokeOff run run' item Broken items s := by
  induction items generalizing s with
  | nil => exact .inl rfl
  | cons k rest ih =>
      obtain ⟨hk, hrest⟩ := List.forall_mem_cons.mp hstep
      rcases hk s with hsame | ⟨d, s', hbreaks, hbroken⟩
      · cases hrun : run (item k) s with
        | mk answer s' =>
            rw [hrun] at hsame
            cases answer with
            | error e =>
                rw [List.map_cons, runAll_cons_error hrun, runAll_cons_error hsame]
                exact .inl rfl
            | ok w =>
                rw [List.map_cons, runAll_cons_ok hrun, runAll_cons_ok hsame]
                rcases ih hrest s' with htail | ⟨before, k', after, d, s'', rfl, hbefore,
                  hbroken, htail⟩
                · rw [htail]
                  exact .inl rfl
                · refine .inr ⟨k :: before, k', after, d, s'', rfl, ?_, ?_, ?_⟩
                  · rw [List.map_cons, runAll_cons_ok hrun]
                    exact hbefore
                  · rw [List.map_cons, runAll_cons_ok hrun]
                    exact hbroken
                  · rw [List.map_cons, runAll_cons_ok hsame, runAll_cons_ok hrun, htail]
      · refine .inr ⟨[], k, rest, d, s', rfl, rfl, hbroken, ?_⟩
        rw [runAll_cons_error hbreaks]
        rfl

end Breaking

end MiniSql.Foundation
