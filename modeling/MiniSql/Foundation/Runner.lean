import Mathlib.Data.List.Basic
import Mathlib.Data.List.Forall2

set_option autoImplicit false

/-!
# Foundation: running a list of commands up to the first fault

A command takes a state to an answer or a fault, and to the next state.  A run
stops at the first fault.  The rules here lift what one step does to whole runs:
an invariant, a view of the state that each completed command extends, the
effect of a run that stops, and two runs side by side.
-/

namespace MiniSql.Foundation

variable {ι σ ε ω ρ : Type}

/-- One command over a state. -/
abbrev Command (ι σ ε ω : Type) : Type := ι → σ → Except ε ω × σ

/-- What a run leaves behind: the answers of the commands it completed, the last
state, and the fault it stopped at. -/
structure Trace (σ ε ω : Type) where
  outputs : List ω
  state : σ
  fault : Option ε

/-- Run the commands in order, up to the first fault. -/
def runAll (step : Command ι σ ε ω) : List ι → σ → Trace σ ε ω
  | [], s => ⟨[], s, none⟩
  | i :: rest, s =>
      match step i s with
      | (.error e, s') => ⟨[], s', some e⟩
      | (.ok w, s') =>
          let trace := runAll step rest s'
          ⟨w :: trace.outputs, trace.state, trace.fault⟩

variable {step : Command ι σ ε ω}

/-- The commands a run completed. -/
def completed (step : Command ι σ ε ω) (items : List ι) (s : σ) : List ι :=
  items.take (runAll step items s).outputs.length

@[simp] theorem runAll_nil (s : σ) : runAll step [] s = ⟨[], s, none⟩ := rfl

theorem runAll_cons_ok {i : ι} {rest : List ι} {s s' : σ} {w : ω}
    (h : step i s = (.ok w, s')) :
    runAll step (i :: rest) s =
      ⟨w :: (runAll step rest s').outputs, (runAll step rest s').state,
        (runAll step rest s').fault⟩ := by
  simp only [runAll, h]

theorem runAll_cons_error {i : ι} {rest : List ι} {s s' : σ} {e : ε}
    (h : step i s = (.error e, s')) : runAll step (i :: rest) s = ⟨[], s', some e⟩ := by
  simp only [runAll, h]

theorem completed_cons_ok {i : ι} {rest : List ι} {s s' : σ} {w : ω}
    (h : step i s = (.ok w, s')) :
    completed step (i :: rest) s = i :: completed step rest s' := by
  simp [completed, runAll_cons_ok h]

theorem completed_cons_error {i : ι} {rest : List ι} {s s' : σ} {e : ε}
    (h : step i s = (.error e, s')) : completed step (i :: rest) s = [] := by
  simp [completed, runAll_cons_error h]

/-- A run without a fault has answered every command. -/
theorem runAll_length_of_no_fault {items : List ι} {s : σ}
    (h : (runAll step items s).fault = none) :
    (runAll step items s).outputs.length = items.length := by
  induction items generalizing s with
  | nil => rfl
  | cons i rest ih =>
      cases hstep : step i s with
      | mk answer s' =>
          cases answer with
          | error e => simp [runAll_cons_error hstep] at h
          | ok w =>
              rw [runAll_cons_ok hstep] at h ⊢
              rw [List.length_cons, List.length_cons, ih h]

/-- A run that stops at a fault has a command it did not complete. -/
theorem runAll_length_of_fault {items : List ι} {s : σ} {e : ε}
    (h : (runAll step items s).fault = some e) :
    (runAll step items s).outputs.length < items.length := by
  induction items generalizing s with
  | nil => simp at h
  | cons i rest ih =>
      cases hstep : step i s with
      | mk answer s' =>
          cases answer with
          | error e => simp [runAll_cons_error hstep]
          | ok w =>
              rw [runAll_cons_ok hstep] at h ⊢
              rw [List.length_cons, List.length_cons]
              exact Nat.succ_lt_succ (ih h)

/-! ## Runs one after the other -/

theorem runAll_append {xs : List ι} (ys : List ι) {s : σ}
    (h : (runAll step xs s).fault = none) :
    runAll step (xs ++ ys) s =
      ⟨(runAll step xs s).outputs ++ (runAll step ys (runAll step xs s).state).outputs,
        (runAll step ys (runAll step xs s).state).state,
        (runAll step ys (runAll step xs s).state).fault⟩ := by
  induction xs generalizing s with
  | nil => rfl
  | cons i rest ih =>
      cases hstep : step i s with
      | mk answer s' =>
          cases answer with
          | error e => simp [runAll_cons_error hstep] at h
          | ok w =>
              rw [runAll_cons_ok hstep] at h
              rw [List.cons_append, runAll_cons_ok hstep, runAll_cons_ok hstep, ih h]
              simp only [List.cons_append]

/-- A command that fails without an effect: the run over everything is the run
over what stands before the command, and the fault. -/
theorem runAll_stops {before : List ι} {i : ι} (after : List ι) {s : σ} {e : ε}
    (hbefore : (runAll step before s).fault = none)
    (hstep : step i (runAll step before s).state =
      (.error e, (runAll step before s).state)) :
    runAll step (before ++ i :: after) s =
      ⟨(runAll step before s).outputs, (runAll step before s).state, some e⟩ := by
  rw [runAll_append _ hbefore, runAll_cons_error hstep, List.append_nil]

/-! ## Invariants and views -/

/-- An invariant that every command of the run keeps. -/
theorem runAll_invariant {I : σ → Prop} (items : List ι)
    (hstep : ∀ i ∈ items, ∀ s, I s → I (step i s).2) {s : σ} (hs : I s) :
    I (runAll step items s).state := by
  induction items generalizing s with
  | nil => exact hs
  | cons i rest ih =>
      have hnext := hstep i List.mem_cons_self s hs
      have hrest : ∀ j ∈ rest, ∀ s, I s → I (step j s).2 :=
        fun j hj => hstep j (List.mem_cons_of_mem i hj)
      cases h : step i s with
      | mk answer s' =>
          rw [h] at hnext
          cases answer with
          | error e =>
              rw [runAll_cons_error h]
              exact hnext
          | ok w =>
              rw [runAll_cons_ok h]
              exact ih hrest hnext

/-- What holds of every answer of a command holds of the answers of a run. -/
theorem runAll_outputs {P : ω → Prop} {items : List ι}
    (hstep : ∀ i ∈ items, ∀ s w s', step i s = (.ok w, s') → P w) {s : σ} :
    ∀ w ∈ (runAll step items s).outputs, P w := by
  induction items generalizing s with
  | nil => simp
  | cons i rest ih =>
      obtain ⟨hi, hrest⟩ := List.forall_mem_cons.mp hstep
      cases h : step i s with
      | mk answer s' =>
          cases answer with
          | error e => simp [runAll_cons_error h]
          | ok w =>
              rw [runAll_cons_ok h]
              exact List.forall_mem_cons.mpr ⟨hi s w s' h, ih hrest⟩

/-- When every command with such an answer moves along `R`, and a command that fails too,
a run with such answers does. -/
theorem runAll_related {R : σ → σ → Prop} {P : ω → Prop} {items : List ι}
    (hrefl : ∀ s, R s s) (htrans : ∀ s s' s'', R s s' → R s' s'' → R s s'')
    (hok : ∀ i ∈ items, ∀ s w s', step i s = (.ok w, s') → P w → R s s')
    (herror : ∀ i ∈ items, ∀ s e s', step i s = (.error e, s') → R s s') {s : σ}
    (h : ∀ w ∈ (runAll step items s).outputs, P w) : R s (runAll step items s).state := by
  induction items generalizing s with
  | nil => exact hrefl s
  | cons i rest ih =>
      obtain ⟨hok, hoks⟩ := List.forall_mem_cons.mp hok
      obtain ⟨herror, herrors⟩ := List.forall_mem_cons.mp herror
      cases hstep : step i s with
      | mk answer s' =>
          cases answer with
          | error e =>
              rw [runAll_cons_error hstep]
              exact herror s e s' hstep
          | ok w =>
              rw [runAll_cons_ok hstep] at h ⊢
              obtain ⟨hw, hrest⟩ := List.forall_mem_cons.mp h
              exact htrans s s' _ (hok s w s' hstep hw) (ih hoks herrors hrest)

/-- A view that every completed command extends by its contribution and no
failed command changes: after a run it is extended by the contributions of the
completed commands, in order. -/
theorem runAll_view {I : σ → Prop} (view : σ → List ρ) (contribution : ι → List ρ)
    (items : List ι) (hstep : ∀ i ∈ items, ∀ s, I s → I (step i s).2)
    (hok : ∀ i ∈ items, ∀ s w s', I s → step i s = (.ok w, s') →
      view s' = view s ++ contribution i)
    (herror : ∀ i ∈ items, ∀ s e s', I s → step i s = (.error e, s') → view s' = view s)
    {s : σ} (hs : I s) :
    view (runAll step items s).state =
      view s ++ (completed step items s).flatMap contribution := by
  induction items generalizing s with
  | nil => simp [completed]
  | cons i rest ih =>
      have hnext := hstep i List.mem_cons_self s hs
      cases h : step i s with
      | mk answer s' =>
          rw [h] at hnext
          cases answer with
          | error e =>
              rw [runAll_cons_error h, completed_cons_error h, List.flatMap_nil,
                List.append_nil]
              exact herror i List.mem_cons_self s e s' hs h
          | ok w =>
              rw [runAll_cons_ok h, completed_cons_ok h, List.flatMap_cons,
                ← List.append_assoc, ← hok i List.mem_cons_self s w s' hs h]
              apply ih
              · exact fun j hj => hstep j (List.mem_cons_of_mem i hj)
              · exact fun j hj => hok j (List.mem_cons_of_mem i hj)
              · exact fun j hj => herror j (List.mem_cons_of_mem i hj)
              · exact hnext

/-! ## Two runs side by side -/

/-- Two outcomes that differ in nothing but the fault they report. -/
def SameOutcome (p q : Except ε ω × σ) : Prop :=
  p.2 = q.2 ∧ p.1.toOption = q.1.toOption

/-- Two traces that differ in nothing but the fault they report. -/
def SameTrace (t u : Trace σ ε ω) : Prop :=
  t.outputs = u.outputs ∧ t.state = u.state ∧ t.fault.isSome = u.fault.isSome

/-- Answers that are equal up to the fault are one answer or two faults. -/
theorem eq_or_faults_of_toOption_eq {x y : Except ε ω} (h : x.toOption = y.toOption) :
    (∃ w, x = .ok w ∧ y = .ok w) ∨ ∃ e e', x = .error e ∧ y = .error e' := by
  cases x with
  | error e =>
      cases y with
      | error e' => exact .inr ⟨e, e', rfl, rfl⟩
      | ok w => simp [Except.toOption] at h
  | ok w =>
      cases y with
      | error e => simp [Except.toOption] at h
      | ok w' =>
          obtain rfl : w = w' := Option.some.inj h
          exact .inl ⟨w, rfl, rfl⟩

theorem toOption_map_congr {ν : Type} {x y : Except ε ω} (f : ω → ν)
    (h : x.toOption = y.toOption) : (x.map f).toOption = (y.map f).toOption := by
  rcases eq_or_faults_of_toOption_eq h with ⟨w, rfl, rfl⟩ | ⟨e, e', rfl, rfl⟩
  · rfl
  · rfl

/-- Commands with the same outcome from every state make the same runs. -/
theorem runAll_same {R : ι → ι → Prop} (hstep : ∀ i j s, R i j →
    SameOutcome (step i s) (step j s)) {items items' : List ι}
    (h : List.Forall₂ R items items') (s : σ) :
    SameTrace (runAll step items s) (runAll step items' s) := by
  induction h generalizing s with
  | nil => exact ⟨rfl, rfl, rfl⟩
  | @cons i j rest rest' hij _ ih =>
      obtain ⟨hstate, hanswer⟩ := hstep i j s hij
      cases hi : step i s with
      | mk answer s' =>
          cases hj : step j s with
          | mk answer' s'' =>
              rw [hi, hj] at hstate hanswer
              obtain rfl : s' = s'' := hstate
              rcases eq_or_faults_of_toOption_eq hanswer with ⟨w, rfl, rfl⟩ | ⟨e, e', rfl, rfl⟩
              · obtain ⟨houtputs, hlast, hfault⟩ := ih s'
                rw [runAll_cons_ok hi, runAll_cons_ok hj]
                exact ⟨by rw [houtputs], hlast, hfault⟩
              · rw [runAll_cons_error hi, runAll_cons_error hj]
                exact ⟨rfl, rfl, rfl⟩

end MiniSql.Foundation
