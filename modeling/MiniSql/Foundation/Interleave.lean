import Mathlib.Data.List.Basic

set_option autoImplicit false

/-!
# Foundation: labelled runs

The steps of several parties over one state, in any order.  A run records the state
before and behind each of its steps.  What every step only extends, the whole run
only extends.
-/

namespace MiniSql.Foundation

variable {σ ℓ : Type}

/-- One step of a run. -/
structure Event (σ ℓ : Type) where
  before : σ
  label : ℓ
  after : σ

/-- The runs of a step relation from one state to another. -/
inductive Run (step : σ → ℓ → σ → Prop) : σ → List (Event σ ℓ) → σ → Prop
  | done {s : σ} : Run step s [] s
  | step {s t u : σ} {l : ℓ} {events : List (Event σ ℓ)} (hstep : step s l t)
      (hrest : Run step t events u) : Run step s (⟨s, l, t⟩ :: events) u

variable {step : σ → ℓ → σ → Prop} {s t u : σ} {events events' : List (Event σ ℓ)}

namespace Run

theorem single {l : ℓ} (h : step s l t) : Run step s [⟨s, l, t⟩] t := .step h .done

theorem append (h : Run step s events t) (h' : Run step t events' u) :
    Run step s (events ++ events') u := by
  induction h with
  | done => exact h'
  | step hstep _ ih => exact .step hstep (ih h')

/-- Every event of a run is a step. -/
theorem step_of_mem (h : Run step s events t) :
    ∀ e ∈ events, step e.before e.label e.after := by
  induction h with
  | done => simp
  | step hstep _ ih => exact List.forall_mem_cons.mpr ⟨hstep, ih⟩

/-- A run whose events are steps of another relation as well. -/
theorem of_mem {step' : σ → ℓ → σ → Prop} (h : Run step s events t)
    (hevents : ∀ e ∈ events, step' e.before e.label e.after) : Run step' s events t := by
  induction h with
  | done => exact .done
  | step _ _ ih =>
      obtain ⟨hfirst, hrest⟩ := List.forall_mem_cons.mp hevents
      exact .step hfirst (ih hrest)

section Extends

variable {R : σ → σ → Prop} (hrefl : ∀ s, R s s) (htrans : ∀ {s t u}, R s t → R t u → R s u)

include hrefl htrans

/-- What every event only extends, the run only extends. -/
theorem extends_start (h : Run step s events t)
    (hevents : ∀ e ∈ events, R e.before e.after) : R s t := by
  induction h with
  | done => exact hrefl _
  | step _ _ ih =>
      obtain ⟨hfirst, hrest⟩ := List.forall_mem_cons.mp hevents
      exact htrans hfirst (ih hrest)

/-- What stands behind one event is still extended at the end. -/
theorem extends_of_mem (h : Run step s events t)
    (hevents : ∀ e ∈ events, R e.before e.after) : ∀ e ∈ events, R e.after t := by
  induction h with
  | done => simp
  | step _ hrest ih =>
      obtain ⟨_, hevents⟩ := List.forall_mem_cons.mp hevents
      exact List.forall_mem_cons.mpr
        ⟨hrest.extends_start hrefl htrans hevents, ih hevents⟩

end Extends

end Run

end MiniSql.Foundation
