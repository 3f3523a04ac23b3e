import Mathlib.Data.List.Basic

/-!
Machines that take one action at a time and may refuse it, and what holds in every state
they reach.
-/

namespace EqGen.Lib.Machine

variable {State Action : Type} (step : State → Action → Option State)

/-- Take the actions in order. -/
def run (state : State) (actions : List Action) : Option State :=
  actions.foldlM step state

/-- The states a run from `start` ends in. -/
def Reachable (start state : State) : Prop :=
  ∃ actions, run step start actions = some state

variable {step}

theorem run_cons {start state : State} {action : Action} {actions : List Action}
    (h : run step start (action :: actions) = some state) :
    ∃ next, step start action = some next ∧ run step next actions = some state := by
  simpa [run, List.foldlM_cons, Option.bind_eq_some_iff] using h

/-- What the start satisfies and every step preserves holds in every reachable state. -/
theorem Reachable.invariant (P : State → Prop) {start state : State}
    (h : Reachable step start state) (hstart : P start)
    (hstep : ∀ s action s', P s → step s action = some s' → P s') : P state := by
  obtain ⟨actions, hrun⟩ := h
  induction actions generalizing start with
  | nil =>
      cases hrun
      exact hstart
  | cons action actions ih =>
      obtain ⟨next, hnext, hrest⟩ := run_cons hrun
      exact ih (hstep start action next hstart hnext) hrest

end EqGen.Lib.Machine
