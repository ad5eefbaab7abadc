import Mathlib.Data.List.Basic

/-!
# Runs of a machine

A machine is a step function on a state type and an event type.  A run is a
list of events, and every interleaving of what the environment does is one such
list.

* `run_invariant` is the rule for a property that every step keeps.
* `Along` says that every step of a run meets a condition, read at the state
  the step starts from, and `run_invariant_along` is the rule for a property
  that such steps keep.
* `run_grows` carries a reflexive and transitive relation from steps to runs:
  what a step may change, a run may change.
-/

namespace Run

variable {σ ε : Type*} (step : σ → ε → σ)

/-- The state after a list of events. -/
def run (state : σ) (events : List ε) : σ := events.foldl step state

@[simp] theorem run_nil (state : σ) : run step state [] = state := rfl

@[simp] theorem run_cons (state : σ) (event : ε) (events : List ε) :
    run step state (event :: events) = run step (step state event) events := rfl

theorem run_append (state : σ) (before after : List ε) :
    run step state (before ++ after) = run step (run step state before) after :=
  List.foldl_append

theorem run_concat (state : σ) (events : List ε) (event : ε) :
    run step state (events ++ [event]) = step (run step state events) event := by
  rw [run_append, run_cons, run_nil]

variable {step}

theorem run_invariant {inv : σ → Prop} (hstep : ∀ state event, inv state → inv (step state event))
    {state : σ} (hinv : inv state) (events : List ε) : inv (run step state events) := by
  induction events generalizing state with
  | nil => exact hinv
  | cons event events ih => exact ih (hstep state event hinv)

variable (step)

/-- Every step of the run meets the condition at the state it starts from. -/
def Along (condition : σ → ε → Prop) : σ → List ε → Prop
  | _, [] => True
  | state, event :: events => condition state event ∧ Along condition (step state event) events

variable {step}

theorem along_true {state : σ} (events : List ε) : Along step (fun _ _ => True) state events := by
  induction events generalizing state with
  | nil => trivial
  | cons event events ih => exact ⟨trivial, ih⟩

theorem along_append {condition : σ → ε → Prop} {state : σ} {before after : List ε} :
    Along step condition state (before ++ after) ↔
      Along step condition state before ∧ Along step condition (run step state before) after := by
  induction before generalizing state with
  | nil => simp [Along]
  | cons event before ih =>
    rw [List.cons_append, Along, Along, ih, run_cons, and_assoc]

theorem run_invariant_along {condition : σ → ε → Prop} {inv : σ → Prop} {events : List ε}
    (hstep : ∀ state, ∀ event ∈ events, inv state → condition state event →
      inv (step state event))
    {state : σ} (hinv : inv state) (hrun : Along step condition state events) :
    inv (run step state events) := by
  induction events generalizing state with
  | nil => exact hinv
  | cons event events ih =>
    have hnext := hstep state event List.mem_cons_self hinv hrun.1
    exact ih (fun state event hmem => hstep state event (List.mem_cons_of_mem _ hmem)) hnext
      hrun.2

theorem run_grows {grows : σ → σ → Prop} (hrefl : ∀ state, grows state state)
    (htrans : ∀ first second third, grows first second → grows second third → grows first third)
    (hstep : ∀ state event, grows state (step state event)) (state : σ) (events : List ε) :
    grows state (run step state events) := by
  induction events generalizing state with
  | nil => exact hrefl state
  | cons event events ih => exact htrans _ _ _ (hstep state event) (ih (step state event))

end Run
