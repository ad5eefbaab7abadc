import Mathlib

/-!
# Passes that shrink a state until it is accepted

A list of passes works on one state.  Each pass is repeated while the state is not
accepted and the pass has something to do, and then the next one takes over.

* The repetition is bounded by the weight of the state.  If every turn of the pass
  makes the state lighter, the bound is never what ends it (`repeatPass_settles`).
* If moreover no pass gives an earlier one something to do, the passes stop at an
  accepted state or at one that none of them can change (`runPasses_spec`).
* `schedule` is the list of states that the passes go through when none is
  accepted.  It does not depend on what is accepted, and the passes stop at its
  first accepted state (`runPasses_eq_find`).
-/

namespace Passes

/-- One turn of a pass, or `none` when it has nothing left to do. -/
abbrev Pass (σ : Type) := σ → Option σ

variable {σ : Type} (accept : σ → Bool) (weight : σ → Nat)

def repeatPass (pass : Pass σ) : Nat → σ → σ
  | 0, state => state
  | fuel + 1, state =>
    if accept state then state
    else
      match pass state with
      | none => state
      | some next => repeatPass pass fuel next

/-- The state at which the passes stop, if it is accepted. -/
def runPasses : List (Pass σ) → σ → Option σ
  | [], _ => none
  | pass :: rest, state =>
    let after := repeatPass accept pass (weight state) state
    if accept after then some after else runPasses rest after

/-- The states of one pass. -/
def trail (pass : Pass σ) : Nat → σ → List σ
  | 0, state => [state]
  | fuel + 1, state =>
    state ::
      match pass state with
      | none => []
      | some next => trail pass fuel next

/-- The states of all passes. -/
def schedule : List (Pass σ) → σ → List σ
  | [], _ => []
  | pass :: rest, state =>
    trail pass (weight state) state ++
      schedule rest (repeatPass (fun _ => false) pass (weight state) state)

variable {accept weight}

theorem repeatPass_settles {pass : Pass σ}
    (hlighter : ∀ state next, pass state = some next → weight next < weight state) :
    ∀ fuel state, weight state ≤ fuel →
      accept (repeatPass accept pass fuel state) = true ∨
        pass (repeatPass accept pass fuel state) = none := by
  intro fuel
  induction fuel with
  | zero =>
    intro state hfuel
    right
    cases hpass : pass state with
    | none => exact hpass
    | some next =>
      have := hlighter state next hpass
      omega
  | succ fuel ih =>
    intro state hfuel
    by_cases haccept : accept state = true
    · left
      simp [repeatPass, haccept]
    · cases hpass : pass state with
      | none =>
        right
        simp [repeatPass, haccept, hpass]
      | some next =>
        have hlight := hlighter state next hpass
        simp only [repeatPass, haccept, hpass, Bool.false_eq_true, if_false]
        exact ih next (by omega)

/-- One turn of one of the passes. -/
def Turn (passes : List (Pass σ)) (before after : σ) : Prop :=
  ∃ pass ∈ passes, pass before = some after

theorem repeatPass_reaches {pass : Pass σ} {passes : List (Pass σ)} (hpass : pass ∈ passes)
    (fuel : Nat) (state : σ) :
    Relation.ReflTransGen (Turn passes) state (repeatPass accept pass fuel state) := by
  induction fuel generalizing state with
  | zero => exact .refl
  | succ fuel ih =>
    rw [repeatPass]
    split_ifs
    · exact .refl
    · split
      · exact .refl
      · rename_i next hnext
        exact .head ⟨pass, hpass, hnext⟩ (ih next)

theorem runPasses_spec {passes : List (Pass σ)} {state : σ} (hstate : accept state = false)
    (hlighter : ∀ pass ∈ passes, ∀ state next, pass state = some next → weight next < weight state)
    (hstable : passes.Pairwise fun earlier later =>
      ∀ state next, later state = some next → earlier state = none → earlier next = none) :
    ∃ final, Relation.ReflTransGen (Turn passes) state final ∧
      (accept final = true ∧ runPasses accept weight passes state = some final ∨
        accept final = false ∧ runPasses accept weight passes state = none ∧
          ∀ pass ∈ passes, pass final = none) := by
  induction passes generalizing state with
  | nil => exact ⟨state, .refl, .inr ⟨hstate, rfl, by simp⟩⟩
  | cons pass rest ih =>
    rw [List.forall_mem_cons] at hlighter
    rw [List.pairwise_cons] at hstable
    have hreaches : Relation.ReflTransGen (Turn (pass :: rest)) state _ :=
      @repeatPass_reaches _ accept _ _ List.mem_cons_self (weight state) state
    have hsettles := @repeatPass_settles _ accept _ _ hlighter.1 _ state (Nat.le_refl _)
    rw [runPasses]
    generalize repeatPass accept pass (weight state) state = after at hreaches hsettles
    cases haccept : accept after with
    | true => exact ⟨after, hreaches, .inl ⟨haccept, if_pos rfl⟩⟩
    | false =>
      obtain ⟨final, hfinal, hend⟩ := ih haccept hlighter.2 hstable.2
      refine ⟨final, hreaches.trans (Relation.ReflTransGen.mono ?_ _ _ hfinal), ?_⟩
      · rintro before next ⟨later, hmem, hturn⟩
        exact ⟨later, List.mem_cons_of_mem _ hmem, hturn⟩
      · -- the turns of the rest leave this pass nothing to do
        have hexhausted : pass final = none := by
          clear hend
          induction hfinal with
          | refl => exact hsettles.resolve_left (by simp [haccept])
          | tail _ hturn hbefore =>
            obtain ⟨later, hmem, hlater⟩ := hturn
            exact hstable.1 later hmem _ _ hlater hbefore
        simp only [Bool.false_eq_true, if_false, List.forall_mem_cons, hexhausted, true_and]
        exact hend

theorem repeatPass_eq (pass : Pass σ) (fuel : Nat) (state : σ) :
    repeatPass accept pass fuel state =
      ((trail pass fuel state).find? accept).getD
        (repeatPass (fun _ => false) pass fuel state) := by
  induction fuel generalizing state with
  | zero =>
    cases haccept : accept state <;> simp [repeatPass, trail, haccept]
  | succ fuel ih =>
    cases haccept : accept state with
    | true => simp [repeatPass, trail, haccept]
    | false =>
      cases hpass : pass state with
      | none => simp [repeatPass, trail, haccept, hpass]
      | some next => simp [repeatPass, trail, haccept, hpass, ih next]

theorem not_accept_exhausted (pass : Pass σ) (fuel : Nat) (state : σ)
    (hnone : (trail pass fuel state).find? accept = none) :
    accept (repeatPass (fun _ => false) pass fuel state) = false := by
  induction fuel generalizing state with
  | zero => simpa [trail, repeatPass] using hnone
  | succ fuel ih =>
    cases hpass : pass state with
    | none => simpa [trail, repeatPass, hpass] using hnone
    | some next =>
      simp only [trail, hpass, List.find?_eq_none, List.mem_cons, forall_eq_or_imp] at hnone
      simp only [repeatPass, hpass, Bool.false_eq_true, if_false]
      exact ih next (List.find?_eq_none.2 hnone.2)

theorem runPasses_eq_find (passes : List (Pass σ)) (state : σ) :
    runPasses accept weight passes state = (schedule weight passes state).find? accept := by
  induction passes generalizing state with
  | nil => rfl
  | cons pass rest ih =>
    simp only [runPasses, schedule, List.find?_append]
    rw [repeatPass_eq]
    cases hfind : (trail pass (weight state) state).find? accept with
    | none =>
      have hnot := not_accept_exhausted pass (weight state) state hfind
      simp only [Option.getD_none, hnot, Bool.false_eq_true, if_false, Option.none_or]
      exact ih _
    | some found =>
      have haccept : accept found = true := List.find?_some hfind
      simp [haccept]

theorem runPasses_of_accept {state : σ} (haccept : accept state = true) (pass : Pass σ)
    (rest : List (Pass σ)) : runPasses accept weight (pass :: rest) state = some state := by
  have hrepeat : repeatPass accept pass (weight state) state = state := by
    cases weight state with
    | zero => rfl
    | succ fuel => simp [repeatPass, haccept]
  simp only [runPasses, hrepeat, haccept, if_true]

end Passes
