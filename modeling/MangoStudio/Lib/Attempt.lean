import Mathlib.Data.List.Forall2

/-!
# Computations that fail and leave a state

A computation with a state that fails keeps what it has done to the state so
far.  `Triple pre attempt post fail` says where such a computation ends: with a
value and a state in `post`, or with an error and a state in `fail`.

The rules follow the program: `pure`, `throw`, `act` for a step on the state,
`bind`, and `observe`, which turns an error into a value.  `mapM` is the rule
for a loop, with an invariant over the items that are done and what they gave.

`Keeps inv attempt post` is the triple of a computation that keeps an invariant
of the state in any case, and has its own rules.
-/

/-- A computation with a state `σ` and errors `ε`. -/
abbrev Attempt (σ ε : Type) := ExceptT ε (StateM σ)

namespace Attempt

variable {σ ε α β ι : Type}

/-- The state and the result of a computation. -/
def finish (attempt : Attempt σ ε α) (state : σ) : Except ε α × σ := attempt.run.run state

/-- One step on the state. -/
def act (step : σ → σ × Except ε α) : Attempt σ ε α :=
  ExceptT.mk fun state => ((step state).2, (step state).1)

def ofExcept (result : Except ε α) : Attempt σ ε α := ExceptT.mk (pure result)

/-- Fails with the error, if there is one. -/
def refuse : Option ε → Attempt σ ε Unit
  | none => pure ()
  | some error => throw error

/-- Goes on after a failure. -/
def observe (attempt : Attempt σ ε α) : Attempt σ ε (Except ε α) :=
  ExceptT.mk fun state => (.ok (attempt.finish state).1, (attempt.finish state).2)

/-- Turns an error into a value, and cannot fail itself. -/
def settle {ε' : Type} (attempt : Attempt σ ε α) : Attempt σ ε' (Except ε α) :=
  ExceptT.mk fun state => (.ok (attempt.finish state).1, (attempt.finish state).2)

/-- Renames the errors. -/
def mapError {ε' : Type} (rename : ε → ε') (attempt : Attempt σ ε α) : Attempt σ ε' α :=
  ExceptT.mk fun state => ((attempt.finish state).1.mapError rename, (attempt.finish state).2)

/-- Reads the state. -/
def look (read : σ → α) : Attempt σ ε α := ExceptT.mk fun state => (.ok (read state), state)

def Triple (pre : σ → Prop) (attempt : Attempt σ ε α) (post : α → σ → Prop)
    (fail : ε → σ → Prop) : Prop :=
  ∀ state, pre state →
    match attempt.finish state with
    | (.ok value, state) => post value state
    | (.error error, state) => fail error state

variable {pre : σ → Prop} {post : α → σ → Prop} {fail : ε → σ → Prop}

theorem finish_bind (attempt : Attempt σ ε α) (next : α → Attempt σ ε β) (state : σ) :
    (attempt >>= next).finish state =
      match attempt.finish state with
      | (.ok value, state) => (next value).finish state
      | (.error error, state) => (.error error, state) := by
  unfold finish
  rw [ExceptT.run_bind, StateT.run_bind]
  rcases attempt.run.run state with ⟨_ | _, _⟩
  · rfl
  · rfl

/-! ## Rules -/

theorem triple_pure {value : α} (h : ∀ state, pre state → post value state) :
    Triple pre (pure value) post fail := h

theorem triple_throw {error : ε} (h : ∀ state, pre state → fail error state) :
    Triple pre (throw error) post fail := h

variable {step : σ → σ × Except ε α}

theorem triple_act
    (hok : ∀ state value, pre state → (step state).2 = .ok value → post value (step state).1)
    (herror : ∀ state error, pre state → (step state).2 = .error error → fail error (step state).1)
    : Triple pre (act step) post fail := by
  intro state hpre
  show match ((step state).2, (step state).1) with
    | (.ok value, state) => post value state
    | (.error error, state) => fail error state
  grind

theorem triple_act_ok
    (h : ∀ state, pre state → ∃ value, (step state).2 = .ok value ∧ post value (step state).1) :
    Triple pre (act step) post fail := by
  grind [triple_act]

theorem triple_ofExcept {result : Except ε α}
    (hok : ∀ state value, pre state → result = .ok value → post value state)
    (herror : ∀ state error, pre state → fail error state) :
    Triple pre (ofExcept result) post fail := by
  intro state hpre
  cases hresult : result with
  | ok value => exact hok state value hpre hresult
  | error error => exact herror state error hpre

theorem triple_refuse {refusal : Option ε} {post : Unit → σ → Prop}
    (hok : ∀ state, pre state → post () state) (herror : ∀ state error, pre state → fail error state) :
    Triple pre (refuse refusal) post fail := by
  cases refusal with
  | none => exact triple_pure hok
  | some error => exact triple_throw fun state hpre => herror state error hpre

variable {attempt : Attempt σ ε α} {next : α → Attempt σ ε β}

theorem triple_bind {middle : α → σ → Prop} {post : β → σ → Prop}
    (hfirst : Triple pre attempt middle fail)
    (hnext : ∀ value, Triple (middle value) (next value) post fail) :
    Triple pre (attempt >>= next) post fail := by
  intro state hpre
  have hstate := hfirst state hpre
  rw [finish_bind]
  rcases hfinish : attempt.finish state with ⟨error | value, after⟩
  · rw [hfinish] at hstate
    exact hstate
  · rw [hfinish] at hstate
    exact hnext value after hstate

theorem triple_observe (h : Triple pre attempt post fail) {never : ε → σ → Prop} :
    Triple pre (observe attempt) (fun result state => match result with
        | .ok value => post value state
        | .error error => fail error state) never := by
  intro state hpre
  have hstate := h state hpre
  have hobserve : (observe attempt).finish state =
      (.ok (attempt.finish state).1, (attempt.finish state).2) := rfl
  grind

theorem triple_settle {ε' : Type} (h : Triple pre attempt post fail) {never : ε' → σ → Prop} :
    Triple pre (settle attempt) (fun result state => match result with
        | .ok value => post value state
        | .error error => fail error state) never := by
  intro state hpre
  have hstate := h state hpre
  have hsettle : (settle attempt : Attempt σ ε' _).finish state =
      (.ok (attempt.finish state).1, (attempt.finish state).2) := rfl
  grind

theorem triple_mapError {ε' : Type} {rename : ε → ε'} {fail' : ε' → σ → Prop}
    (h : Triple pre attempt post fun error state => fail' (rename error) state) :
    Triple pre (mapError rename attempt) post fail' := by
  intro state hpre
  have hstate := h state hpre
  have hmap : (mapError rename attempt).finish state =
      ((attempt.finish state).1.mapError rename, (attempt.finish state).2) := rfl
  rw [hmap]
  rcases hfinish : attempt.finish state with ⟨error | value, after⟩
  · rw [hfinish] at hstate
    exact hstate
  · rw [hfinish] at hstate
    exact hstate

theorem triple_look {read : σ → α} (h : ∀ state, pre state → post (read state) state) :
    Triple pre (look read) post fail := h

theorem Triple.weaken {pre' : σ → Prop} {post' : α → σ → Prop} {fail' : ε → σ → Prop}
    (h : Triple pre attempt post fail) (hpre : ∀ state, pre' state → pre state)
    (hpost : ∀ value state, post value state → post' value state)
    (hfail : ∀ error state, fail error state → fail' error state) :
    Triple pre' attempt post' fail' := by
  intro state hstate
  have hend := h state (hpre state hstate)
  grind

theorem triple_mapM {attempt : ι → Attempt σ ε α} {items : List ι}
    (inv : List ι → List α → σ → Prop)
    (hstep : ∀ done item rest values, items = done ++ item :: rest →
      Triple (inv done values) (attempt item)
        (fun value => inv (done ++ [item]) (values ++ [value])) fail) :
    Triple (inv [] []) (items.mapM attempt) (fun values => inv items values) fail := by
  have hloop : ∀ rest done values, items = done ++ rest →
      Triple (inv done values) (rest.mapM attempt)
        (fun later => inv items (values ++ later)) fail := by
    intro rest
    induction rest <;> grind [triple_pure, triple_bind]
  exact hloop items [] [] rfl

/-! ## Keeping an invariant -/

/-- The invariant holds at the end in any case, and the value is in `post`. -/
def Keeps (inv : σ → Prop) (attempt : Attempt σ ε α) (post : α → Prop) : Prop :=
  Triple inv attempt (fun value state => inv state ∧ post value) fun _ state => inv state

section Keeps

variable {inv : σ → Prop} {post : α → Prop}

theorem keeps_pure {value : α} (h : post value) :
    Keeps inv (pure value : Attempt σ ε α) post :=
  triple_pure fun _ hinv => ⟨hinv, h⟩

theorem keeps_throw {error : ε} : Keeps inv (throw error : Attempt σ ε α) post :=
  triple_throw fun _ hinv => hinv

theorem keeps_ofExcept {result : Except ε α} (h : ∀ value, result = .ok value → post value) :
    Keeps inv (ofExcept result : Attempt σ ε α) post :=
  triple_ofExcept (fun _ value hinv hvalue => ⟨hinv, h value hvalue⟩) fun _ _ hinv => hinv

theorem keeps_refuse {refusal : Option ε} :
    Keeps inv (refuse refusal : Attempt σ ε Unit) fun _ => True :=
  triple_refuse (fun _ hinv => ⟨hinv, trivial⟩) fun _ _ hinv => hinv

theorem keeps_act (hinv : ∀ state, inv state → inv (step state).1)
    (h : ∀ state value, (step state).2 = .ok value → post value) : Keeps inv (act step) post :=
  triple_act (fun state value hstate hvalue => ⟨hinv state hstate, h state value hvalue⟩)
    fun state _ hstate _ => hinv state hstate

variable {attempt : Attempt σ ε α}

theorem keeps_bind (middle : α → Prop) {post : β → Prop} (hfirst : Keeps inv attempt middle)
    (hnext : ∀ value, middle value → Keeps inv (next value) post) :
    Keeps inv (attempt >>= next) post :=
  triple_bind hfirst fun value state hstate => hnext value hstate.2 state hstate.1

theorem keeps_andThen {post : β → Prop} (hfirst : Keeps inv attempt fun _ => True)
    (hnext : ∀ value, Keeps inv (next value) post) : Keeps inv (attempt >>= next) post :=
  keeps_bind _ hfirst fun value _ => hnext value

theorem Keeps.mono {post' : α → Prop} (h : Keeps inv attempt post)
    (hpost : ∀ value, post value → post' value) : Keeps inv attempt post' :=
  h.weaken (fun _ hinv => hinv) (fun value _ hend => ⟨hend.1, hpost value hend.2⟩)
    fun _ _ hinv => hinv

theorem keeps_observe (h : Keeps inv attempt post) :
    Keeps inv (observe attempt) fun result => ∀ value, result = .ok value → post value := by
  refine (triple_observe h).weaken (fun _ hinv => hinv) ?_ fun _ _ hinv => hinv
  grind

theorem keeps_mapM {attempt : ι → Attempt σ ε α} {items : List ι} {post : ι → α → Prop}
    (h : ∀ item ∈ items, Keeps inv (attempt item) (post item)) :
    Keeps inv (items.mapM attempt) fun values => List.Forall₂ post items values := by
  refine (triple_mapM (fun done values state => inv state ∧ List.Forall₂ post done values)
    ?_).weaken (fun _ hinv => ⟨hinv, .nil⟩) (fun _ _ hend => hend) fun _ _ hinv => hinv
  intro done item rest values hitems state ⟨hinv, hdone⟩
  have hmem : item ∈ items := by
    rw [hitems]
    exact List.mem_append_right _ List.mem_cons_self
  refine ((h item hmem).weaken (fun _ hinv => hinv) ?_ fun _ _ hinv => hinv) state hinv
  intro value after ⟨hafter, hvalue⟩
  exact ⟨hafter, List.rel_append hdone (.cons hvalue .nil)⟩

end Keeps

end Attempt
