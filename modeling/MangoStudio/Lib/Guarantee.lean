import MangoStudio.Lib.Attempt
import Mathlib.Order.Defs.Unbundled

/-!
# Computations that keep to a relation

`Guarantee rel pre attempt post fail` is the triple of a computation that, from
a state in `pre`, ends in a state that is related to the one it started from:
`rel` says what the computation may do to the state on the way.  For a
reflexive and transitive relation the rules are those of triples.

`Guarantee.frame` carries along any fact that the relation preserves.
-/

namespace Attempt

variable {σ ε α β ι : Type}

def Guarantee (rel : σ → σ → Prop) (pre : σ → Prop) (attempt : Attempt σ ε α)
    (post : α → σ → Prop) (fail : ε → σ → Prop) : Prop :=
  ∀ start, Triple (fun state => state = start ∧ pre state) attempt
    (fun value state => rel start state ∧ post value state)
    fun error state => rel start state ∧ fail error state

/-- What is known of a result that is observed. -/
def Ends (post : α → σ → Prop) (fail : ε → σ → Prop) : Except ε α → σ → Prop
  | .ok value => post value
  | .error error => fail error

variable {rel : σ → σ → Prop} {pre : σ → Prop} {post : α → σ → Prop} {fail : ε → σ → Prop}

variable {attempt : Attempt σ ε α} {fail' : ε → σ → Prop} {post' : α → σ → Prop} {pre' : σ → Prop}

theorem Guarantee.deduce {rel' : σ → σ → Prop} (h : Guarantee rel pre attempt post fail)
    (hpre : ∀ state, pre' state → pre state)
    (hrel : ∀ start state, rel start state → rel' start state)
    (hpost : ∀ start value state, pre' start → rel start state → post value state →
      post' value state)
    (hfail : ∀ start error state, pre' start → rel start state → fail error state →
      fail' error state) :
    Guarantee rel' pre' attempt post' fail' := by
  rintro start state ⟨rfl, hstart⟩
  refine ((h state).weaken (fun _ hstate => hstate) ?_ ?_) state ⟨rfl, hpre state hstart⟩
  all_goals grind

theorem Guarantee.weaken {rel' : σ → σ → Prop} (h : Guarantee rel pre attempt post fail)
    (hrel : ∀ start state, rel start state → rel' start state)
    (hpre : ∀ state, pre' state → pre state)
    (hpost : ∀ value state, post value state → post' value state)
    (hfail : ∀ error state, fail error state → fail' error state) :
    Guarantee rel' pre' attempt post' fail' :=
  h.deduce hpre hrel (fun _ value state _ _ => hpost value state)
    fun _ error state _ _ => hfail error state

section

variable (h : Guarantee rel pre attempt post fail)

include h

theorem Guarantee.pre_mono (hpre : ∀ state, pre' state → pre state) :
    Guarantee rel pre' attempt post fail :=
  h.weaken (fun _ _ h => h) hpre (fun _ _ h => h) fun _ _ h => h

theorem Guarantee.fail_mono (hfail : ∀ error state, fail error state → fail' error state) :
    Guarantee rel pre attempt post fail' :=
  h.weaken (fun _ _ h => h) (fun _ h => h) (fun _ _ h => h) hfail

theorem Guarantee.frame {inv : σ → Prop}
    (hinv : ∀ start state, rel start state → inv start → inv state) :
    Guarantee rel (fun state => pre state ∧ inv state) attempt
      (fun value state => post value state ∧ inv state)
      fun error state => fail error state ∧ inv state :=
  h.deduce (fun _ hstate => hstate.1) (fun _ _ hrel => hrel)
    (fun start _ state hstart hrel hpost => ⟨hpost, hinv start state hrel hstart.2⟩)
    fun start _ state hstart hrel hfail => ⟨hfail, hinv start state hrel hstart.2⟩

end

theorem Guarantee.of_fact {fact : Prop} (hfact : ∀ state, pre state → fact)
    (h : fact → Guarantee rel pre attempt post fail) :
    Guarantee rel pre attempt post fail :=
  fun start state hstate => h (hfact state hstate.2) start state hstate

theorem Guarantee.of_start
    (h : ∀ start, pre start → Guarantee rel (fun state => state = start) attempt post fail) :
    Guarantee rel pre attempt post fail :=
  fun start state hstate => h state hstate.2 start state ⟨hstate.1, rfl⟩

theorem Guarantee.triple (h : Guarantee rel pre attempt post fail) {start : σ} (hstart : pre start)
    (hpost : ∀ value state, rel start state → post value state → post' value state)
    (hfail : ∀ error state, rel start state → fail error state → fail' error state) :
    Triple (fun state => state = start) attempt post' fail' :=
  (h start).weaken (fun _ hstate => ⟨hstate, hstate ▸ hstart⟩)
    (fun value state hstate => hpost value state hstate.1 hstate.2)
    fun error state hstate => hfail error state hstate.1 hstate.2

theorem Triple.of_start
    (h : ∀ start, pre start → Triple (fun state => state = start) attempt post fail) :
    Triple pre attempt post fail := fun start hstart => h start hstart start rfl

theorem guarantee_observe {never : ε → σ → Prop} (h : Guarantee rel pre attempt post fail) :
    Guarantee rel pre (observe attempt) (Ends post fail) never := fun start =>
  (triple_observe (h start)).weaken (fun _ hstate => hstate)
    (fun result _ hstate => by cases result <;> exact hstate) fun _ _ hnever => hnever

theorem guarantee_settle {ε' : Type} {never : ε' → σ → Prop}
    (h : Guarantee rel pre attempt post fail) :
    Guarantee rel pre (settle attempt) (Ends post fail) never := fun start =>
  (triple_settle (h start)).weaken (fun _ hstate => hstate)
    (fun result _ hstate => by cases result <;> exact hstate) fun _ _ hnever => hnever

/-- A settled call whose outcome is not asked for only leaves its steps. -/
theorem Guarantee.settled {ε' : Type} {never : ε' → σ → Prop}
    (h : Guarantee rel (fun _ => True) attempt post fail) {start : σ} :
    Triple (fun state => state = start) (settle attempt) (fun _ now => rel start now) never :=
  (guarantee_settle h).triple trivial (fun _ _ hrel _ => hrel) fun _ _ _ hnever => hnever

theorem guarantee_mapError {ε' : Type} {rename : ε → ε'} {fail' : ε' → σ → Prop}
    (h : Guarantee rel pre attempt post fun error state => fail' (rename error) state) :
    Guarantee rel pre (mapError rename attempt) post fail' :=
  fun start => triple_mapError (h start)

section Preorder

variable [IsPreorder σ rel]

theorem guarantee_pure {value : α} (h : ∀ state, pre state → post value state) :
    Guarantee rel pre (pure value : Attempt σ ε α) post fail := fun _ =>
  triple_pure fun state hstate => ⟨hstate.1 ▸ refl_of rel state, h state hstate.2⟩

theorem guarantee_throw {error : ε} (h : ∀ state, pre state → fail error state) :
    Guarantee rel pre (throw error : Attempt σ ε α) post fail := fun _ =>
  triple_throw fun state hstate => ⟨hstate.1 ▸ refl_of rel state, h state hstate.2⟩

theorem guarantee_ofExcept {result : Except ε α}
    (hok : ∀ state value, pre state → result = .ok value → post value state)
    (herror : ∀ state error, pre state → result = .error error → fail error state) :
    Guarantee rel pre (ofExcept result) post fail := by
  cases result with
  | ok value => exact guarantee_pure fun state hpre => hok state value hpre rfl
  | error error => exact guarantee_throw fun state hpre => herror state error hpre rfl

theorem guarantee_look {read : σ → α} (h : ∀ state, pre state → post (read state) state) :
    Guarantee rel pre (look read : Attempt σ ε α) post fail := fun _ =>
  triple_look fun state hstate => ⟨hstate.1 ▸ refl_of rel state, h state hstate.2⟩

theorem guarantee_bind {middle : α → σ → Prop} {post : β → σ → Prop} {attempt : Attempt σ ε α}
    {next : α → Attempt σ ε β} (hfirst : Guarantee rel pre attempt middle fail)
    (hnext : ∀ value, Guarantee rel (middle value) (next value) post fail) :
    Guarantee rel pre (attempt >>= next) post fail := by
  intro start
  refine triple_bind (hfirst start) fun value state hstate => ?_
  refine ((hnext value state).weaken (fun _ h => h) ?_ ?_) state ⟨rfl, hstate.2⟩
  · exact fun result after hafter => ⟨trans_of rel hstate.1 hafter.1, hafter.2⟩
  · exact fun error after hafter => ⟨trans_of rel hstate.1 hafter.1, hafter.2⟩

theorem guarantee_andThen {post : β → σ → Prop} {attempt : Attempt σ ε α}
    {next : α → Attempt σ ε β} (hfirst : Guarantee rel pre attempt (fun _ => pre) fail)
    (hnext : ∀ value, Guarantee rel pre (next value) post fail) :
    Guarantee rel pre (attempt >>= next) post fail := guarantee_bind hfirst hnext

theorem guarantee_mapM {attempt : ι → Attempt σ ε α} {items : List ι}
    (h : ∀ item ∈ items, Guarantee rel pre (attempt item) (fun _ => pre) fail) :
    Guarantee rel pre (items.mapM attempt) (fun _ => pre) fail := by
  induction items <;> grind [guarantee_pure, guarantee_andThen]

end Preorder

end Attempt
