import Mathlib.Data.List.Basic

/-!
# A chain of tasks, each started when the one before has settled

`tail = tail.then(task)`: every task waits for the promise of the task before it,
and for nothing else.  The chain is the list of all tasks that were ever put on
it, with how far each one is.  Whoever keeps the tail of the chain keeps the
length it had then.

* A task may start when it is `ready`: it waits, and the task before it has
  settled.
* `Serial` says that before a task that has started, all tasks have settled.  It
  is kept by everything that may happen to a chain, and it is what makes the
  tasks run one at a time (`Serial.running_unique`).
* Who waits for a tail that has not settled finds a task before it that can go on
  (`exists_open`).
-/

namespace PromiseChain

/-- How far a task is, with the progress of one that runs. -/
inductive Status (ρ : Type) where
  | waiting
  | running (progress : ρ)
  | settled
  deriving DecidableEq, Repr

structure Link (τ ρ : Type) where
  task : τ
  status : Status ρ := .waiting
  deriving DecidableEq, Repr

variable {τ ρ : Type}

def Link.isSettled (link : Link τ ρ) : Bool :=
  match link.status with
  | .settled => true
  | _ => false

def Link.isWaiting (link : Link τ ρ) : Bool :=
  match link.status with
  | .waiting => true
  | _ => false

/-- Whether the promise that was the tail at this length has settled. -/
def settledUpTo (chain : List (Link τ ρ)) (tail : Nat) : Bool :=
  tail == 0 || (chain[tail - 1]?).any Link.isSettled

def ready (chain : List (Link τ ρ)) (place : Nat) : Bool :=
  (chain[place]?).any Link.isWaiting && settledUpTo chain place

/-- One more task, behind all others. -/
def enqueue (chain : List (Link τ ρ)) (task : τ) : List (Link τ ρ) :=
  chain ++ [⟨task, .waiting⟩]

def setStatus (chain : List (Link τ ρ)) (place : Nat) (status : Status ρ) : List (Link τ ρ) :=
  chain.modify place fun link => { link with status }

variable {link : Link τ ρ}

@[simp] theorem isSettled_iff :
    link.isSettled = true ↔ link.status = .settled := by
  unfold Link.isSettled
  split <;> simp_all

@[simp] theorem isWaiting_iff :
    link.isWaiting = true ↔ link.status = .waiting := by
  unfold Link.isWaiting
  split <;> simp_all

@[simp] theorem length_setStatus (chain : List (Link τ ρ)) (place : Nat) (status : Status ρ) :
    (setStatus chain place status).length = chain.length :=
  List.length_modify _ _ _

@[simp] theorem length_enqueue (chain : List (Link τ ρ)) (task : τ) :
    (enqueue chain task).length = chain.length + 1 := by
  simp [enqueue]

variable {chain : List (Link τ ρ)} {i place : Nat}

theorem getElem?_setStatus_cases {status : Status ρ}
    (hlink : (setStatus chain place status)[i]? = some link) :
    ∃ old, chain[i]? = some old ∧ link.task = old.task ∧
      (i = place ∧ link.status = status ∨ i ≠ place ∧ link = old) := by
  rw [setStatus, List.getElem?_modify] at hlink
  grind

theorem getElem?_setStatus_ne (hne : i ≠ place) (status : Status ρ) :
    (setStatus chain place status)[i]? = chain[i]? := by
  rw [setStatus, List.getElem?_modify]
  simp only [hne.symm, if_false]
  exact id_map' _

theorem getElem?_setStatus_self (hlink : chain[place]? = some link) (status : Status ρ) :
    (setStatus chain place status)[place]? = some { link with status } := by
  rw [setStatus, List.getElem?_modify_eq, hlink]
  rfl

theorem getElem?_enqueue_cases {task : τ} (hlink : (enqueue chain task)[i]? = some link) :
    chain[i]? = some link ∨ i = chain.length ∧ link = ⟨task, .waiting⟩ := by
  rw [enqueue] at hlink
  grind

theorem settledUpTo_succ :
    settledUpTo chain (place + 1) = true ↔
      ∃ link, chain[place]? = some link ∧ link.status = .settled := by
  simp [settledUpTo, Option.any_eq_true]

/-! ## One at a time -/

/-- Before a task that has started, all tasks have settled. -/
def Serial (chain : List (Link τ ρ)) : Prop :=
  ∀ ⦃i j : Nat⦄ ⦃first second : Link τ ρ⦄, i < j → chain[i]? = some first →
    chain[j]? = some second → second.status ≠ .waiting → first.status = .settled

namespace Serial

variable {chain : List (Link τ ρ)}

theorem nil : Serial ([] : List (Link τ ρ)) := by
  intro i j first second _ hfirst
  simp at hfirst

theorem enqueue (hserial : Serial chain) (task : τ) : Serial (enqueue chain task) := by
  intro i j first second hlt hfirst hsecond hstarted
  rcases getElem?_enqueue_cases hsecond with hold | ⟨-, rfl⟩
  · have hbound : j < chain.length := (List.getElem?_eq_some_iff.1 hold).1
    rw [PromiseChain.enqueue, List.getElem?_append_left (by omega)] at hfirst
    exact hserial hlt hfirst hold hstarted
  · exact absurd rfl hstarted

variable {link : Link τ ρ}

theorem settled_of_lt (hserial : Serial chain) {tail : Nat} (htail : settledUpTo chain tail = true)
    (hlt : i < tail) (hlink : chain[i]? = some link) : link.status = .settled := by
  obtain ⟨tail, rfl⟩ : ∃ n, tail = n + 1 := ⟨tail - 1, by omega⟩
  obtain ⟨last, hlast, hsettled⟩ := settledUpTo_succ.1 htail
  rcases Nat.lt_or_eq_of_le (Nat.le_of_lt_succ hlt) with hbefore | rfl
  · exact hserial hbefore hlink hlast (by rw [hsettled]; exact nofun)
  · rw [hlink] at hlast
    rw [Option.some.inj hlast, hsettled]

theorem settledUpTo_of_started (hserial : Serial chain) (hlink : chain[place]? = some link)
    (hstarted : link.status ≠ .waiting) : settledUpTo chain place = true := by
  cases place with
  | zero => rfl
  | succ place =>
    have hbound := (List.getElem?_eq_some_iff.1 hlink).1
    have hbefore : chain[place]? = some chain[place] := List.getElem?_eq_getElem (by omega)
    exact settledUpTo_succ.2
      ⟨_, hbefore, hserial (Nat.lt_succ_self place) hbefore hlink hstarted⟩

theorem setStatus (hserial : Serial chain) (hbefore : settledUpTo chain place = true)
    (hlink : chain[place]? = some link) (hopen : link.status ≠ .settled) (status : Status ρ) :
    Serial (setStatus chain place status) := by
  intro i j first second hlt hfirst hsecond hstarted
  obtain ⟨first', hfirst', -, hfirstCases⟩ := getElem?_setStatus_cases hfirst
  obtain ⟨second', hsecond', -, hsecondCases⟩ := getElem?_setStatus_cases hsecond
  rcases hsecondCases with ⟨rfl, -⟩ | ⟨-, rfl⟩
  · rcases hfirstCases with ⟨rfl, -⟩ | ⟨-, rfl⟩
    · omega
    · exact hserial.settled_of_lt hbefore hlt hfirst'
  · have hsettled := hserial hlt hfirst' hsecond' hstarted
    grind

theorem running_unique (hserial : Serial chain) {j : Nat} {first second : Link τ ρ} {p q : ρ}
    (hfirst : chain[i]? = some first) (hsecond : chain[j]? = some second)
    (hrunning : first.status = .running p) (hrunning' : second.status = .running q) : i = j := by
  rcases Nat.lt_trichotomy i j with hlt | heq | hgt
  · have := hserial hlt hfirst hsecond (by rw [hrunning']; exact nofun)
    rw [hrunning] at this
    cases this
  · exact heq
  · have := hserial hgt hsecond hfirst (by rw [hrunning]; exact nofun)
    rw [hrunning'] at this
    cases this

end Serial

/-! ## Going on -/

theorem exists_open {tail : Nat} (hbound : tail ≤ chain.length)
    (htail : settledUpTo chain tail = false) :
    ∃ place link, chain[place]? = some link ∧ link.status ≠ .settled ∧
      settledUpTo chain place = true := by
  induction tail with
  | zero => cases htail
  | succ tail ih =>
    cases hbefore : settledUpTo chain tail with
    | false => exact ih (by omega) hbefore
    | true =>
      have hlink : chain[tail]? = some chain[tail] := List.getElem?_eq_getElem (by omega)
      grind [settledUpTo_succ]

end PromiseChain
