import Mathlib
import MangoStudio.Lib.Correlation
import MangoStudio.Lib.Run

/-!
# Path locks

`PathLocks` of `crates/mangostudio-runtime/src/filesystem/freshness.rs`: a
shared table of one asynchronous mutex for each path in use.  An `acquire` call
takes the mutexes of its paths in order, and an entry that nobody uses any more
is removed by whoever looks last, which is decided by the reference count of
the mutex.

The state has the table, the mutexes that were ever allocated (a mutex is its
number, so `Arc::ptr_eq` is equality of numbers), and one task for each call of
`acquire` together with the guards it returned.  Tasks run one at a time
between two awaits.  An `acquire` call suspends only at the mutex of its next
path, and the events below cut it into pieces at least as fine.

* **Who uses a mutex.**  `Holds` and `Waits` say which tasks have a path, or
  stand in the queue of its mutex.  Each transition has one lemma that says
  what it does to the two.
* **The invariant** is `Sound`.  A mutex that somebody uses is the one in the
  table, so a path has one mutex at a time even when its entry comes and goes;
  and every entry is used, but for those in `loose`, which are the ones that
  the current transition still has to look at.
* **Waiting.**  A task that waits holds paths below the one it waits for only,
  so the wait-for relation goes up, and nobody waits for itself.
-/

namespace MangoStudio.Filesystem

open List Option AList

/-! ## The state -/

/-- A `tokio::sync::Mutex<()>`: whether it is locked, and who waits for it, in
order of arrival. -/
structure Mutex where
  locked : Bool := false
  queue : List Nat := []

/-- A path and the mutex that was found for it. -/
structure PathLock (π : Type) where
  path : π
  lock : Nat

/-- Where one `acquire` call is: before its next path, at the mutex of a path,
with its guards handed out, or over. -/
inductive Phase (π : Type) where
  | acquiring (held : List (PathLock π)) (rest : List π)
  | waiting (held : List (PathLock π)) (next : PathLock π) (rest : List π)
  | returned (held : List (PathLock π))
  | finished

variable {π : Type}

/-- The locked paths of a task. -/
def Phase.held : Phase π → List (PathLock π)
  | .acquiring held _ => held
  | .waiting held _ _ => held
  | .returned held => held
  | .finished => []

/-- What a task waits for. -/
def Phase.next : Phase π → Option (PathLock π)
  | .waiting _ next _ => some next
  | _ => none

/-- All paths of a task, those that it has not reached yet included. -/
def Phase.paths : Phase π → List π
  | .acquiring held rest => held.map PathLock.path ++ rest
  | .waiting held next rest => held.map PathLock.path ++ next.path :: rest
  | .returned held => held.map PathLock.path
  | .finished => []

structure Task (π : Type) where
  phase : Phase π
  cancelled : Bool := false

variable [LinearOrder π]

structure PathLocks (π : Type) [LinearOrder π] where
  table : Table π Nat := ∅
  locks : List Mutex := []
  tasks : List (Task π) := []

/-- The distinct paths in order. -/
def orderedPaths (paths : List π) : List π :=
  (paths.mergeSort fun a b => decide (a ≤ b)).destutter (· ≠ ·)

/-- The references that a task has to a mutex: a locked path keeps the mutex
and its guard, a waiting task the mutex and the future. -/
def Phase.references (phase : Phase π) (lock : Nat) : Nat :=
  2 * phase.held.countP (fun entry => entry.lock = lock) +
    if phase.next.map PathLock.lock = some lock then 2 else 0

namespace PathLocks

/-- `Arc::strong_count`, without the clones of the function that asks. -/
def strongCount (state : PathLocks π) (lock : Nat) : Nat :=
  state.table.entries.countP (fun entry => entry.2 = lock) +
    (state.tasks.map fun task => task.phase.references lock).sum

def setPhase (state : PathLocks π) (t : Nat) (phase : Phase π) : PathLocks π :=
  { state with tasks := state.tasks.modify t fun task => { task with phase } }

def updateLock (state : PathLocks π) (lock : Nat) (change : Mutex → Mutex) : PathLocks π :=
  { state with locks := state.locks.modify lock change }

/-- The mutex of a path, with a fresh one for a path that has none. -/
def lockFor (state : PathLocks π) (path : π) : PathLocks π × Nat :=
  match state.table.lookup path with
  | some lock => (state, lock)
  | none =>
    ({ state with
        table := state.table.insert path state.locks.length
        locks := state.locks ++ [{}] },
      state.locks.length)

/-- Removes the entry of a mutex if the table and the caller's own clones are
all that is left of it. -/
def removeIdle (state : PathLocks π) (clones : Nat) (entry : PathLock π) : PathLocks π :=
  if state.table.lookup entry.path = some entry.lock ∧
      state.strongCount entry.lock + clones = 2 then
    { state with table := state.table.erase entry.path }
  else state

/-- The loop of the drop, which has a clone of the mutex at hand and of those
still to come. -/
def removeReleased (state : PathLocks π) : List (PathLock π) → PathLocks π
  | [] => state
  | entry :: later =>
    (state.removeIdle (1 + later.countP fun other => other.lock = entry.lock) entry).removeReleased
      later

def unlockAll (state : PathLocks π) (released : List (PathLock π)) : PathLocks π :=
  released.foldl
    (fun state entry => state.updateLock entry.lock fun mutex => { mutex with locked := false })
    state

/-- Drops the guards of a task. -/
def dropGuards (state : PathLocks π) (t : Nat) (held : List (PathLock π)) : PathLocks π :=
  ((state.setPhase t .finished).unlockAll held).removeReleased held

/-- Stands in the queue of the mutex. -/
def wait (state : PathLocks π) (t : Nat) (held : List (PathLock π)) (next : PathLock π)
    (rest : List π) : PathLocks π :=
  (state.setPhase t (.waiting held next rest)).updateLock next.lock fun mutex =>
    { mutex with queue := mutex.queue ++ [t] }

/-- Leaves the queue. -/
def leave (state : PathLocks π) (t : Nat) (held : List (PathLock π)) (next : PathLock π) :
    PathLocks π :=
  (state.setPhase t (.acquiring held [])).updateLock next.lock fun mutex =>
    { mutex with queue := mutex.queue.erase t }

/-- Takes the mutex at the head of its queue. -/
def lock (state : PathLocks π) (t : Nat) (held : List (PathLock π)) (next : PathLock π)
    (rest : List π) : PathLocks π :=
  (state.setPhase t (.acquiring (held ++ [next]) rest)).updateLock next.lock fun mutex =>
    { locked := true, queue := mutex.queue.tail }

end PathLocks

/-- What can happen between two awaits: a call, a token that fires, a task that
goes on to its next path, one that gets its mutex, one that sees its token
while it waits, and a drop of returned guards. -/
inductive LockEvent (π : Type) where
  | acquire (paths : List π)
  | cancel (t : Nat)
  | advance (t : Nat)
  | grant (t : Nat)
  | stop (t : Nat)
  | drop (t : Nat)

namespace PathLocks

def phaseOf (state : PathLocks π) (t : Nat) : Option (Phase π) :=
  state.tasks[t]?.map Task.phase

def isCancelled (state : PathLocks π) (t : Nat) : Bool :=
  (state.tasks[t]?.map Task.cancelled).getD false

/-- The mutex is free and the task is the first in its queue. -/
def isNext (state : PathLocks π) (t lock : Nat) : Bool :=
  match state.locks[lock]? with
  | some mutex => !mutex.locked && mutex.queue.head? == some t
  | none => false

def step (state : PathLocks π) : LockEvent π → PathLocks π
  | .acquire paths =>
    { state with tasks := state.tasks ++ [{ phase := .acquiring [] (orderedPaths paths) }] }
  | .cancel t =>
    { state with tasks := state.tasks.modify t fun task => { task with cancelled := true } }
  | .advance t =>
    match state.phaseOf t with
    | some (.acquiring held []) => state.setPhase t (.returned held)
    | some (.acquiring held (path :: rest)) =>
      if state.isCancelled t then state.dropGuards t held
      else
        let found := state.lockFor path
        found.1.wait t held ⟨path, found.2⟩ rest
    | _ => state
  | .grant t =>
    match state.phaseOf t with
    | some (.waiting held next rest) =>
      if state.isNext t next.lock then state.lock t held next rest else state
    | _ => state
  | .stop t =>
    match state.phaseOf t with
    | some (.waiting held next _) =>
      if state.isCancelled t then
        ((state.leave t held next).removeIdle 1 next).dropGuards t held
      else state
    | _ => state
  | .drop t =>
    match state.phaseOf t with
    | some (.returned held) => state.dropGuards t held
    | _ => state

/-- The state after a list of events, from an empty table. -/
def after (events : List (LockEvent π)) : PathLocks π :=
  Run.run step {} events

end PathLocks

/-! ## Who uses a mutex -/

namespace PathLocks

/-- The task has locked the path. -/
def Holds (state : PathLocks π) (t : Nat) (entry : PathLock π) : Prop :=
  ∃ phase, state.phaseOf t = some phase ∧ entry ∈ phase.held

/-- The task waits for the path. -/
def Waits (state : PathLocks π) (t : Nat) (entry : PathLock π) : Prop :=
  ∃ phase, state.phaseOf t = some phase ∧ phase.next = some entry

variable {state : PathLocks π} {t u : Nat} {entry : PathLock π} {phase phase' : Phase π}

theorem phaseOf_setPhase (state : PathLocks π) (t u : Nat) (phase : Phase π) :
    (state.setPhase t phase).phaseOf u =
      if t = u then (state.phaseOf u).map fun _ => phase else state.phaseOf u := by
  grind [phaseOf, setPhase]

theorem phaseOf_setPhase_self (hphase : state.phaseOf t = some phase) :
    (state.setPhase t phase').phaseOf t = some phase' := by
  rw [phaseOf_setPhase, if_pos rfl, hphase, map_some]

theorem phaseOf_setPhase_of_ne (hne : u ≠ t) :
    (state.setPhase t phase').phaseOf u = state.phaseOf u := by
  rw [phaseOf_setPhase, if_neg (Ne.symm hne)]

theorem holds_of_phaseOf (hphase : state.phaseOf t = some phase) :
    state.Holds t entry ↔ entry ∈ phase.held := by
  simp [Holds, hphase]

theorem waits_of_phaseOf (hphase : state.phaseOf t = some phase) :
    state.Waits t entry ↔ phase.next = some entry := by
  simp [Waits, hphase]

theorem holds_of_ne {after : PathLocks π} (hother : after.phaseOf u = state.phaseOf u) :
    after.Holds u entry ↔ state.Holds u entry := by
  unfold Holds
  rw [hother]

theorem waits_of_ne {after : PathLocks π} (hother : after.phaseOf u = state.phaseOf u) :
    after.Waits u entry ↔ state.Waits u entry := by
  unfold Waits
  rw [hother]

end PathLocks

/-! ## The invariant -/

open PathLocks

structure Sound (loose : List (PathLock π)) (state : PathLocks π) : Prop where
  /-- A mutex in use is the one of its path. -/
  owned : ∀ t entry, state.Holds t entry ∨ state.Waits t entry →
    state.table.lookup entry.path = some entry.lock
  /-- Different paths have different mutexes. -/
  distinct : ∀ p q lock, state.table.lookup p = some lock → state.table.lookup q = some lock →
    p = q
  allocated : ∀ p lock, state.table.lookup p = some lock → lock < state.locks.length
  /-- Every entry is in use. -/
  live : ∀ entry : PathLock π, state.table.lookup entry.path = some entry.lock →
    entry ∈ loose ∨ ∃ t, state.Holds t entry ∨ state.Waits t entry
  ordered : ∀ t phase, state.phaseOf t = some phase → phase.paths.Pairwise (· < ·)
  locked : ∀ (lock : Nat) mutex, state.locks[lock]? = some mutex →
    (mutex.locked = true ↔ ∃ t entry, state.Holds t entry ∧ entry.lock = lock)
  exclusive : ∀ t u entry other, state.Holds t entry → state.Holds u other →
    entry.lock = other.lock → t = u
  queued : ∀ (lock : Nat) mutex, state.locks[lock]? = some mutex → ∀ t,
    t ∈ mutex.queue ↔ ∃ entry, state.Waits t entry ∧ entry.lock = lock
  nodup : ∀ (lock : Nat) mutex, state.locks[lock]? = some mutex → mutex.queue.Nodup

variable {state : PathLocks π} {t : Nat} {entry : PathLock π} {loose : List (PathLock π)}

theorem Sound.mono {more : List (PathLock π)} (h : Sound loose state)
    (hsub : ∀ entry ∈ loose, entry ∈ more) : Sound more state :=
  { h with live := fun entry hlookup => (h.live entry hlookup).imp_left (hsub entry) }

/-! ### Idle entries -/

theorem sum_references_eq_zero_iff {lock : Nat} :
    (state.tasks.map fun task => task.phase.references lock).sum = 0 ↔
      ∀ t entry, state.Holds t entry ∨ state.Waits t entry → entry.lock ≠ lock := by
  have hphase : ∀ phase : Phase π, phase.references lock = 0 ↔
      (∀ entry ∈ phase.held, entry.lock ≠ lock) ∧
        ∀ entry, phase.next = some entry → entry.lock ≠ lock := by
    intro phase
    unfold Phase.references
    rw [Nat.add_eq_zero_iff, Nat.mul_eq_zero, countP_eq_zero]
    cases hnext : phase.next with
    | none | some => simp
  rw [List.sum_eq_zero_iff_forall_eq_nat]
  simp only [List.mem_map, forall_exists_index, and_imp, forall_apply_eq_imp_iff₂]
  constructor
  · intro hzero t entry huse
    rcases huse with ⟨phase, hof, hheld⟩ | ⟨phase, hof, hnext⟩
    · obtain ⟨task, htask, rfl⟩ := map_eq_some_iff.mp hof
      exact ((hphase _).mp (hzero task (mem_of_getElem? htask))).1 entry hheld
    · obtain ⟨task, htask, rfl⟩ := map_eq_some_iff.mp hof
      exact ((hphase _).mp (hzero task (mem_of_getElem? htask))).2 entry hnext
  · intro huse task hmem
    obtain ⟨t, htask⟩ := mem_iff_getElem?.mp hmem
    have hof : state.phaseOf t = some task.phase := by
      rw [PathLocks.phaseOf, htask, map_some]
    rw [hphase]
    exact ⟨fun entry hheld => huse t entry (.inl ⟨_, hof, hheld⟩),
      fun entry hnext => huse t entry (.inr ⟨_, hof, hnext⟩)⟩

theorem Sound.countP_table (h : Sound loose state) {path : π} {lock : Nat}
    (hlookup : state.table.lookup path = some lock) :
    state.table.entries.countP (fun entry => entry.2 = lock) = 1 := by
  have hsingle : state.table.entries.filter (fun entry => entry.2 = lock) = [⟨path, lock⟩] := by
    apply filter_eq_singleton state.table.nodupKeys.nodup (Table.mem_entries_iff.mpr hlookup)
    grind [Table.mem_entries_iff, cases Sound]
  rw [countP_eq_length_filter, hsingle, length_singleton]

theorem Sound.strongCount_iff (h : Sound loose state)
    (hlookup : state.table.lookup entry.path = some entry.lock) :
    state.strongCount entry.lock + 1 = 2 ↔
      ∀ t other, state.Holds t other ∨ state.Waits t other → other.lock ≠ entry.lock := by
  rw [← sum_references_eq_zero_iff, PathLocks.strongCount, h.countP_table hlookup]
  omega

theorem Sound.removeIdle (h : Sound (entry :: loose) state)
    (hlookup : state.table.lookup entry.path = some entry.lock) :
    Sound loose (state.removeIdle 1 entry) := by
  unfold PathLocks.removeIdle
  split_ifs with hidle
  · have hunused := (h.strongCount_iff hlookup).mp hidle.2
    have hother : ∀ p lock, (state.table.erase entry.path).lookup p = some lock →
        state.table.lookup p = some lock ∧ p ≠ entry.path := by
      grind [lookup_erase, lookup_erase_ne]
    refine { h with owned := ?_, distinct := ?_, allocated := ?_, live := ?_ }
    · intro t other huse
      have howned := h.owned t other huse
      have hpath : other.path ≠ entry.path := by
        intro hpath
        rw [hpath, hlookup, some.injEq] at howned
        exact hunused t other huse howned.symm
      show (state.table.erase entry.path).lookup other.path = some other.lock
      rw [lookup_erase_ne hpath]
      exact howned
    · intro p q lock hp hq
      exact h.distinct p q lock (hother p lock hp).1 (hother q lock hq).1
    · intro p lock hp
      exact h.allocated p lock (hother p lock hp).1
    · intro other hp
      obtain ⟨hbefore, hpath⟩ := hother other.path other.lock hp
      rcases h.live other hbefore with hloose | huse
      · rcases mem_cons.mp hloose with rfl | hloose
        · exact absurd rfl hpath
        · exact .inl hloose
      · exact .inr huse
  · refine { h with live := ?_ }
    intro other hp
    rcases h.live other hp with hloose | huse
    · rcases mem_cons.mp hloose with rfl | hloose
      · right
        by_contra hnone
        refine hidle ⟨hlookup, (h.strongCount_iff hlookup).mpr ?_⟩
        intro t user huser hlock
        have hpath := h.distinct _ _ _ (h.owned t user huser) (hlock ▸ hlookup)
        have hsame : user = other := by
          cases user
          cases other
          simp_all
        exact hnone ⟨t, hsame ▸ huser⟩
      · exact .inl hloose
    · exact .inr huse

/-! ### The transitions -/

theorem removeIdle_table (state : PathLocks π) (clones : Nat) {path : π}
    (hpath : path ≠ entry.path) :
    (state.removeIdle clones entry).table.lookup path = state.table.lookup path := by
  unfold PathLocks.removeIdle
  split_ifs
  · exact lookup_erase_ne hpath
  · rfl

/-- The loop of the drop: the entries that it has not looked at yet are the
loose ones, and different entries have different mutexes. -/
theorem Sound.removeReleased {todo : List (PathLock π)} (h : Sound todo state)
    (hpaths : (todo.map PathLock.path).Nodup)
    (hlookup : ∀ entry ∈ todo, state.table.lookup entry.path = some entry.lock) :
    Sound [] (state.removeReleased todo) := by
  induction todo generalizing state with
  | nil => exact h
  | cons entry todo ih =>
    rw [map_cons, nodup_cons] at hpaths
    have hne : ∀ other ∈ todo, other.path ≠ entry.path := fun other hother heq =>
      hpaths.1 (heq ▸ mem_map_of_mem hother)
    have hclones : (todo.countP fun other => other.lock = entry.lock) = 0 := by
      grind [cases Sound]
    rw [PathLocks.removeReleased, hclones]
    grind [Sound.removeIdle, removeIdle_table]

theorem unlockAll_eq (state : PathLocks π) (released : List (PathLock π)) :
    state.unlockAll released =
      { state with
        locks := released.foldl
          (fun locks entry => locks.modify entry.lock fun mutex => { mutex with locked := false })
          state.locks } := by
  induction released generalizing state with
  | nil => rfl
  | cons entry released ih =>
    rw [PathLocks.unlockAll, foldl_cons]
    exact ih _

theorem getElem?_unlockAll (state : PathLocks π) (released : List (PathLock π)) (lock : Nat) :
    (state.unlockAll released).locks[lock]? = state.locks[lock]?.map fun mutex =>
      { mutex with locked := mutex.locked && !released.any fun entry => entry.lock = lock } := by
  have hfold : ∀ (entries : List (PathLock π)) (mutex : Mutex),
      entries.foldl (fun mutex _ => { mutex with locked := false }) mutex =
        { mutex with locked := mutex.locked && entries.isEmpty } := by
    intro entries mutex
    induction entries generalizing mutex with
    | nil => simp
    | cons entry entries ih => simp [ih]
  rw [unlockAll_eq]
  show (released.foldl _ state.locks)[lock]? = _
  rw [getElem?_foldl_modify PathLock.lock]
  congr 1
  funext mutex
  rw [hfold]
  congr 2
  rw [Bool.eq_iff_iff]
  simp [filter_eq_nil_iff]

theorem getElem?_updateLock {lock : Nat} {change : Mutex → Mutex} {n : Nat} {mutex : Mutex}
    (hmutex : (state.updateLock lock change).locks[n]? = some mutex) :
    ∃ before, state.locks[n]? = some before ∧
      mutex = if lock = n then change before else before := by
  rw [PathLocks.updateLock, getElem?_modify] at hmutex
  obtain ⟨before, hbefore, hsame⟩ := map_eq_some_iff.mp hmutex
  exact ⟨before, hbefore, hsame.symm⟩

section

variable {u : Nat} {phase phase' : Phase π} {after : PathLocks π}
  (hphase : state.phaseOf t = some phase)
  (hafter : ∀ u, after.phaseOf u = (state.setPhase t phase').phaseOf u)

include hphase hafter

theorem holds_setPhase :
    after.Holds u entry ↔ (u = t ∧ entry ∈ phase'.held) ∨ (u ≠ t ∧ state.Holds u entry) := by
  grind [phaseOf_setPhase_self, holds_of_phaseOf, holds_of_ne, phaseOf_setPhase_of_ne]

theorem waits_setPhase :
    after.Waits u entry ↔
      (u = t ∧ phase'.next = some entry) ∨ (u ≠ t ∧ state.Waits u entry) := by
  grind [phaseOf_setPhase_self, waits_of_phaseOf, waits_of_ne, phaseOf_setPhase_of_ne]

end

/-- A mutex after the task `t` went from `phase` to `phase'`: locked if `t` has it now, or if
somebody had it and that was not `t`; and `t` stands in the queue exactly if it waits. -/
structure Hands (t : Nat) (phase phase' : Phase π) (lock : Nat) (before after : Mutex) : Prop where
  locked : after.locked = true ↔ (∃ entry ∈ phase'.held, entry.lock = lock) ∨
    before.locked = true ∧ ∀ entry ∈ phase.held, entry.lock ≠ lock
  queued : ∀ u, u ∈ after.queue ↔
    u = t ∧ (∃ entry, phase'.next = some entry ∧ entry.lock = lock) ∨ u ≠ t ∧ u ∈ before.queue
  nodup : after.queue.Nodup

/-- The rule for a transition of one task that leaves the table as it is.  What the task uses
is in the table, what it uses no longer is loose, and what it locks anew was free. -/
theorem Sound.transition {loose' : List (PathLock π)} {phase phase' : Phase π}
    {after : PathLocks π} (h : Sound loose state) (hphase : state.phaseOf t = some phase)
    (hafter : ∀ u, after.phaseOf u = (state.setPhase t phase').phaseOf u)
    (htable : after.table = state.table) (hlength : state.locks.length ≤ after.locks.length)
    (hpaths : phase'.paths.Pairwise (· < ·))
    (howned : ∀ entry, entry ∈ phase'.held ∨ phase'.next = some entry →
      state.table.lookup entry.path = some entry.lock)
    (hlive : ∀ entry, entry ∈ loose ∨ entry ∈ phase.held ∨ phase.next = some entry →
      entry ∈ loose' ∨ entry ∈ phase'.held ∨ phase'.next = some entry)
    (hfree : ∀ entry ∈ phase'.held, entry ∈ phase.held ∨
      ∀ u other, state.Holds u other → other.lock ≠ entry.lock)
    (hmutex : ∀ (lock : Nat) mutex, after.locks[lock]? = some mutex → ∃ before,
      state.locks[lock]? = some before ∧ Hands t phase phase' lock before mutex) :
    Sound loose' after := by
  have hholds : ∀ u entry, after.Holds u entry ↔
      (u = t ∧ entry ∈ phase'.held) ∨ (u ≠ t ∧ state.Holds u entry) :=
    fun _ _ => holds_setPhase hphase hafter
  have hwaits : ∀ u entry, after.Waits u entry ↔
      (u = t ∧ phase'.next = some entry) ∨ (u ≠ t ∧ state.Waits u entry) :=
    fun _ _ => waits_setPhase hphase hafter
  have hown : ∀ entry, state.Holds t entry ↔ entry ∈ phase.held := fun _ => holds_of_phaseOf hphase
  have hnext : ∀ entry, state.Waits t entry ↔ phase.next = some entry :=
    fun _ => waits_of_phaseOf hphase
  refine ⟨?_, htable ▸ h.distinct, ?_, ?_, ?_, ?_, ?_, ?_, ?_⟩
  · grind [cases Sound]
  · rw [htable]
    exact fun p lock hp => lt_of_lt_of_le (h.allocated p lock hp) hlength
  · grind [cases Sound]
  · grind [phaseOf_setPhase_self, phaseOf_setPhase_of_ne, cases Sound]
  · intro lock mutex hof
    obtain ⟨before, hbefore, hhands⟩ := hmutex lock mutex hof
    have hiff := h.locked lock before hbefore
    have hexclusive := h.exclusive
    rw [hhands.locked, hiff]
    grind
  · have hexclusive := h.exclusive
    grind
  · intro lock mutex hof u
    obtain ⟨before, hbefore, hhands⟩ := hmutex lock mutex hof
    have hiff := h.queued lock before hbefore u
    rw [hhands.queued]
    grind
  · intro lock mutex hof
    obtain ⟨_, _, hhands⟩ := hmutex lock mutex hof
    exact hhands.nodup

section

variable {phase : Phase π} (h : Sound loose state) (hphase : state.phaseOf t = some phase)

include h hphase

theorem Sound.owned_of_phase (entry : PathLock π)
    (huse : entry ∈ phase.held ∨ phase.next = some entry) :
    state.table.lookup entry.path = some entry.lock := by
  rw [← holds_of_phaseOf hphase, ← waits_of_phaseOf hphase] at huse
  exact h.owned t entry huse

theorem Sound.mutex_of_phase {lock : Nat} {mutex : Mutex} (hmutex : state.locks[lock]? = some mutex) :
    ((∃ entry ∈ phase.held, entry.lock = lock) → mutex.locked = true) ∧
      (t ∈ mutex.queue ↔ ∃ entry, phase.next = some entry ∧ entry.lock = lock) ∧
      mutex.queue.Nodup := by
  refine ⟨fun ⟨entry, hheld, hlock⟩ => ?_, ?_, h.nodup lock mutex hmutex⟩
  · exact (h.locked lock mutex hmutex).mpr ⟨t, entry, (holds_of_phaseOf hphase).mpr hheld, hlock⟩
  · simp only [h.queued lock mutex hmutex, waits_of_phaseOf hphase]

end

theorem Sound.release (h : Sound [] state) {phase : Phase π}
    (hphase : state.phaseOf t = some phase) (hnext : phase.next = none) :
    Sound phase.held ((state.setPhase t .finished).unlockAll phase.held) := by
  have hlocks := getElem?_unlockAll (state.setPhase t .finished) phase.held
  have hlength := hlocks ((state.setPhase t .finished).unlockAll phase.held).locks.length
  rw [getElem?_eq_none (Nat.le_refl _), eq_comm, map_eq_none_iff,
    getElem?_eq_none_iff] at hlength
  refine h.transition hphase (fun u => by rw [unlockAll_eq]; rfl) (by rw [unlockAll_eq]; rfl)
    hlength .nil (by simp [Phase.held, Phase.next]) (by simp +contextual [hnext])
    (by simp [Phase.held]) ?_
  intro lock mutex hmutex
  rw [hlocks] at hmutex
  obtain ⟨before, hbefore, rfl⟩ := map_eq_some_iff.mp hmutex
  obtain ⟨-, hqueued, hnodup⟩ := h.mutex_of_phase hphase hbefore
  refine ⟨before, hbefore, ?_, ?_, hnodup⟩
  · simp [Phase.held]
  · grind [Phase.next]

variable {held : List (PathLock π)} {next : PathLock π}

theorem Sound.wait {rest : List π} (h : Sound [next] state)
    (hphase : state.phaseOf t = some (.acquiring held (next.path :: rest)))
    (hlookup : state.table.lookup next.path = some next.lock) :
    Sound [] (state.wait t held next rest) := by
  have howned := h.owned_of_phase hphase
  have hordered := h.ordered t (.acquiring held (next.path :: rest)) hphase
  refine h.transition hphase (fun _ => rfl) rfl (length_modify ..).ge hordered ?_ ?_
    (fun entry hheld => .inl hheld) ?_
  · grind [Phase.held, Phase.next]
  · grind [Phase.held, Phase.next]
  · intro lock mutex hmutex
    obtain ⟨before, hbefore, rfl⟩ := getElem?_updateLock hmutex
    obtain ⟨hlocked, hqueued, hnodup⟩ := h.mutex_of_phase hphase hbefore
    refine ⟨before, hbefore, ?_, ?_, ?_⟩
    all_goals grind [Phase.held, Phase.next]

section

variable {rest : List π} (h : Sound [] state)
  (hphase : state.phaseOf t = some (.waiting held next rest))

include h hphase

theorem Sound.leave : Sound [next] (state.leave t held next) := by
  have hordered := (pairwise_append.mp (h.ordered t _ hphase)).1
  refine h.transition hphase (fun _ => rfl) rfl (length_modify ..).ge ?_
    (fun entry huse => h.owned_of_phase hphase entry (.inl ?_)) ?_
    (fun entry hheld => .inl hheld) ?_
  · rw [Phase.paths, append_nil]
    exact hordered
  · exact huse.resolve_right (by simp [Phase.next])
  · simp [Phase.held, Phase.next, or_comm, eq_comm]
  · intro lock mutex hmutex
    obtain ⟨before, hbefore, rfl⟩ := getElem?_updateLock hmutex
    obtain ⟨hlocked, hqueued, hnodup⟩ := h.mutex_of_phase hphase hbefore
    refine ⟨before, hbefore, ?_, ?_, ?_⟩
    · grind [Phase.held]
    · grind [Phase.next]
    · grind

theorem Sound.lock (hnext : state.isNext t next.lock = true) :
    Sound [] (state.lock t held next rest) := by
  obtain ⟨free, hfree, hunlocked, hhead⟩ : ∃ mutex, state.locks[next.lock]? = some mutex ∧
      mutex.locked = false ∧ mutex.queue.head? = some t := by
    grind [PathLocks.isNext]
  -- nobody holds a mutex that is free
  have hnobody : ∀ u entry, state.Holds u entry → entry.lock ≠ next.lock := by
    grind [cases Sound]
  obtain ⟨later, hqueue⟩ : ∃ later, free.queue = t :: later := head?_eq_some_iff.mp hhead
  have howned := h.owned_of_phase hphase
  refine h.transition hphase (fun _ => rfl) rfl (length_modify ..).ge ?_ ?_ ?_ ?_ ?_
  · rw [Phase.paths, map_append, append_assoc]
    exact h.ordered t _ hphase
  · grind [Phase.held, Phase.next]
  · grind [Phase.held, Phase.next]
  · grind [Phase.held]
  · intro lock mutex hmutex
    obtain ⟨before, hbefore, rfl⟩ := getElem?_updateLock hmutex
    obtain ⟨hlocked, hqueued, hnodup⟩ := h.mutex_of_phase hphase hbefore
    refine ⟨before, hbefore, ?_, fun u => ?_, ?_⟩
    · grind [Phase.held]
    · by_cases hlock : next.lock = lock
      · subst hlock
        obtain rfl : free = before := some.inj (hfree.symm.trans hbefore)
        grind [Phase.next]
      · grind [Phase.next]
    · grind

end

omit [LinearOrder π] in
theorem Phase.paths_eq (phase : Phase π) :
    ∃ rest, phase.paths = phase.held.map PathLock.path ++ rest := by
  cases phase with
  | acquiring held rest => exact ⟨rest, rfl⟩
  | waiting held next rest => exact ⟨next.path :: rest, rfl⟩
  | returned held => exact ⟨[], (append_nil _).symm⟩
  | finished => exact ⟨[], rfl⟩

theorem Sound.nodup_held (h : Sound loose state) {phase : Phase π}
    (hphase : state.phaseOf t = some phase) : (phase.held.map PathLock.path).Nodup := by
  obtain ⟨rest, hrest⟩ := phase.paths_eq
  grind [cases Sound]

theorem Sound.dropGuards (h : Sound [] state) {phase : Phase π}
    (hphase : state.phaseOf t = some phase) (hnext : phase.next = none) :
    Sound [] (state.dropGuards t phase.held) := by
  refine (h.release hphase hnext).removeReleased (h.nodup_held hphase) ?_
  intro entry hentry
  rw [unlockAll_eq]
  exact h.owned_of_phase hphase entry (.inl hentry)

theorem Sound.allocate (h : Sound [] state) {path : π} (hlookup : state.table.lookup path = none) :
    Sound [⟨path, state.locks.length⟩]
      { state with
        table := state.table.insert path state.locks.length
        locks := state.locks ++ [{}] } := by
  have hnew : ∀ p lock, (state.table.insert path state.locks.length).lookup p = some lock →
      (p = path ∧ lock = state.locks.length) ∨ state.table.lookup p = some lock := by
    grind [lookup_insert, lookup_insert_ne]
  have hfresh : ∀ t entry, state.Holds t entry ∨ state.Waits t entry → entry.path ≠ path := by
    intro t entry huse hpath
    have howned := h.owned t entry huse
    rw [hpath, hlookup] at howned
    cases howned
  have hunused : ∀ t entry, state.Holds t entry ∨ state.Waits t entry →
      entry.lock ≠ state.locks.length := fun t entry huse =>
    Nat.ne_of_lt (h.allocated _ _ (h.owned t entry huse))
  refine ⟨?_, ?_, ?_, ?_, h.ordered, ?_, h.exclusive, ?_, ?_⟩
  · intro t entry huse
    show (state.table.insert path state.locks.length).lookup entry.path = some entry.lock
    rw [lookup_insert_ne (hfresh t entry huse)]
    exact h.owned t entry huse
  · grind [cases Sound]
  · grind [cases Sound]
  · intro entry hentry
    rcases hnew entry.path entry.lock hentry with ⟨hpath, hlock⟩ | hold
    · left
      rw [mem_singleton, ← hpath, ← hlock]
    · rcases h.live entry hold with hloose | huse
      · exact absurd hloose not_mem_nil
      · exact .inr huse
  · intro lock mutex hmutex
    rcases getElem?_concat_eq_some.mp hmutex with hold | ⟨rfl, rfl⟩
    · exact h.locked lock mutex hold
    · refine ⟨fun hlocked => absurd hlocked Bool.false_ne_true, ?_⟩
      rintro ⟨t, entry, hheld, hlock⟩
      exact absurd hlock (hunused t entry (.inl hheld))
  · intro lock mutex hmutex t
    rcases getElem?_concat_eq_some.mp hmutex with hold | ⟨rfl, rfl⟩
    · exact h.queued lock mutex hold t
    · refine ⟨fun hmem => absurd hmem not_mem_nil, ?_⟩
      rintro ⟨entry, hwait, hlock⟩
      exact absurd hlock (hunused t entry (.inr hwait))
  · grind [cases Sound]

theorem Sound.lockFor (h : Sound [] state) (path : π) :
    Sound [⟨path, (state.lockFor path).2⟩] (state.lockFor path).1 ∧
      (state.lockFor path).1.table.lookup path = some (state.lockFor path).2 := by
  grind [lockFor, Sound.mono, Sound.allocate, lookup_insert]

/-! ### Every event -/

theorem pairwise_orderedPaths (paths : List π) : (orderedPaths paths).Pairwise (· < ·) := by
  have hsorted : (paths.mergeSort fun a b => decide (a ≤ b)).Pairwise (· ≤ ·) := by
    grind [pairwise_mergeSort]
  have hle : (orderedPaths paths).IsChain (· ≤ ·) :=
    (hsorted.sublist (destutter_sublist _ _)).isChain
  have hne : (orderedPaths paths).IsChain (· ≠ ·) := isChain_destutter _ _
  grind [isChain_iff_getElem]

theorem Sound.congr {after : PathLocks π} (h : Sound loose state)
    (hholds : ∀ t entry, after.Holds t entry ↔ state.Holds t entry)
    (hwaits : ∀ t entry, after.Waits t entry ↔ state.Waits t entry)
    (hordered : ∀ t phase, after.phaseOf t = some phase → phase.paths.Pairwise (· < ·))
    (htable : after.table = state.table) (hlocks : after.locks = state.locks) :
    Sound loose after := by
  refine ⟨?_, ?_, ?_, ?_, hordered, ?_, ?_, ?_, ?_⟩
  all_goals grind [cases Sound]

theorem Sound.acquire (h : Sound [] state) (paths : List π) :
    Sound [] (state.step (.acquire paths)) := by
  have hphaseOf : ∀ t phase, (state.step (.acquire paths)).phaseOf t = some phase →
      state.phaseOf t = some phase ∨ phase = .acquiring [] (orderedPaths paths) := by
    intro t phase hphase
    obtain ⟨task, htask, rfl⟩ := map_eq_some_iff.mp hphase
    rcases getElem?_concat_eq_some.mp htask with hold | ⟨-, rfl⟩
    · left
      rw [PathLocks.phaseOf, hold, map_some]
    · exact .inr rfl
  have hkept : ∀ t phase, state.phaseOf t = some phase →
      (state.step (.acquire paths)).phaseOf t = some phase := by
    intro t phase hphase
    obtain ⟨task, htask, rfl⟩ := map_eq_some_iff.mp hphase
    show ((state.tasks ++ [_])[t]?).map Task.phase = _
    rw [getElem?_concat_eq_some.mpr (.inl htask), map_some]
  refine h.congr ?_ ?_ ?_ rfl rfl
  · intro t entry
    constructor
    · rintro ⟨phase, hphase, hheld⟩
      rcases hphaseOf t phase hphase with hold | rfl
      · exact ⟨phase, hold, hheld⟩
      · exact absurd hheld not_mem_nil
    · rintro ⟨phase, hphase, hheld⟩
      exact ⟨phase, hkept t phase hphase, hheld⟩
  · intro t entry
    constructor
    · rintro ⟨phase, hphase, hnext⟩
      rcases hphaseOf t phase hphase with hold | rfl
      · exact ⟨phase, hold, hnext⟩
      · cases hnext
    · rintro ⟨phase, hphase, hnext⟩
      exact ⟨phase, hkept t phase hphase, hnext⟩
  · intro t phase hphase
    rcases hphaseOf t phase hphase with hold | rfl
    · exact h.ordered t phase hold
    · exact pairwise_orderedPaths paths

theorem Sound.cancel (h : Sound [] state) (t : Nat) : Sound [] (state.step (.cancel t)) := by
  have hphaseOf : ∀ u, (state.step (.cancel t)).phaseOf u = state.phaseOf u := by
    intro u
    show ((state.tasks.modify t _)[u]?).map Task.phase = _
    rw [getElem?_modify, PathLocks.phaseOf]
    grind
  refine h.congr (fun u _ => holds_of_ne (hphaseOf u)) (fun u _ => waits_of_ne (hphaseOf u)) ?_
    rfl rfl
  intro u phase hphase
  rw [hphaseOf] at hphase
  exact h.ordered u phase hphase

theorem Sound.return (h : Sound [] state) (hphase : state.phaseOf t = some (.acquiring held [])) :
    Sound [] (state.setPhase t (.returned held)) := by
  have howned := h.owned_of_phase hphase
  have hordered : (held.map PathLock.path ++ []).Pairwise (· < ·) := h.ordered t _ hphase
  rw [append_nil] at hordered
  refine h.transition hphase (fun _ => rfl) rfl (Nat.le_refl _) hordered ?_ ?_
    (fun entry hheld => .inl hheld) ?_
  · grind [Phase.held, Phase.next]
  · grind [Phase.held, Phase.next]
  · intro lock mutex hmutex
    obtain ⟨hlocked, hqueued, hnodup⟩ := h.mutex_of_phase hphase hmutex
    refine ⟨mutex, hmutex, ?_, ?_, hnodup⟩
    all_goals grind [Phase.held, Phase.next]

theorem phaseOf_lockFor (state : PathLocks π) (path : π) (t : Nat) :
    (state.lockFor path).1.phaseOf t = state.phaseOf t := by
  unfold PathLocks.lockFor
  split <;> rfl

theorem phaseOf_removeIdle (state : PathLocks π) (clones : Nat) (entry : PathLock π) (t : Nat) :
    (state.removeIdle clones entry).phaseOf t = state.phaseOf t := by
  unfold PathLocks.removeIdle
  split_ifs <;> rfl

theorem Sound.advance (h : Sound [] state) (t : Nat) : Sound [] (state.step (.advance t)) := by
  simp only [PathLocks.step]
  split
  · rename_i held hphase
    exact h.return hphase
  · rename_i held path rest hphase
    split_ifs
    · exact h.dropGuards hphase rfl
    · obtain ⟨hfound, hlookup⟩ := h.lockFor path
      refine hfound.wait ?_ hlookup
      rw [phaseOf_lockFor]
      exact hphase
  · exact h

theorem Sound.stop (h : Sound [] state) (t : Nat) : Sound [] (state.step (.stop t)) := by
  simp only [PathLocks.step]
  split
  · rename_i held next rest hphase
    split_ifs
    · have hlookup := h.owned t next (.inr ((waits_of_phaseOf hphase).mpr rfl))
      have hleft := (h.leave hphase).removeIdle hlookup
      have hphase' : ((state.leave t held next).removeIdle 1 next).phaseOf t =
          some (.acquiring held []) := by
        rw [phaseOf_removeIdle]
        exact phaseOf_setPhase_self hphase
      exact hleft.dropGuards hphase' rfl
    · exact h
  · exact h

theorem Sound.step (h : Sound [] state) (event : LockEvent π) : Sound [] (state.step event) := by
  cases event with
  | acquire paths => exact h.acquire paths
  | cancel t => exact h.cancel t
  | advance t => exact h.advance t
  | grant t =>
    grind [step, Sound.lock]
  | stop t => exact h.stop t
  | drop t =>
    simp only [PathLocks.step]
    split
    · rename_i held hphase
      exact h.dropGuards hphase rfl
    · exact h

theorem Sound.after (events : List (LockEvent π)) : Sound [] (PathLocks.after events) := by
  have hnone : ∀ t entry, ¬ ({} : PathLocks π).Holds t entry ∧ ¬ ({} : PathLocks π).Waits t entry := by
    intro t entry
    constructor <;> rintro ⟨phase, hphase, -⟩ <;> cases hphase
  refine Run.run_invariant (fun _ event h => h.step event) ?_ events
  refine ⟨?_, ?_, ?_, ?_, ?_, ?_, ?_, ?_, ?_⟩
  · exact fun t entry huse => absurd huse (by simp [hnone])
  · intro p q lock hp
    cases hp
  · intro p lock hp
    cases hp
  · intro entry hentry
    cases hentry
  · intro t phase hphase
    cases hphase
  · intro lock mutex hmutex
    simp at hmutex
  · exact fun t u entry other hheld => absurd hheld (hnone t entry).1
  · intro lock mutex hmutex
    simp at hmutex
  · intro lock mutex hmutex
    simp at hmutex

/-! ## Waiting -/

/-- The place of a task in the queue of a mutex. -/
def PathLocks.position (state : PathLocks π) (lock t : Nat) : Nat :=
  match state.locks[lock]? with
  | some mutex => mutex.queue.idxOf t
  | none => 0

/-- `t` waits for a mutex that `u` holds, or in whose queue `u` is ahead. -/
def WaitsFor (state : PathLocks π) (t u : Nat) : Prop :=
  ∃ entry, state.Waits t entry ∧
    ((∃ held, state.Holds u held ∧ held.lock = entry.lock) ∨
      (∃ other, state.Waits u other ∧ other.lock = entry.lock) ∧
        state.position entry.lock u < state.position entry.lock t)

/-- The order of waiting: up in the paths, and forward in a queue. -/
def Behind (state : PathLocks π) (t u : Nat) : Prop :=
  ∃ entry other, state.Waits t entry ∧ state.Waits u other ∧
    (entry.path < other.path ∨
      entry = other ∧ state.position entry.lock u < state.position entry.lock t)

theorem waits_unique {first second : PathLock π} (h : state.Waits t first)
    (h' : state.Waits t second) : first = second := by
  obtain ⟨phase, hphase, hnext⟩ := h
  rw [waits_of_phaseOf hphase, hnext] at h'
  exact some.inj h'

theorem Sound.path_lt (h : Sound loose state) {held : PathLock π} (hheld : state.Holds t held)
    (hnext : state.Waits t next) : held.path < next.path := by
  obtain ⟨phase, hphase, hmem⟩ := hheld
  rw [waits_of_phaseOf hphase] at hnext
  cases phase with
  | waiting own next' rest =>
    obtain rfl : next' = next := some.inj hnext
    have hordered : (own.map PathLock.path ++ next'.path :: rest).Pairwise (· < ·) :=
      h.ordered t _ hphase
    exact (pairwise_append.mp hordered).2.2 held.path (mem_map_of_mem hmem) next'.path
      mem_cons_self
  | acquiring | returned | finished => cases hnext

theorem Sound.entry_eq (h : Sound loose state) {u : Nat} {first second : PathLock π}
    (hfirst : state.Holds t first ∨ state.Waits t first)
    (hsecond : state.Holds u second ∨ state.Waits u second) (hlock : first.lock = second.lock) :
    first = second := by
  have hpath := h.distinct _ _ _ (h.owned t first hfirst) (hlock ▸ h.owned u second hsecond)
  cases first
  cases second
  simp_all

theorem Sound.behind_of_waitsFor (h : Sound loose state) {u : Nat} (hwaits : WaitsFor state t u)
    (hnext : state.Waits u next) : Behind state t u := by
  obtain ⟨entry, hentry, ⟨held, hheld, hlock⟩ | ⟨⟨other, hother, hlock⟩, hahead⟩⟩ := hwaits
  · have hsame := h.entry_eq (.inl hheld) (.inr hentry) hlock
    refine ⟨entry, next, hentry, hnext, .inl ?_⟩
    rw [← hsame]
    exact h.path_lt hheld hnext
  · have hsame := h.entry_eq (.inr hother) (.inr hentry) hlock
    exact ⟨entry, other, hentry, hother, .inr ⟨hsame.symm, hahead⟩⟩

theorem Behind.trans {u v : Nat} (h : Behind state t u) (h' : Behind state u v) :
    Behind state t v := by
  obtain ⟨first, second, hfirst, hsecond, hle⟩ := h
  obtain ⟨second', third, hsecond', hthird, hle'⟩ := h'
  obtain rfl := waits_unique hsecond hsecond'
  refine ⟨first, third, hfirst, hthird, ?_⟩
  grind

theorem Behind.irrefl (t : Nat) : ¬ Behind state t t := by
  rintro ⟨first, second, hfirst, hsecond, hlt | ⟨-, hahead⟩⟩
  · rw [waits_unique hfirst hsecond] at hlt
    exact lt_irrefl _ hlt
  · exact lt_irrefl _ hahead

theorem Sound.acyclic (h : Sound loose state) (t : Nat) :
    ¬ Relation.TransGen (WaitsFor state) t t := by
  have hbehind : ∀ u, Relation.TransGen (WaitsFor state) t u → ∀ next, state.Waits u next →
      Behind state t u := by
    intro u hchain
    induction hchain with
    | single hwaits => exact fun next hnext => h.behind_of_waitsFor hwaits hnext
    | tail _ hwaits ih =>
      intro next hnext
      obtain ⟨entry, hentry, -⟩ := id hwaits
      exact (ih entry hentry).trans (h.behind_of_waitsFor hwaits hnext)
  intro hcycle
  obtain ⟨u, hwaits, -⟩ := Relation.TransGen.head'_iff.mp hcycle
  obtain ⟨entry, hentry, -⟩ := hwaits
  exact Behind.irrefl t (hbehind t hcycle entry hentry)

/-! ### Somebody can go on -/

/-- The task can take a step of its own: to its next path, or into a mutex that
is free. -/
def CanProceed (state : PathLocks π) (t : Nat) : Prop :=
  (∃ held rest, state.phaseOf t = some (.acquiring held rest)) ∨
    ∃ entry, state.Waits t entry ∧ state.isNext t entry.lock = true

/-- An `acquire` call that has not returned. -/
def Pending (state : PathLocks π) (t : Nat) : Prop :=
  (∃ held rest, state.phaseOf t = some (.acquiring held rest)) ∨ ∃ entry, state.Waits t entry

def HasGuards (state : PathLocks π) (t : Nat) : Prop :=
  ∃ held, state.phaseOf t = some (.returned held)

theorem Sound.exists_next (h : Sound loose state) (hwaits : state.Waits t entry)
    (hfree : ∀ u held, state.Holds u held → held.lock ≠ entry.lock) :
    ∃ u, CanProceed state u := by
  have hlt := h.allocated _ _ (h.owned t entry (.inr hwaits))
  have hmutex : state.locks[entry.lock]? = some (state.locks[entry.lock]) :=
    getElem?_eq_getElem hlt
  have hunlocked : (state.locks[entry.lock]).locked = false := by
    rw [Bool.eq_false_iff, ne_eq, h.locked _ _ hmutex]
    rintro ⟨u, held, hheld, hlock⟩
    exact hfree u held hheld hlock
  have hmem : t ∈ (state.locks[entry.lock]).queue :=
    (h.queued _ _ hmutex t).mpr ⟨entry, hwaits, rfl⟩
  cases hqueue : (state.locks[entry.lock]).queue with
  | nil => simp [hqueue] at hmem
  | cons first others =>
    obtain ⟨own, hown, hlock⟩ := (h.queued _ _ hmutex first).mp (by rw [hqueue]; simp)
    refine ⟨first, .inr ⟨own, hown, ?_⟩⟩
    rw [hlock, PathLocks.isNext, hmutex]
    simp [hunlocked, hqueue]

theorem phaseOf_removeReleased (state : PathLocks π) (released : List (PathLock π)) (t : Nat) :
    (state.removeReleased released).phaseOf t = state.phaseOf t := by
  induction released generalizing state with
  | nil => rfl
  | cons entry later ih => rw [PathLocks.removeReleased, ih, phaseOf_removeIdle]

theorem phaseOf_dropGuards (state : PathLocks π) (t u : Nat) (held : List (PathLock π)) :
    (state.dropGuards t held).phaseOf u = (state.setPhase t .finished).phaseOf u := by
  rw [PathLocks.dropGuards, phaseOf_removeReleased, unlockAll_eq]
  rfl

theorem exists_highest (hwaits : state.Waits t entry) :
    ∃ u top, state.Waits u top ∧ ∀ v next, state.Waits v next → next.path ≤ top.path := by
  classical
  have hmem : ∀ next, next ∈ state.tasks.filterMap (fun task => task.phase.next) ↔
      ∃ u, state.Waits u next := by
    intro next
    rw [mem_filterMap]
    constructor
    · intro ⟨task, htask, hnext⟩
      obtain ⟨u, hu⟩ := getElem?_of_mem htask
      exact ⟨u, task.phase, by rw [PathLocks.phaseOf, hu, map_some], hnext⟩
    · intro ⟨u, phase, hphase, hnext⟩
      obtain ⟨task, htask, rfl⟩ := map_eq_some_iff.mp hphase
      exact ⟨task, mem_of_getElem? htask, hnext⟩
  obtain ⟨top, htop, hhighest⟩ := Finset.exists_max_image
    (state.tasks.filterMap fun task => task.phase.next).toFinset PathLock.path
    ⟨entry, List.mem_toFinset.mpr ((hmem entry).mpr ⟨t, hwaits⟩)⟩
  grind [List.mem_toFinset]

theorem Sound.progress (h : Sound loose state) (hpending : Pending state t) :
    (∃ u, CanProceed state u) ∨ ∃ u v, HasGuards state u ∧ WaitsFor state v u := by
  rcases hpending with hacquiring | ⟨entry, hentry⟩
  · exact .inl ⟨t, .inl hacquiring⟩
  obtain ⟨v, top, htop, hhighest⟩ := exists_highest hentry
  by_cases hfree : ∀ u held, state.Holds u held → held.lock ≠ top.lock
  · exact .inl (h.exists_next htop hfree)
  push Not at hfree
  obtain ⟨u, held, hheld, hlock⟩ := hfree
  obtain ⟨phase, hphase, hmem⟩ := id hheld
  cases phase with
  | acquiring own rest => exact .inl ⟨u, .inl ⟨own, rest, hphase⟩⟩
  | waiting own next rest =>
    have hnext : state.Waits u next := (waits_of_phaseOf hphase).mpr rfl
    have hlt := h.path_lt hheld hnext
    rw [h.entry_eq (.inl hheld) (.inr htop) hlock] at hlt
    exact absurd (hhighest u next hnext) (not_le.mpr hlt)
  | returned own => exact .inr ⟨u, v, ⟨own, hphase⟩, top, htop, .inl ⟨held, hheld, hlock⟩⟩
  | finished => cases hmem

theorem Sound.freed (h : Sound [] state) {u : Nat} (hguards : HasGuards state u)
    (hwaits : WaitsFor state t u) : ∃ v, CanProceed (state.step (.drop u)) v := by
  obtain ⟨own, hphase⟩ := hguards
  have hdrop : state.step (.drop u) = state.dropGuards u own := by
    simp only [PathLocks.step, hphase]
  have hidle : ∀ entry, ¬ state.Waits u entry := by
    intro entry hentry
    rw [waits_of_phaseOf hphase] at hentry
    cases hentry
  obtain ⟨entry, hentry, ⟨held, hheld, hlock⟩ | ⟨⟨other, hother, -⟩, -⟩⟩ := hwaits
  · have hne : t ≠ u := fun heq => hidle entry (heq ▸ hentry)
    have hsame : ∀ v, v ≠ u → (state.step (.drop u)).phaseOf v = state.phaseOf v := by
      intro v hv
      rw [hdrop, phaseOf_dropGuards, phaseOf_setPhase_of_ne hv]
    refine (h.step (.drop u)).exists_next ((waits_of_ne (hsame t hne)).mpr hentry) ?_
    intro v another hv hanother
    by_cases heq : v = u
    · subst heq
      rw [hdrop, holds_of_phaseOf ((phaseOf_dropGuards _ _ _ _).trans (phaseOf_setPhase_self hphase))]
        at hv
      cases hv
    · rw [holds_of_ne (hsame v heq)] at hv
      exact heq (h.exclusive v u another held hv hheld (hanother.trans hlock.symm))
  · exact absurd hother (hidle other)

/-! ## Every interleaving -/

/-- What holds of the locks at any time. -/
structure LocksSafe (state : PathLocks π) : Prop where
  /-- One task at a time has a path. -/
  exclusive : ∀ t u entry other, state.Holds t entry → state.Holds u other →
    entry.path = other.path → t = u
  /-- A task locks a path once. -/
  once : ∀ t phase, state.phaseOf t = some phase → (phase.held.map PathLock.path).Nodup
  acyclic : ∀ t, ¬ Relation.TransGen (WaitsFor state) t t
  /-- Somebody can go on, or waits for guards that were handed out. -/
  progress : (∃ t, Pending state t) →
    (∃ u, CanProceed state u) ∨ ∃ u t, HasGuards state u ∧ WaitsFor state t u
  /-- A holder that drops its guards lets somebody go on. -/
  freed : ∀ t u, HasGuards state u → WaitsFor state t u →
    ∃ v, CanProceed (state.step (.drop u)) v
  /-- Nothing stays in the table. -/
  empty : (∀ t, ¬ Pending state t ∧ ¬ HasGuards state t) → state.table = ∅

theorem pending_or_hasGuards_of_use (huse : state.Holds t entry ∨ state.Waits t entry) :
    Pending state t ∨ HasGuards state t := by
  rcases huse with ⟨phase, hphase, hmem⟩ | hwaits
  · cases phase with
    | acquiring own rest => exact .inl (.inl ⟨own, rest, hphase⟩)
    | waiting own next rest => exact .inl (.inr ⟨next, (waits_of_phaseOf hphase).mpr rfl⟩)
    | returned own => exact .inr ⟨own, hphase⟩
    | finished => cases hmem
  · exact .inl (.inr ⟨entry, hwaits⟩)

theorem path_locks_safe (events : List (LockEvent π)) : LocksSafe (PathLocks.after events) := by
  have h := Sound.after events
  refine ⟨?_, fun t phase => h.nodup_held, h.acyclic, fun ⟨t, hpending⟩ => h.progress hpending,
    fun t u => h.freed, fun hover => Table.eq_empty_of_lookup fun path => ?_⟩
  · intro t u entry other hentry hother hpath
    have hlock : some entry.lock = some other.lock := by
      rw [← h.owned t entry (.inl hentry), hpath, h.owned u other (.inl hother)]
    exact h.exclusive t u entry other hentry hother (Option.some.inj hlock)
  · cases hlookup : (PathLocks.after events).table.lookup path with
    | none => rfl
    | some lock =>
      rcases h.live ⟨path, lock⟩ hlookup with hloose | ⟨t, huse⟩
      · cases hloose
      · exact absurd (pending_or_hasGuards_of_use huse) (not_or.mpr (hover t))

end MangoStudio.Filesystem
