import Mathlib
import MangoStudio.Generation.WriterOrder

/-!
# A flush ends

While no new request is made, a writer can only go on with what it has: run the
timer, start, complete and settle tasks, and take up the flushes that wait.  Each
of these makes its `budget` smaller, whether updates succeed or fail
(`enabled_lowers_budget`), and as long as a flush waits one of them is possible
(`waiting_progress`).  So every such run comes to an end, and at its end no flush
waits.

The main theorem puts this beside the invariants of `WriterOrder`.
-/

namespace MangoStudio.Generation.RowWriter

open PromiseChain List

variable {writer : RowWriter}

/-! ## Sums over a list with one change -/

variable {place : Nat}

section Sums

variable {α : Type} {items : List α} {item : α} (weight : α → Nat)
  (hitem : items[place]? = some item)

include hitem

theorem sum_map_modify (change : α → α) :
    ((items.modify place change).map weight).sum + weight item =
      (items.map weight).sum + weight (change item) := by
  induction items generalizing place <;> grind

theorem sum_map_set (new : α) :
    ((items.set place new).map weight).sum + weight item =
      (items.map weight).sum + weight new := by
  rw [set_eq_modify]
  exact sum_map_modify weight hitem fun _ => new

theorem sum_map_eraseIdx :
    ((items.eraseIdx place).map weight).sum + weight item = (items.map weight).sum := by
  induction items generalizing place <;> grind [eraseIdx_cons_zero]

end Sums

/-! ## What is left to do -/

/-- The moments a task still has before it. -/
def linkWeight (link : WriteLink) : Nat :=
  match link.status with
  | .waiting => 3
  | .running (.executing _) => 2
  | .running (.returned _) => 1
  | .settled => 0

/-- Whether a task may still hand back a dirty state. -/
def handBackWeight : WriteLink → Nat
  | ⟨_, .settled⟩ => 0
  | ⟨.required write, _⟩ => if write.supersededDirty then 1 else 0
  | ⟨.bestEffort, _⟩ => 0

/-- The tasks that a flush has not waited for. -/
def flushWeight (length : Nat) (pending : PendingFlush) : Nat :=
  1 + (length - pending.tail)

/-- What a trailing write that is not queued yet may cost. -/
def trailingCost (writer : RowWriter) : Nat :=
  writer.flushes.length + 4

/-- An upper bound for the number of steps without a new request. -/
def budget (writer : RowWriter) : Nat :=
  (writer.chain.map linkWeight).sum +
    (writer.chain.map handBackWeight).sum * (trailingCost writer + 2) +
    (if writer.dirty ∧ writer.ticket = none then trailingCost writer else 0) +
    (if writer.timerArmed then 1 else 0) +
    (writer.flushes.map (flushWeight writer.chain.length)).sum

/-- Whether the writer can take a step that is not a new request. -/
def enabled (writer : RowWriter) : Action → Bool
  | .fireTimer => writer.timerArmed
  | .start place => ready writer.chain place
  | .complete place _ =>
    match writer.chain[place]? with
    | some ⟨_, .running (.executing _)⟩ => true
    | _ => false
  | .settle place =>
    match writer.chain[place]? with
    | some ⟨_, .running (.returned _)⟩ => true
    | _ => false
  | .resume index =>
    match writer.flushes[index]? with
    | some pending => settledUpTo writer.chain pending.tail
    | none => false
  | .change | .request .. | .requireWrite _ | .flush => false

theorem sum_flushWeight_succ (flushes : List PendingFlush) (length : Nat) :
    (flushes.map (flushWeight (length + 1))).sum ≤
      (flushes.map (flushWeight length)).sum + flushes.length := by
  induction flushes with
  | nil => simp
  | cons pending rest ih =>
    simp only [map_cons, sum_cons, length_cons, flushWeight] at ih ⊢
    omega

/-! ## Every step makes the budget smaller -/

theorem handBackWeight_running (task : WriteTask) (p q : WriteProgress) :
    handBackWeight ⟨task, .running p⟩ = handBackWeight ⟨task, .running q⟩ := by
  cases task <;> rfl

theorem handBackWeight_waiting (task : WriteTask) (p : WriteProgress) :
    handBackWeight ⟨task, .waiting⟩ = handBackWeight ⟨task, .running p⟩ := by
  cases task <;> rfl

theorem sum_map_setStatus (weight : WriteLink → Nat) {chain : List WriteLink} {link : WriteLink}
    (hlink : chain[place]? = some link) (status : Status WriteProgress) :
    ((setStatus chain place status).map weight).sum + weight link =
      (chain.map weight).sum + weight { link with status } :=
  sum_map_modify weight hlink _

theorem budget_setStatus {link : WriteLink} {status : Status WriteProgress} {after : RowWriter}
    (hlink : writer.chain[place]? = some link)
    (hchain : after.chain = setStatus writer.chain place status)
    (hflushes : after.flushes = writer.flushes)
    (hdirty : after.dirty = true ∧ after.ticket = none → writer.dirty = true ∧ writer.ticket = none)
    (htimer : after.timerArmed = writer.timerArmed)
    (hweight : linkWeight { link with status } < linkWeight link)
    (hhand : handBackWeight { link with status } ≤ handBackWeight link) :
    budget after < budget writer := by
  have hlinks := sum_map_setStatus linkWeight hlink status
  have hhands := sum_map_setStatus handBackWeight hlink status
  have hproduct : (after.chain.map handBackWeight).sum * (trailingCost after + 2) ≤
      (writer.chain.map handBackWeight).sum * (trailingCost writer + 2) := by
    rw [trailingCost, trailingCost, hflushes, hchain]
    exact Nat.mul_le_mul_right _ (by omega)
  have hflag : (if after.dirty = true ∧ after.ticket = none then trailingCost after else 0) ≤
      if writer.dirty = true ∧ writer.ticket = none then trailingCost writer else 0 := by
    rw [trailingCost, trailingCost, hflushes]
    grind
  grind [length_setStatus, budget]

theorem budget_queueTrailingWrite (hdirty : writer.dirty = true) :
    budget writer.queueTrailingWrite + (if writer.ticket = none then 1 else 0) ≤
      budget writer := by
  unfold queueTrailingWrite
  cases hticket : writer.ticket with
  | some place => simp
  | none =>
    have hwaits := sum_flushWeight_succ writer.flushes writer.chain.length
    simp [budget, trailingCost, hticket, hdirty, enqueue, linkWeight, handBackWeight]
    omega

theorem start_lowers_budget (hready : ready writer.chain place = true) :
    budget (writer.start place) < budget writer := by
  obtain ⟨hbefore, task, hlink⟩ := ready_cases hready
  rw [start, if_pos hready, hlink]
  cases task with
  | bestEffort =>
    simp only
    split_ifs with hticket hdirty
    · exact budget_setStatus hlink rfl rfl (fun h => by cases h.1) rfl (by show 2 < 3; omega)
        (Nat.le_refl _)
    · refine budget_setStatus hlink rfl rfl (fun h => ?_) rfl (by decide) (by decide)
      exact absurd h.1 hdirty
    · exact budget_setStatus hlink rfl rfl id rfl (by decide) (by decide)
  | required write =>
    refine budget_setStatus hlink rfl rfl id rfl (by show 2 < 3; omega) ?_
    exact Nat.le_of_eq (handBackWeight_waiting _ _).symm

theorem complete_lowers_budget {task : WriteTask} {version : Nat} (ok : Bool)
    (hlink : writer.chain[place]? = some ⟨task, .running (.executing version)⟩) :
    budget (writer.complete place ok) < budget writer := by
  rw [complete, hlink]
  refine budget_setStatus hlink rfl rfl id rfl (by show 1 < 2; omega) ?_
  exact Nat.le_of_eq (handBackWeight_running _ _ _)

theorem handleFailure_keeps (write : RequiredWrite) :
    (writer.handleFailure write).chain = writer.chain ∧
      (writer.handleFailure write).flushes = writer.flushes := by
  unfold handleFailure markDirty armTrailingWrite
  grind

theorem handBack_lowers_budget {write : RequiredWrite}
    (hlink : writer.chain[place]? = some ⟨.required write, .running (.returned false)⟩) :
    budget ((writer.skip place).handleFailure write) < budget writer := by
  cases hsuperseded : write.supersededDirty with
  | false =>
    have hskip : budget (writer.skip place) < budget writer :=
      budget_setStatus hlink rfl rfl id rfl (by show 0 < 1; omega) (Nat.zero_le _)
    unfold handleFailure
    simp only [hsuperseded, Bool.false_eq_true, if_false]
    split_ifs
    · exact hskip
    · exact hskip
  | true =>
    have hlinks := sum_map_setStatus linkWeight hlink .settled
    have hhands := sum_map_setStatus handBackWeight hlink .settled
    obtain ⟨hchain, hflushes⟩ : ((writer.skip place).handleFailure write).chain =
          setStatus writer.chain place .settled ∧
        ((writer.skip place).handleFailure write).flushes = writer.flushes :=
      handleFailure_keeps write
    -- The state after it may be dirty, unticketed and with its timer armed.
    have hupper : budget ((writer.skip place).handleFailure write) ≤
        ((setStatus writer.chain place .settled).map linkWeight).sum +
          ((setStatus writer.chain place .settled).map handBackWeight).sum *
            (trailingCost writer + 2) + trailingCost writer + 1 +
          (writer.flushes.map (flushWeight writer.chain.length)).sum := by
      simp only [budget, trailingCost, hchain, hflushes, length_setStatus]
      split_ifs <;> omega
    simp only [linkWeight, handBackWeight, hsuperseded, if_true] at hlinks hhands
    grind [Nat.add_one_mul, budget]

theorem settle_lowers_budget {task : WriteTask} {ok : Bool}
    (hlink : writer.chain[place]? = some ⟨task, .running (.returned ok)⟩) :
    budget (writer.settle place) < budget writer := by
  have hskip : budget (writer.skip place) < budget writer :=
    budget_setStatus hlink rfl rfl id rfl (by show 0 < 1; omega) (Nat.zero_le _)
  rw [settle, hlink]
  cases task with
  | bestEffort => exact hskip
  | required write =>
    cases ok with
    | true => exact hskip
    | false =>
      simp only
      split_ifs
      · exact handBack_lowers_budget hlink
      · exact hskip

theorem fireTimer_lowers_budget (harmed : writer.timerArmed = true) :
    budget writer.fireTimer < budget writer := by
  grind [budget, trailingCost, fireTimer, budget_queueTrailingWrite]

section

variable {index : Nat} {pending : PendingFlush} (hpending : writer.flushes[index]? = some pending)

include hpending

theorem resolve_lowers_budget (resolved : List ResolvedFlush) :
    budget { writer with flushes := writer.flushes.eraseIdx index, resolved := resolved } <
      budget writer := by
  have hsum := sum_map_eraseIdx (flushWeight writer.chain.length) hpending
  have hpositive : 0 < flushWeight writer.chain.length pending := by
    unfold flushWeight
    omega
  have hlength : (writer.flushes.eraseIdx index).length ≤ writer.flushes.length :=
    length_eraseIdx_le _ _
  have hproduct : (writer.chain.map handBackWeight).sum *
      ((writer.flushes.eraseIdx index).length + 4 + 2) ≤
        (writer.chain.map handBackWeight).sum * (writer.flushes.length + 4 + 2) :=
    Nat.mul_le_mul_left _ (by omega)
  simp only [budget, trailingCost]
  split_ifs <;> omega

theorem awaitAgain_budget :
    budget { writer with
        flushes := writer.flushes.set index { pending with tail := writer.chain.length } } +
      (writer.chain.length - pending.tail) = budget writer := by
  grind [sum_map_set, flushWeight, budget, trailingCost]

end

theorem resume_lowers_budget (hchained : Chained writer) {index : Nat} {pending : PendingFlush}
    (hpending : writer.flushes[index]? = some pending)
    (hsettled : settledUpTo writer.chain pending.tail = true) :
    budget (writer.resume index) < budget writer := by
  have hle := hchained.tails pending (mem_of_getElem? hpending)
  rw [resume, hpending]
  simp only [hsettled, if_true]
  split_ifs with hdone hdirty
  · exact resolve_lowers_budget hpending _
  · -- With a ticket, the flush has not waited for the ticket's task yet.
    have hqueued := budget_queueTrailingWrite hdirty.2
    have hagain := @awaitAgain_budget writer.queueTrailingWrite index pending
      (by rw [queueTrailingWrite_flushes, hpending])
    cases hticket : writer.ticket with
    | none =>
      rw [if_pos hticket] at hqueued
      omega
    | some place =>
      have hlink := hchained.ticketed place hticket
      have hbound : place < writer.chain.length := (List.getElem?_eq_some_iff.1 hlink).1
      have htail : pending.tail < writer.chain.length := by
        by_contra hnot
        have hall := hchained.serial.settled_of_lt hsettled (by omega) hlink
        cases hall
      have hsame : writer.queueTrailingWrite = writer := by
        rw [queueTrailingWrite, hticket]
        rfl
      rw [hsame] at hagain ⊢
      omega
  · grind [awaitAgain_budget]

theorem enabled_lowers_budget (hchained : Chained writer) {action : Action}
    (henabled : writer.enabled action = true) : budget (writer.step action) < budget writer := by
  cases action with
  | change | request | requireWrite | flush => cases henabled
  | fireTimer => exact fireTimer_lowers_budget henabled
  | start place => exact start_lowers_budget henabled
  | complete place ok =>
    simp only [enabled] at henabled
    split at henabled
    · rename_i task version hlink
      exact complete_lowers_budget ok hlink
    · cases henabled
  | settle place =>
    simp only [enabled] at henabled
    split at henabled
    · rename_i task ok hlink
      exact settle_lowers_budget hlink
    · cases henabled
  | resume index =>
    simp only [enabled] at henabled
    split at henabled
    · rename_i pending hpending
      exact resume_lowers_budget hchained hpending henabled
    · cases henabled

theorem drain_bounded {actions : List Action} (hsound : Sound writer)
    (hdrain : Run.Along step (fun state action => state.enabled action = true) writer actions) :
    actions.length ≤ budget writer := by
  induction actions generalizing writer with
  | nil => exact Nat.zero_le _
  | cons action rest ih =>
    have hlower := enabled_lowers_budget hsound.chained hdrain.1
    have hrest := ih (run_keeps (fun hsound hmove => hsound.move hmove) hsound [action]) hdrain.2
    simp only [length_cons]
    have : rest.length ≤ budget (writer.step action) := hrest
    omega

/-! ## Something is possible while a flush waits -/

theorem waiting_progress (hchained : Chained writer) (hwaiting : writer.flushes ≠ []) :
    ∃ action, writer.enabled action = true := by
  obtain ⟨pending, rest, hflushes⟩ := exists_cons_of_ne_nil hwaiting
  cases hsettled : settledUpTo writer.chain pending.tail with
  | true =>
    refine ⟨.resume 0, ?_⟩
    simp [enabled, hflushes, hsettled]
  | false =>
    have hbound := hchained.tails pending (by rw [hflushes]; exact mem_cons_self)
    obtain ⟨place, ⟨task, status⟩, hlink, hopen, hbefore⟩ := exists_open hbound hsettled
    cases status with
    | settled => exact absurd rfl hopen
    | waiting =>
      refine ⟨.start place, ?_⟩
      simp [enabled, ready, hlink, hbefore]
    | running progress =>
      cases progress with
      | executing version => exact ⟨.complete place true, by simp only [enabled, hlink]⟩
      | returned ok => exact ⟨.settle place, by simp only [enabled, hlink]⟩

/-! ## The two writers -/

/-- In every run of a writer, updates of the row are executed one at a time, with versions that
never fall; no trailing write is executed after a required write was queued behind it; the row
that a flush leaves is as new as what was accepted before it, if no update or at least not the
last one failed; and without new requests every run ends, with no flush left waiting. -/
theorem row_never_goes_back (kind : WriterKind) (lastWrittenAt : Nat) (actions : List Action) :
    let writer := run (newWriter kind lastWrittenAt) actions
    (∀ (i j : Nat) (first second : WriteTask) (v w : Nat),
      writer.chain[i]? = some ⟨first, .running (.executing v)⟩ →
        writer.chain[j]? = some ⟨second, .running (.executing w)⟩ → i = j) ∧
    writer.started.Pairwise (fun earlier later => earlier.version ≤ later.version) ∧
    (∀ update ∈ writer.started, update.bestEffort = true → update.overtaken = false) ∧
    (∀ resolved ∈ writer.resolved, ∀ version, resolved.wanted = some version →
      (false ∉ resolved.outcomes ∨ resolved.outcomes.getLast? = some true) →
        ∃ stored, resolved.row = some stored ∧ version ≤ stored) ∧
    ∀ more, Run.Along step (fun state action => state.enabled action = true) writer more →
      more.length ≤ budget writer ∧
        ((∀ action, (writer.run more).enabled action = false) → (writer.run more).flushes = []) := by
  intro writer
  have hsound : Sound writer := sound_run kind lastWrittenAt actions
  refine ⟨?_, hsound.ascending.ascending, hsound.ascending.notOvertaken, ?_, ?_⟩
  · intro i j first second v w hfirst hsecond
    exact hsound.chained.serial.running_unique hfirst hsecond rfl rfl
  · intro resolved hresolved version hwanted hok
    obtain ⟨hsome, hlast⟩ := hsound.satisfied resolved hresolved version hwanted
    refine hlast (hok.elim (fun hall => ?_) id)
    -- Without a failure, the last update succeeded.
    cases hoccurs : resolved.outcomes.getLast? with
    | none => exact absurd (List.getLast?_eq_none_iff.1 hoccurs) hsome
    | some ok =>
      cases ok with
      | true => rfl
      | false => exact absurd (List.mem_of_getLast? hoccurs) hall
  · intro more hmore
    refine ⟨drain_bounded hsound hmore, fun hstuck => ?_⟩
    by_contra hwaiting
    have hafter : Sound (writer.run more) :=
      run_keeps (fun hsound hmove => hsound.move hmove) hsound more
    obtain ⟨action, henabled⟩ := waiting_progress hafter.chained hwaiting
    rw [hstuck action] at henabled
    cases henabled

end MangoStudio.Generation.RowWriter
