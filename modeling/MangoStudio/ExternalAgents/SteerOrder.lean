import MangoStudio.ExternalAgents.TerminalReason
import MangoStudio.Lib.Ledger

/-!
# What an observer of a turn is told, and in which order

A steer enters the transcript when it is made, and the observer is told of it
when its outcome is known.  The events that arrive in between are held back, in
one list for all pending steers, and let go when the last of them is settled.

* `ledger` reads a turn as a log that is reported with a delay, and each action
  is one of the operations of that log.
* `InOrder` is the condition under which the observer is told what the transcript
  holds, in its order: no steer is made while events are held back, steers are
  reported in the order in which they were made, the writes succeed and the
  vendor answers, and no steer goes over the budget.
* `reported_in_order` is what follows for whole runs.  Two steers with an event
  between them are the shortest run in which it fails
  (`reported_out_of_order`).
-/

namespace MangoStudio.ExternalAgents.ExternalTurn

open Conversation ExternalTurnTranscript List Bool

variable {turn : ExternalTurn} {timed : TurnAction × Nat}
  (byteLengthOf : ExternalAgentEvent → Nat)

/-! ## The log of a turn -/

def ledger (turn : ExternalTurn) : Ledger Record String ExternalAgentEvent where
  taken := turn.taken
  reported := turn.reports.map Report.record
  pending := turn.pendingSteerIds
  held := turn.deferredEvents

section

variable (turn : ExternalTurn)

theorem ledger_terminate (requested : ExternalTurnTerminalReason) :
    (turn.terminate requested).ledger = turn.ledger := by
  obtain ⟨_, _, hended⟩ := terminate_touches turn requested
  rw [hended]
  rfl

theorem ledger_endWith (terminal : Option ExternalTurnTerminalReason) :
    (turn.endWith terminal).ledger = turn.ledger := by
  cases terminal with
  | none => rfl
  | some reason => exact ledger_terminate turn reason

theorem ledger_setPhase (clientMessageId : String) (phase : SteerPhase) :
    (turn.setPhase clientMessageId phase).ledger = turn.ledger := by
  obtain ⟨_, hphase⟩ := setPhase_touches turn clientMessageId phase
  rw [hphase]
  rfl

theorem ledger_bindApproval (request : ExternalApprovalRequest) :
    (turn.bindApproval request).1.ledger = turn.ledger := by
  obtain ⟨_, hbound⟩ := bindApproval_touches turn request
  rw [hbound]
  rfl

theorem ledger_flushDeferredEvents :
    turn.flushDeferredEvents.ledger = turn.ledger.drain Record.event := by
  have hreports : (turn.reports ++ turn.deferredEvents.map Report.onEvent).map Report.record =
      turn.reports.map Report.record ++ turn.deferredEvents.map Record.event := by
    rw [map_append, map_map]
    rfl
  unfold flushDeferredEvents ledger Ledger.drain
  rw [hreports]

theorem ledger_reported (clientMessageId text : String) (status : SteerStatus) :
    ((turn.reportSteer clientMessageId text status).settleSteer clientMessageId).ledger =
      turn.ledger.finish Record.steer Record.event clientMessageId := by
  have hphase := ledger_setPhase (turn.reportSteer clientMessageId text status) clientMessageId
    .settled
  have hreports : (turn.reports ++ [Report.onSteer clientMessageId text status]).map Report.record =
      turn.reports.map Report.record ++ [.steer clientMessageId] := map_append
  grind [ledger_flushDeferredEvents, reportSteer, settleSteer, ledger, Ledger.finish]

end

theorem ledger_applied (hopen : turn.transcript.terminated = false)
    (event : ExternalAgentEvent) (sequence now : Nat) :
    (turn.applied byteLengthOf event sequence now).1.ledger = turn.ledger ∨
      (turn.applied byteLengthOf event sequence now).1.ledger =
        turn.ledger.admitEvent Record.event event := by
  have hreport : ∀ transcript : ExternalTurnTranscript,
      ({ turn with transcript, taken := turn.takeEvent event }.reportEvent event).ledger =
          turn.ledger ∨
        ({ turn with transcript, taken := turn.takeEvent event }.reportEvent event).ledger =
          turn.ledger.admitEvent Record.event event := by
    intro transcript
    cases event <;> grind [reportEvent, takeEvent, Ledger.admitEvent, ledger, Report.record]
  unfold applied
  dsimp only
  split
  · rw [ledger_bindApproval]
    exact hreport _
  · exact hreport _

/-! ## The condition -/

/-- The attempt that an action would report. -/
def reportsSteer (turn : ExternalTurn) : TurnAction → Option String
  | .steerWritten clientMessageId _ =>
    match turn.steerAttempts.get clientMessageId with
    | some ⟨_, .writing none⟩ => if turn.hasEnded then some clientMessageId else none
    | some ⟨_, .correcting _⟩ => some clientMessageId
    | _ => none
  | .steerAnswered clientMessageId answer =>
    match turn.steerAttempts.get clientMessageId with
    | some ⟨_, .asking known⟩ =>
      if resolveSteerOutcome known answer = .accepted then some clientMessageId else none
    | _ => none
  | _ => none

/-- What an action must meet for the observer to stay in step with the transcript. -/
def InOrder (turn : ExternalTurn) (timed : TurnAction × Nat) : Prop :=
  (∀ clientMessageId, turn.reportsSteer timed.1 = some clientMessageId →
    turn.pendingSteerIds.head? = some clientMessageId) ∧
  match timed.1 with
  | .steer userId clientMessageId text => turn.recordsSteer userId clientMessageId = true →
      turn.deferredEvents = [] ∧ turn.transcript.fits text = true
  | .steerWritten _ written => written = true
  | .steerAnswered _ answer => answer ≠ .failed
  | .submission outcome => turn.storesError outcome = true → turn.pendingSteerIds = []
  | .settle graceLapsed => graceLapsed = false
  | _ => True

/-! ## Actions that are not part of an attempt -/

/-- What such an action does to the log. -/
inductive Booked (turn : ExternalTurn) : Ledger Record String ExternalAgentEvent → Prop where
  | stay : Booked turn turn.ledger
  | admitted (event : ExternalAgentEvent) : Booked turn (turn.ledger.admitEvent .event event)
  | announced (event : ExternalAgentEvent) (hnone : turn.pendingSteerIds = []) :
      Booked turn (turn.ledger.announce .event event)
  | drained (hnone : turn.pendingSteerIds = []) : Booked turn (turn.ledger.drain .event)

variable {after : ExternalTurn}

theorem Booked.of_eq (h : after.ledger = turn.ledger) :
    Booked turn after.ledger := by
  rw [h]
  exact .stay

theorem Booked.inStep {after : Ledger Record String ExternalAgentEvent} (h : Booked turn after)
    (hstep : turn.ledger.InStep Record.steer Record.event) :
    after.InStep Record.steer Record.event := by
  cases h with
  | stay => exact hstep
  | admitted event => exact hstep.admitEvent event
  | announced event hnone => exact hstep.announce hnone event
  | drained hnone =>
    rw [hstep.drain_eq hnone]
    exact hstep

theorem booked_onEnvelope (hclosed : turn.transcript.terminated = true → turn.terminalReason.isSome)
    (verdict : Verdict) (now : Nat) :
    Booked turn (turn.onEnvelope byteLengthOf verdict now).1.ledger := by
  cases hrunning : turn.terminalReason with
  | some reason =>
    rw [onEnvelope_ended (by rw [hrunning]; rfl)]
    exact .stay
  | none =>
    cases verdict with
    | ignored =>
      rw [onEnvelope_ignored]
      exact .stay
    | gap =>
      rw [onEnvelope_gap hrunning]
      exact .of_eq <| ledger_terminate turn .sequenceGap
    | apply event sequence =>
      have hopen : turn.transcript.terminated = false := by
        rw [hrunning] at hclosed
        exact eq_false_of_not_eq_true fun h => absurd (hclosed h) false_ne_true
      rw [onEnvelope_apply hrunning, ledger_endWith]
      rcases ledger_applied byteLengthOf hopen event sequence now with hsame | hadmitted
      · exact .of_eq hsame
      · rw [hadmitted]
        exact .admitted event

theorem booked_failStart (turn : ExternalTurn) (hnone : turn.pendingSteerIds = [])
    (error : ExternalAgentError) (refusal : Option OpenRefusalPresentation)
    (reason : ExternalTurnTerminalReason) :
    Booked turn ((turn.recordStartError error refusal).terminate reason).ledger := by
  have hrecorded : (turn.recordStartError error refusal).ledger =
      turn.ledger.announce Record.event (.error error) := by
    unfold recordStartError ledger Ledger.announce
    simp [Report.record]
  rw [ledger_terminate, hrecorded]
  exact .announced (.error error) hnone

theorem booked_applySubmission {outcome : SubmissionOutcome}
    (hquiet : turn.storesError outcome = true → turn.pendingSteerIds = []) :
    Booked turn (turn.applySubmission outcome).1.ledger := by
  have hcases := applySubmission_cases turn outcome
  generalize (turn.applySubmission outcome).1 = after at hcases ⊢
  cases hcases <;> grind [Booked.of_eq, ledger_terminate, booked_failStart, ledger]

theorem booked_settle (turn : ExternalTurn) (now : Nat)
    (hwaiting : (turn.steerAttempts.all fun entry => isSettled entry.2.phase) = true →
      turn.pendingSteerIds = []) :
    Booked turn (turn.settle false now).ledger := by
  unfold settle
  split
  · split_ifs with hsettled
    · have hflushed := Booked.drained (hwaiting hsettled)
      rw [← ledger_flushDeferredEvents] at hflushed
      exact hflushed
    · exact .stay
  · exact .stay

variable {now : Nat}

theorem booked_step {action : TurnAction}
    (haction : isSteering action = false)
    (hclosed : turn.transcript.terminated = true → turn.terminalReason.isSome)
    (hwaiting : (turn.steerAttempts.all fun entry => isSettled entry.2.phase) = true →
      turn.pendingSteerIds = []) (horder : InOrder turn (action, now)) :
    Booked turn (turn.step byteLengthOf (action, now)).ledger := by
  cases action with
  | envelope verdict => exact booked_onEnvelope byteLengthOf hclosed verdict now
  | steer | steerWritten | steerAnswered => exact absurd haction Bool.noConfusion
  | dispatch | approvalForwarded => exact .stay
  | reopen sessionId conversationReset =>
    show Booked turn (turn.reopen sessionId conversationReset).ledger
    unfold reopen
    split_ifs
    · exact .stay
    · exact .stay
  | submission outcome => exact booked_applySubmission horder.2
  | teardown reason =>
    show Booked turn (turn.onTeardown reason).ledger
    unfold onTeardown
    split_ifs
    · exact .stay
    · exact .of_eq (ledger_terminate turn reason)
  | revoke reason =>
    show Booked turn (if turn.submitting then turn.terminate reason else turn).ledger
    split_ifs
    · exact .of_eq (ledger_terminate turn reason)
    · exact .stay
  | abort reasonCode => exact .of_eq (ledger_terminate turn _)
  | settle graceLapsed =>
    have hgrace : graceLapsed = false := horder.2
    subst hgrace
    exact booked_settle turn now hwaiting
  | release =>
    show Booked turn (turn.release now).ledger
    unfold release
    split
    · split_ifs
      · exact .stay
      · exact .stay
    · exact .stay
  | complete =>
    show Booked turn turn.complete.ledger
    unfold complete
    split_ifs
    · exact .stay
    · exact .stay

/-! ## The attempts -/

/-- The steers that a log holds. -/
def steerIds (records : List Record) : List String :=
  records.filterMap fun
    | .steer clientMessageId => some clientMessageId
    | .event _ => none

theorem steerIds_append (before after : List Record) :
    steerIds (before ++ after) = steerIds before ++ steerIds after :=
  filterMap_append

theorem steerIds_events (events : List ExternalAgentEvent) :
    steerIds (events.map Record.event) = [] := by
  unfold steerIds
  rw [filterMap_map]
  exact filterMap_eq_nil_iff.mpr fun _ _ => rfl

theorem steerIds_steers (clientMessageIds : List String) :
    steerIds (clientMessageIds.map Record.steer) = clientMessageIds := by
  unfold steerIds
  rw [filterMap_map]
  exact filterMap_some

/-- The attempts are the steers of the log, each once, and those that the observer has
not been told of are not settled. -/
structure Tracked (turn : ExternalTurn) : Prop where
  recorded : steerIds turn.taken = turn.steerAttempts.map Prod.fst
  nodup : (turn.steerAttempts.map Prod.fst).Nodup
  waiting : ∀ clientMessageId ∈ turn.pendingSteerIds, ∃ attempt,
    turn.steerAttempts.get clientMessageId = some attempt ∧ isSettled attempt.phase = false
  within : ∀ clientMessageId text reason,
    turn.steerAttempts.get clientMessageId ≠ some ⟨text, .writing (some reason)⟩

theorem Tracked.of_steers (h : Tracked turn) (hsteers : after.steers = turn.steers)
    (htaken : steerIds after.taken = steerIds turn.taken) :
    Tracked after := by
  obtain ⟨hattempts, hpending⟩ := Prod.mk.inj hsteers
  refine ⟨?_, ?_, ?_, ?_⟩
  all_goals grind [cases Tracked, cases ExternalTurnTranscript.Linked]

theorem Tracked.none_pending (h : Tracked turn)
    (hall : (turn.steerAttempts.all fun entry => isSettled entry.2.phase) = true) :
    turn.pendingSteerIds = [] := by
  refine eq_nil_iff_forall_not_mem.mpr ?_
  intro clientMessageId hmem
  obtain ⟨attempt, hattempt, hwaiting⟩ := h.waiting clientMessageId hmem
  have hentry := (OrderedMap.mem_iff_get h.nodup).mpr hattempt
  grind

theorem keys_setPhase (turn : ExternalTurn) (clientMessageId : String) (phase : SteerPhase) :
    (turn.setPhase clientMessageId phase).steerAttempts.map Prod.fst =
      turn.steerAttempts.map Prod.fst := by
  grind [setPhase, OrderedMap.get_eq_none_iff, OrderedMap.keys_set]

variable {clientMessageId : String}

theorem Tracked.setPhase (h : Tracked turn) {phase : SteerPhase} (hopen : isSettled phase = false)
    (hwithin : ∀ reason, phase ≠ .writing (some reason)) :
    Tracked (turn.setPhase clientMessageId phase) := by
  have hledger := ledger_setPhase turn clientMessageId phase
  have htaken : (turn.setPhase clientMessageId phase).taken = turn.taken :=
    congrArg Ledger.taken hledger
  have hpending : (turn.setPhase clientMessageId phase).pendingSteerIds = turn.pendingSteerIds :=
    congrArg Ledger.pending hledger
  refine ⟨?_, ?_, ?_, ?_⟩
  all_goals grind [keys_setPhase, get_setPhase, writing_of_setPhase, cases Tracked,
    cases ExternalTurnTranscript.Linked]

theorem steerIds_taken (hstep : turn.ledger.InStep Record.steer Record.event) :
    steerIds turn.taken =
      steerIds (turn.reports.map Report.record) ++ turn.pendingSteerIds := by
  have horder : turn.taken = turn.reports.map Report.record ++
    (turn.pendingSteerIds.map Record.steer ++ turn.deferredEvents.map Record.event) := hstep.order
  rw [horder, steerIds_append, steerIds_append, steerIds_steers, steerIds_events, append_nil]

theorem Tracked.pending_nodup (h : Tracked turn)
    (hstep : turn.ledger.InStep Record.steer Record.event) : turn.pendingSteerIds.Nodup := by
  have hnodup := h.nodup
  rw [← h.recorded, steerIds_taken hstep] at hnodup
  exact hnodup.of_append_right

theorem Tracked.report (h : Tracked turn) (hnodup : turn.pendingSteerIds.Nodup)
    (clientMessageId text : String) (status : SteerStatus) :
    Tracked ((turn.reportSteer clientMessageId text status).settleSteer clientMessageId) := by
  have hledger := ledger_reported turn clientMessageId text status
  have htaken : ((turn.reportSteer clientMessageId text status).settleSteer
      clientMessageId).taken = turn.taken :=
    (congrArg Ledger.taken hledger).trans (Ledger.finish_taken _ _ _ clientMessageId)
  have hpending : ((turn.reportSteer clientMessageId text status).settleSteer
      clientMessageId).pendingSteerIds = turn.pendingSteerIds.erase clientMessageId :=
    (congrArg Ledger.pending hledger).trans (Ledger.finish_pending _ _ _ clientMessageId)
  have hattempts := attempts_settleSteer (turn.reportSteer clientMessageId text status)
    clientMessageId
  refine ⟨?_, ?_, ?_, ?_⟩
  all_goals grind [keys_setPhase, List.Nodup.mem_erase_iff, get_setPhase, writing_of_settleSteer, reportSteer, cases Tracked, cases ExternalTurnTranscript.Linked]

theorem Tracked.steer (h : Tracked turn) (hfresh : turn.steerAttempts.get clientMessageId = none)
    (text : String) (transcript : ExternalTurnTranscript) :
    Tracked { turn with
      transcript
      taken := turn.taken ++ [.steer clientMessageId]
      pendingSteerIds := turn.pendingSteerIds ++ [clientMessageId]
      steerAttempts := turn.steerAttempts.set clientMessageId ⟨text, .writing none⟩ } := by
  have habsent := OrderedMap.get_eq_none_iff.mp hfresh
  refine ⟨?_, OrderedMap.nodup_keys_set h.nodup clientMessageId _, ?_, ?_⟩
  · rw [steerIds_append, h.recorded, OrderedMap.keys_set, if_neg habsent]
    rfl
  · intro other hmem
    rw [OrderedMap.get_set]
    split_ifs with hsame
    · exact ⟨_, rfl, rfl⟩
    · grind [mem_singleton, cases Tracked]
  · grind [OrderedMap.get_set, cases Tracked]

/-- What a written or answered attempt comes to, in order: another phase, or its report. -/
inductive Advanced (turn : ExternalTurn) (clientMessageId : String) : ExternalTurn → Prop where
  | stay : Advanced turn clientMessageId turn
  | phase (phase : SteerPhase) (hopen : isSettled phase = false)
      (hwithin : ∀ reason, phase ≠ .writing (some reason)) (transcript : ExternalTurnTranscript) :
      Advanced turn clientMessageId ({ turn with transcript }.setPhase clientMessageId phase)
  | report (hfirst : turn.pendingSteerIds.head? = some clientMessageId)
      (transcript : ExternalTurnTranscript) (text : String) (status : SteerStatus) :
      Advanced turn clientMessageId (({ turn with transcript }.reportSteer clientMessageId text
        status).settleSteer clientMessageId)

theorem advanced_steerWritten (h : Tracked turn)
    (horder : InOrder turn (.steerWritten clientMessageId true, now)) :
    Advanced turn clientMessageId (turn.steerWritten clientMessageId true) := by
  have hfirst := horder.1 clientMessageId
  unfold reportsSteer at hfirst
  unfold steerWritten
  split
  · rename_i text breach hwriting
    cases breach with
    | some reason => exact absurd hwriting (h.within clientMessageId text reason)
    | none =>
      simp only [hwriting] at hfirst
      show Advanced turn clientMessageId (if turn.hasEnded then _ else _)
      split_ifs with hended
      · rw [if_pos hended] at hfirst
        exact .report (hfirst rfl) (turn.transcript.resolveSteerRejected clientMessageId
          .turnAlreadyCompleted) text _
      · exact .phase (.asking turn.knownRefusal) rfl (fun _ h => by cases h) turn.transcript
  · rename_i text reasonCode hcorrecting
    simp only [hcorrecting] at hfirst
    exact .report (hfirst trivial) turn.transcript text (.rejected reasonCode)
  · exact .stay

theorem advanced_steerAnswered {answer : SteerAnswer}
    (horder : InOrder turn (.steerAnswered clientMessageId answer, now)) :
    Advanced turn clientMessageId (turn.steerAnswered clientMessageId answer) := by
  have hfirst := horder.1 clientMessageId
  have hanswered : answer ≠ .failed := horder.2
  unfold reportsSteer at hfirst
  unfold steerAnswered
  split
  · rename_i text known hasking
    simp only [hasking] at hfirst
    split
    · rename_i haccepted
      rw [if_pos haccepted] at hfirst
      exact .report (hfirst rfl) turn.transcript text .accepted
    · rename_i reasonCode _
      exact .phase (.correcting reasonCode) rfl (fun _ h => by cases h)
        (turn.transcript.resolveSteerRejected clientMessageId reasonCode)
    · rename_i hfailed
      unfold resolveSteerOutcome at hfailed
      grind
  · exact .stay

theorem Booked.steerIds_taken {after : Ledger Record String ExternalAgentEvent}
    (h : Booked turn after) : steerIds after.taken = steerIds turn.taken := by
  have hevent : ∀ event, steerIds (turn.taken ++ [.event event]) = steerIds turn.taken := by
    intro event
    rw [steerIds_append]
    exact append_nil _
  cases h with
  | stay | drained => rfl
  | admitted event =>
    unfold Ledger.admitEvent
    split_ifs
    · exact hevent event
    · exact hevent event
  | announced event => exact hevent event

/-! ## Runs -/

structure Ordered (turn : ExternalTurn) : Prop where
  latched : Latched turn
  tracked : Tracked turn
  inStep : turn.ledger.InStep Record.steer Record.event
  closed : turn.transcript.terminated = true → turn.terminating = true
  settled : turn.settled.isSome = true → turn.pendingSteerIds = []

theorem Change.closed {powers : Powers} {before after : Latches} (h : Change powers before after)
    (hsound : Sound before) (hwithin : ¬ powers.breaches)
    (hclosed : before.transcript.1 = true → before.controller.1 = true) :
    after.transcript.1 = true → after.controller.1 = true := by
  cases h <;> grind [cases Sound]

theorem Change.settled_eq {powers : Powers} {before after : Latches}
    (h : Change powers before after) (hquiet : ¬ powers.settles) :
    after.settled = before.settled := by
  cases h with
  | settle _ hsettles => exact absurd hsettles hquiet
  | _ => rfl

theorem Ordered.ended (h : Ordered turn) (hclosed : turn.transcript.terminated = true) :
    turn.terminalReason.isSome = true := by
  have hlatch : turn.terminating = turn.terminalReason.isSome := h.latched.sound.controller
  rw [← hlatch]
  exact h.closed hclosed

theorem Ordered.within (horder : InOrder turn timed) : ¬ (turn.powers timed.1).breaches := by
  grind [InOrder, powers]

theorem Ordered.step_quiet (h : Ordered turn)
    {action : TurnAction} (haction : isSteering action = false)
    (horder : InOrder turn (action, now)) :
    Tracked (turn.step byteLengthOf (action, now)) ∧
      (turn.step byteLengthOf (action, now)).ledger.InStep Record.steer Record.event ∧
      (turn.step byteLengthOf (action, now)).pendingSteerIds = turn.pendingSteerIds := by
  have hbooked := booked_step byteLengthOf haction h.ended h.tracked.none_pending horder
  have hsteers := @steers_step turn byteLengthOf action haction now
  exact ⟨h.tracked.of_steers hsteers hbooked.steerIds_taken, hbooked.inStep h.inStep,
    congrArg Prod.snd hsteers⟩

theorem Ordered.advance (h : Ordered turn) (hadvanced : Advanced turn clientMessageId after) :
    Tracked after ∧ after.ledger.InStep Record.steer Record.event ∧
      (turn.pendingSteerIds = [] → after.pendingSteerIds = []) := by
  cases hadvanced with
  | stay => exact ⟨h.tracked, h.inStep, id⟩
  | phase phase hopen hwithin transcript =>
    have htracked : Tracked { turn with transcript } :=
      ⟨h.tracked.recorded, h.tracked.nodup, h.tracked.waiting, h.tracked.within⟩
    have hledger := ledger_setPhase { turn with transcript } clientMessageId phase
    refine ⟨htracked.setPhase hopen hwithin, ?_, ?_⟩
    · rw [hledger]
      exact h.inStep
    · intro hnone
      exact (congrArg Ledger.pending hledger).trans hnone
  | report hfirst transcript text status =>
    have htracked : Tracked { turn with transcript } :=
      ⟨h.tracked.recorded, h.tracked.nodup, h.tracked.waiting, h.tracked.within⟩
    have hledger := ledger_reported { turn with transcript } clientMessageId text status
    refine ⟨htracked.report (h.tracked.pending_nodup h.inStep) clientMessageId text status, ?_, ?_⟩
    · rw [hledger]
      exact h.inStep.finish hfirst
    · intro hnone
      rw [hnone] at hfirst
      exact absurd hfirst (Option.some_ne_none _).symm

theorem Ordered.record (h : Ordered turn) {userId clientMessageId text : String}
    (horder : InOrder turn (.steer userId clientMessageId text, now)) :
    let after := (turn.steer userId clientMessageId text now).1
    Tracked after ∧ after.ledger.InStep Record.steer Record.event ∧
      (turn.settled.isSome = true → after.pendingSteerIds = turn.pendingSteerIds) := by
  intro after
  rcases steer_cases turn userId clientMessageId text now with hsame | hrecorded
  · rw [show after = turn from hsame]
    exact ⟨h.tracked, h.inStep, fun _ => rfl⟩
  · obtain ⟨hrecords, hrunning, hopen, hfresh, hafter⟩ := hrecorded
    obtain ⟨hnone, hfits⟩ := horder.2 hrecords
    have hbreach : (turn.transcript.recordSteerAttempt clientMessageId text now).2 = none := by
      rcases verdict_recordSteerAttempt (h.latched.sound.opened hopen) clientMessageId text now
        with hwithin | hexceeded
      · exact hwithin.2.1
      · rw [hfits] at hexceeded
        exact absurd hexceeded.1 Bool.noConfusion
    rw [hbreach] at hafter
    rw [show after = _ from hafter]
    refine ⟨h.tracked.steer hfresh text _, h.inStep.record hnone clientMessageId, ?_⟩
    intro hsettled
    obtain ⟨reason, hreason⟩ := Option.isSome_iff_exists.mp hsettled
    have hended : turn.terminalReason = some reason :=
      (h.latched.sound.settled reason hreason).1
    have hlatch : turn.terminating = turn.terminalReason.isSome := h.latched.sound.controller
    rw [hended, hrunning] at hlatch
    exact absurd hlatch Bool.noConfusion

theorem settled_settle (now : Nat) (h : (turn.settle false now).settled.isSome = true) :
    turn.settled.isSome = true ∨
      (turn.steerAttempts.all fun entry => isSettled entry.2.phase) = true := by
  grind [settle]

theorem Ordered.next (h : Ordered turn)
    (horder : InOrder turn timed) : Ordered (turn.step byteLengthOf timed) := by
  have hchange := step_change byteLengthOf h.latched.sound h.latched.breached timed
  have hlatched := h.latched.next byteLengthOf timed
  have hclosed := hchange.closed h.latched.sound (Ordered.within horder) h.closed
  obtain ⟨action, now⟩ := timed
  cases hsteering : isSteering action with
  | false =>
    obtain ⟨htracked, hinStep, hpending⟩ := h.step_quiet byteLengthOf hsteering horder
    refine ⟨hlatched, htracked, hinStep, hclosed, fun hsettled => ?_⟩
    rw [hpending]
    by_cases hsettles : (turn.powers action).settles
    · cases action with
      | settle graceLapsed =>
        have hgrace : graceLapsed = false := horder.2
        subst hgrace
        rcases settled_settle now hsettled with hbefore | hall
        · exact h.settled hbefore
        · exact h.tracked.none_pending hall
      | _ => exact absurd hsettles id
    · have hsame : (turn.step byteLengthOf (action, now)).settled = turn.settled :=
        hchange.settled_eq hsettles
      rw [hsame] at hsettled
      exact h.settled hsettled
  | true =>
    have hsame : (turn.step byteLengthOf (action, now)).settled = turn.settled := by
      refine hchange.settled_eq ?_
      cases action with
      | settle => exact absurd hsteering Bool.noConfusion
      | _ => exact id
    have hadvance : ∀ {clientMessageId after}, Advanced turn clientMessageId after →
        Tracked after ∧ after.ledger.InStep Record.steer Record.event ∧
          (turn.settled.isSome = true → after.pendingSteerIds = []) := by
      grind [Ordered.advance, cases Ordered, cases Sound]
    cases action with
    | steer userId clientMessageId text =>
      obtain ⟨htracked, hinStep, hpending⟩ := h.record horder
      refine ⟨hlatched, htracked, hinStep, hclosed, fun hsettled => ?_⟩
      rw [hsame] at hsettled
      exact (hpending hsettled).trans (h.settled hsettled)
    | steerWritten clientMessageId written =>
      have hwritten : written = true := horder.2
      subst hwritten
      obtain ⟨htracked, hinStep, hnone⟩ := hadvance (advanced_steerWritten h.tracked horder)
      exact ⟨hlatched, htracked, hinStep, hclosed, fun hsettled => hnone (hsame ▸ hsettled)⟩
    | steerAnswered clientMessageId answer =>
      obtain ⟨htracked, hinStep, hnone⟩ := hadvance (advanced_steerAnswered horder)
      exact ⟨hlatched, htracked, hinStep, hclosed, fun hsettled => hnone (hsame ▸ hsettled)⟩
    | _ => exact absurd hsteering Bool.noConfusion

theorem Ordered.create (userId chatId sessionId : String) (targetId : ExternalAgentTargetId)
    (review steering : Bool) (startedAt : Nat) :
    Ordered (create userId chatId sessionId targetId review steering startedAt) where
  latched := Latched.create userId chatId sessionId targetId review steering startedAt
  tracked := ⟨rfl, nodup_nil, fun _ h => (nomatch h), fun _ _ _ h => (nomatch h)⟩
  inStep := ⟨rfl, fun _ => rfl⟩
  closed := fun h => nomatch h
  settled := fun _ => rfl

theorem Ordered.reported_once (h : Ordered turn) (clientMessageId : String) :
    (steerIds (turn.reports.map Report.record)).count clientMessageId =
      if clientMessageId ∈ steerIds turn.taken ∧ clientMessageId ∉ turn.pendingSteerIds then 1
      else 0 := by
  have hnodup := h.tracked.nodup
  rw [← h.tracked.recorded, steerIds_taken h.inStep] at hnodup
  obtain ⟨hreported, _, hapart⟩ := nodup_append.mp hnodup
  rw [steerIds_taken h.inStep]
  grind

/-- In a run in which every action is in order, what the observer has been told is the
beginning of what the transcript has taken, a steer is told once it is settled and only
once, and a turn that has ended has told everything. -/
theorem reported_in_order (userId chatId sessionId : String) (targetId : ExternalAgentTargetId)
    (review steering : Bool) (startedAt : Nat) (byteLengthOf : ExternalAgentEvent → Nat)
    (actions : List (TurnAction × Nat))
    (horder : Run.Along (step byteLengthOf) InOrder
      (create userId chatId sessionId targetId review steering startedAt) actions) :
    let reached := Run.run (step byteLengthOf)
      (create userId chatId sessionId targetId review steering startedAt) actions
    reached.reports.map Report.record <+: reached.taken ∧
      (reached.pendingSteerIds = [] → reached.reports.map Report.record = reached.taken) ∧
      (reached.settled.isSome = true → reached.pendingSteerIds = []) ∧
      ∀ clientMessageId,
        (steerIds (reached.reports.map Report.record)).count clientMessageId =
          if clientMessageId ∈ steerIds reached.taken ∧
            clientMessageId ∉ reached.pendingSteerIds then 1 else 0 := by
  intro reached
  have hordered : Ordered reached := by
    refine Run.run_invariant_along ?_
      (Ordered.create userId chatId sessionId targetId review steering startedAt) horder
    intro turn timed _ hturn hinOrder
    exact hturn.next byteLengthOf hinOrder
  refine ⟨?_, hordered.inStep.reported_eq, hordered.settled, hordered.reported_once⟩
  exact ⟨_, hordered.inStep.order.symm⟩

/-- A steer, an event while it is in flight, and the end of the turn. -/
def steeredTurn : List (TurnAction × Nat) :=
  [(.submission (.accepted "turn" true), 1), (.steer "user" "first" "shorter", 2),
    (.envelope (.apply (.textDelta "text") 1), 3), (.steerWritten "first" true, 4),
    (.steerAnswered "first" .accepted, 5), (.envelope (.apply .completed 2), 6),
    (.settle false, 7), (.release, 8), (.complete, 9)]

theorem reported_in_order_steered :
    let reached := Run.run (step fun _ => 64) (create "user" "chat" "session" .codex false true 0)
      steeredTurn
    reached.reports.map Report.record =
      [.steer "first", .event (.textDelta "text"), .event .completed] ∧
      reached.reports.map Report.record = reached.taken := by
  refine ⟨rfl, ?_⟩
  have hreported := reported_in_order "user" "chat" "session" .codex false true 0 (fun _ => 64)
    steeredTurn ?_
  · exact hreported.2.1 rfl
  · have hnone : ∀ clientMessageId : String, none = some clientMessageId →
        ([] : List String).head? = some clientMessageId := fun _ h => h
    refine ⟨⟨hnone, fun h => nomatch h⟩, ⟨hnone, fun _ => ⟨rfl, by decide⟩⟩,
      ⟨fun _ h => (nomatch h), trivial⟩, ⟨fun _ h => (nomatch h), rfl⟩,
      ⟨fun _ h => h, fun h => nomatch h⟩, ⟨hnone, trivial⟩, ⟨hnone, rfl⟩, ⟨hnone, trivial⟩,
      ⟨hnone, trivial⟩, trivial⟩

/-- A steer, an event, another steer, and their answers.  The transcript has the event
between the steers, and the observer is told of it after both. -/
theorem reported_out_of_order :
    let reached := Run.run (step fun _ => 64) (create "user" "chat" "session" .codex false true 0)
      [(.submission (.accepted "turn" true), 1), (.steer "user" "first" "shorter", 2),
        (.envelope (.apply (.textDelta "text") 1), 3), (.steer "user" "second" "longer", 4),
        (.steerWritten "first" true, 5), (.steerWritten "second" true, 6),
        (.steerAnswered "first" .accepted, 7), (.steerAnswered "second" .accepted, 8)]
    reached.taken = [.steer "first", .event (.textDelta "text"), .steer "second"] ∧
      reached.reports.map Report.record =
        [.steer "first", .steer "second", .event (.textDelta "text")] ∧
      reached.pendingSteerIds = [] := by
  exact ⟨rfl, rfl, rfl⟩

end MangoStudio.ExternalAgents.ExternalTurn
