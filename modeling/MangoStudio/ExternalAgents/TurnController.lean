import MangoStudio.Conversation.ExternalTranscript
import MangoStudio.Generation.TurnCheckpoint
import MangoStudio.Lib.Run

/-!
# One external turn

`runTurn` and `steer` of
`apps/api/src/modules/external-agents/application/external-turn-controller.ts`,
with `submitExternalTurn` as its environment: the turn from the moment it is
registered to the moment its result is returned.

* A turn is a machine.  Its actions are the points at which the source runs: an
  envelope of the session, a call of `steer`, a write or an answer that an
  attempt to steer waits for, an outcome of the submission, an abort, a
  teardown, and the continuations of the end.  What stands between two awaits
  is one action, and every interleaving at awaits is a list of actions.
* An action that the turn does not wait for changes nothing.
* `reports` is what the observer has been told of events and steers, and
  `taken` is what the open transcript has taken, both in order.  No function of
  the source reads them.
* Logs, caches, activity and the requests that cancel the vendor's turn are left
  out: no action below reads them.
-/

namespace MangoStudio.ExternalAgents

open Conversation
open Generation (TurnInterruptionReasonCode)

/-! ## States -/

/-- What an attempt to steer waits for. -/
inductive SteerPhase where
  /-- Its durable record.  `breach` is the end that the record gave the transcript. -/
  | writing (breach : Option ExternalTurnTerminalReason)
  /-- The vendor, unless the hub knows the answer. -/
  | asking (known : Option ExternalSteerRejectionReason)
  /-- The durable correction of its record. -/
  | correcting (reasonCode : ExternalSteerRejectionReason)
  | settled
  deriving DecidableEq, Repr

structure SteerAttempt where
  text : String
  phase : SteerPhase
  deriving DecidableEq, Repr

/-- A call of `onEvent` or of `onSteer`. -/
inductive Report where
  | onEvent (event : ExternalAgentEvent)
  | onSteer (clientMessageId text : String) (status : SteerStatus)

/-- An entry of the transcript. -/
inductive Record where
  | event (event : ExternalAgentEvent)
  | steer (clientMessageId : String)

def Report.record : Report → Record
  | .onEvent reported => .event reported
  | .onSteer clientMessageId _ _ => .steer clientMessageId

structure ExternalTurn where
  userId : String
  chatId : String
  review : Bool := false
  /-- `handle.capabilities.steering`. -/
  steering : Bool := true
  sessionId : String
  nativeTurnId : Option String := none
  transcript : ExternalTurnTranscript
  submitting : Bool := true
  dispatchPending : Bool := false
  terminalReason : Option ExternalTurnTerminalReason := none
  terminating : Bool := false
  deferredApprovals : List ExternalApprovalRequest := []
  steerAttempts : OrderedMap String SteerAttempt := []
  pendingSteerIds : List String := []
  deferredEvents : List ExternalAgentEvent := []
  /-- The reason that the end of the turn was settled with. -/
  settled : Option ExternalTurnTerminalReason := none
  /-- The pending approvals have been resolved. -/
  released : Bool := false
  /-- The reason in the `ExternalTurnResult`. -/
  result : Option ExternalTurnTerminalReason := none
  reports : List Report := []
  taken : List Record := []

namespace ExternalTurn

variable (turn : ExternalTurn)

/-! ## The end -/

/-- The first reason stays.  A shutdown with a request on its way does not say whether
the vendor had the turn. -/
def terminate (requested : ExternalTurnTerminalReason) : ExternalTurn :=
  match turn.terminalReason with
  | some _ => turn
  | none =>
    let reason :=
      if requested = .hubRestarted ∧ turn.submitting ∧ turn.dispatchPending then .acceptanceUnknown
      else requested
    { turn with terminalReason := some reason, terminating := true }

def flushDeferredEvents : ExternalTurn :=
  { turn with
    reports := turn.reports ++ turn.deferredEvents.map Report.onEvent
    deferredEvents := [] }

/-! ## Envelopes -/

/-- What the sequencer makes of an envelope.  Duplicates, late events, foreign turns and
events that the hub does not know are ignored. -/
inductive Verdict where
  | ignored
  | gap
  | apply (event : ExternalAgentEvent) (sequence : Nat)

/-- Holds a request back until the vendor's turn has a name, or passes it on. -/
def bindApproval (request : ExternalApprovalRequest) :
    ExternalTurn × List ExternalApprovalRequest :=
  match turn.nativeTurnId with
  | none => ({ turn with deferredApprovals := turn.deferredApprovals ++ [request] }, [])
  | some _ => (turn, [request])

/-- `onEvent`, held back while a steer is pending.  The vendor's handle of the session is
never reported. -/
def reportEvent (event : ExternalAgentEvent) : ExternalTurn :=
  match event with
  | .sessionStarted _ _ => turn
  | event =>
    if turn.pendingSteerIds.isEmpty then
      { turn with reports := turn.reports ++ [.onEvent event] }
    else { turn with deferredEvents := turn.deferredEvents ++ [event] }

/-- The event enters the history if the transcript is open. -/
def takeEvent (event : ExternalAgentEvent) : List Record :=
  match event with
  | .sessionStarted _ _ => turn.taken
  | event => if turn.transcript.terminated then turn.taken else turn.taken ++ [.event event]

/-- An envelope, and the approvals that are passed on for registration. -/
def onEnvelope (byteLengthOf : ExternalAgentEvent → Nat) (verdict : Verdict) (now : Nat) :
    ExternalTurn × List ExternalApprovalRequest :=
  if turn.terminalReason.isSome then (turn, [])
  else
    match verdict with
    | .ignored => (turn, [])
    | .gap => (turn.terminate .sequenceGap, [])
    | .apply event sequence =>
      let (transcript, application) := turn.transcript.apply byteLengthOf event sequence now
      let applied := { turn with transcript, taken := turn.takeEvent event }
      let reported := applied.reportEvent event
      let (bound, requests) :=
        match application.approvalRequested with
        | some request => reported.bindApproval request
        | none => (reported, [])
      match application.terminal with
      | some reason => (bound.terminate reason, requests)
      | none => (bound, requests)

/-- A turn that has taken an event and passed it on, with the approvals to register. -/
def applied (byteLengthOf : ExternalAgentEvent → Nat) (event : ExternalAgentEvent)
    (sequence now : Nat) : ExternalTurn × List ExternalApprovalRequest :=
  let (transcript, application) := turn.transcript.apply byteLengthOf event sequence now
  let reported := { turn with transcript, taken := turn.takeEvent event }.reportEvent event
  match application.approvalRequested with
  | some request => reported.bindApproval request
  | none => (reported, [])

def endWith : Option ExternalTurnTerminalReason → ExternalTurn
  | some reason => turn.terminate reason
  | none => turn

section

variable {turn : ExternalTurn} {byteLengthOf : ExternalAgentEvent → Nat} {now : Nat}

theorem onEnvelope_apply (hrunning : turn.terminalReason = none) (event : ExternalAgentEvent)
    (sequence : Nat) :
    turn.onEnvelope byteLengthOf (.apply event sequence) now =
      ((turn.applied byteLengthOf event sequence now).1.endWith
        (turn.transcript.apply byteLengthOf event sequence now).2.terminal,
        (turn.applied byteLengthOf event sequence now).2) := by
  grind [onEnvelope, applied, endWith]

theorem onEnvelope_ended (hended : turn.terminalReason.isSome = true) (verdict : Verdict) :
    turn.onEnvelope byteLengthOf verdict now = (turn, []) := by
  unfold onEnvelope
  rw [if_pos hended]

theorem onEnvelope_ignored : turn.onEnvelope byteLengthOf .ignored now = (turn, []) := by
  unfold onEnvelope
  split_ifs
  · rfl
  · rfl

theorem onEnvelope_gap (hrunning : turn.terminalReason = none) :
    turn.onEnvelope byteLengthOf .gap now = (turn.terminate .sequenceGap, []) := by
  unfold onEnvelope
  rw [hrunning]
  rfl

end

/-! ## Steers -/

/-- What the vendor's answer comes to: a session that is lost, a request that never left,
or a failure that leaves the delivery open. -/
inductive SteerAnswer where
  | accepted
  | rejected (reasonCode : ExternalSteerRejectionReason)
  | toolArgumentError
  | notSubmitted
  | failed
  deriving DecidableEq, Repr

inductive SteerOutcome where
  | accepted
  | rejected (reasonCode : ExternalSteerRejectionReason)
  | failed
  deriving DecidableEq, Repr

/-- `resolveSteerOutcome`, with what the hub knows by itself. -/
def resolveSteerOutcome (known : Option ExternalSteerRejectionReason) (answer : SteerAnswer) :
    SteerOutcome :=
  match known with
  | some reasonCode => .rejected reasonCode
  | none =>
    match answer with
    | .accepted => .accepted
    | .rejected reasonCode => .rejected reasonCode
    | .toolArgumentError => .rejected .sessionLost
    | .notSubmitted => .rejected .turnNotSteerable
    | .failed => .failed

def setPhase (clientMessageId : String) (phase : SteerPhase) : ExternalTurn :=
  match turn.steerAttempts.get clientMessageId with
  | some attempt =>
    { turn with
      steerAttempts := turn.steerAttempts.set clientMessageId { attempt with phase } }
  | none => turn

/-- The `finally` of an attempt. -/
def settleSteer (clientMessageId : String) : ExternalTurn :=
  let settled :=
    { turn.setPhase clientMessageId .settled with
      pendingSteerIds := turn.pendingSteerIds.erase clientMessageId }
  if settled.pendingSteerIds.isEmpty then settled.flushDeferredEvents else settled

def reportSteer (clientMessageId text : String) (status : SteerStatus) : ExternalTurn :=
  { turn with reports := turn.reports ++ [.onSteer clientMessageId text status] }

def rejectSteer (clientMessageId : String) (reasonCode : ExternalSteerRejectionReason) :
    ExternalTurn :=
  { turn with transcript := turn.transcript.resolveSteerRejected clientMessageId reasonCode }

def hasEnded : Bool := turn.terminating || turn.transcript.terminated

/-- A call of `steer`, up to its first await.  The answer is `none` while the attempt is
in flight. -/
def steer (userId clientMessageId text : String) (now : Nat) :
    ExternalTurn × Option ExternalSteerRejectionReason :=
  if turn.terminating || turn.transcript.terminated || turn.userId ≠ userId then
    (turn, some .turnAlreadyCompleted)
  else if turn.review then (turn, some .turnNotSteerable)
  else
    match turn.steerAttempts.get clientMessageId with
    | some existing => (turn, if existing.text ≠ text then some .idReused else none)
    | none =>
      let (transcript, breach) := turn.transcript.recordSteerAttempt clientMessageId text now
      ({ turn with
        transcript
        taken := turn.taken ++ [.steer clientMessageId]
        pendingSteerIds := turn.pendingSteerIds ++ [clientMessageId]
        steerAttempts := turn.steerAttempts.set clientMessageId ⟨text, .writing breach⟩ }, none)

/-- The hub asks the vendor only if the session can be steered and the turn has a name. -/
def knownRefusal : Option ExternalSteerRejectionReason :=
  if !turn.steering then some .notSupported
  else if turn.nativeTurnId.isNone then some .turnAlreadyCompleted
  else none

/-- The write that an attempt waits for. -/
def steerWritten (clientMessageId : String) (written : Bool) : ExternalTurn :=
  match turn.steerAttempts.get clientMessageId with
  | some ⟨text, .writing breach⟩ =>
    if !written then
      (turn.rejectSteer clientMessageId .turnNotSteerable).settleSteer clientMessageId
    else
      match breach with
      | some reason => (turn.terminate reason).settleSteer clientMessageId
      | none =>
        if turn.hasEnded then
          ((turn.rejectSteer clientMessageId .turnAlreadyCompleted).reportSteer clientMessageId text
            (.rejected .turnAlreadyCompleted)).settleSteer clientMessageId
        else turn.setPhase clientMessageId (.asking turn.knownRefusal)
  | some ⟨text, .correcting reasonCode⟩ =>
    if !written then turn.settleSteer clientMessageId
    else (turn.reportSteer clientMessageId text (.rejected reasonCode)).settleSteer clientMessageId
  | _ => turn

/-- The answer that an attempt waits for. -/
def steerAnswered (clientMessageId : String) (answer : SteerAnswer) : ExternalTurn :=
  match turn.steerAttempts.get clientMessageId with
  | some ⟨text, .asking known⟩ =>
    match resolveSteerOutcome known answer with
    | .accepted => (turn.reportSteer clientMessageId text .accepted).settleSteer clientMessageId
    | .rejected reasonCode =>
      (turn.rejectSteer clientMessageId reasonCode).setPhase clientMessageId (.correcting reasonCode)
    | .failed => turn.settleSteer clientMessageId
  | _ => turn

/-! ## The submission -/

/-- How a failed call reads. -/
inductive CallFailure where
  | consentDenied
  | toolArgumentError
  | acceptanceUnknown
  | other
  deriving DecidableEq, Repr

def terminalReasonForCallFailure : CallFailure → ExternalTurnTerminalReason
  | .consentDenied => .consentRevoked
  | .toolArgumentError => .sessionLost
  | .acceptanceUnknown => .acceptanceUnknown
  | .other => .vendorError

/-- A failure with what is stored of it. -/
structure StartFailure where
  failure : CallFailure
  /-- The request never left the hub. -/
  requestNotSent : Bool := false
  stored : ExternalAgentError
  refusal : Option OpenRefusalPresentation := none

inductive SubmissionOutcome where
  /-- The vendor's name of the turn, and whether the session is still connected. -/
  | accepted (nativeTurnId : String) (isLive : Bool)
  | unresolved (error : Option ExternalAgentError)
  | receiptFailed (error : ExternalAgentError)
  | refused (failure : StartFailure)
  | stopped
  /-- A fault of the submission itself. -/
  | faulted (failure : StartFailure)

/-- Stores an error and sends the same one to the live stream, past the events that a
steer holds back. -/
def recordStartError (stored : ExternalAgentError) (refusal : Option OpenRefusalPresentation) :
    ExternalTurn :=
  { turn with
    transcript := turn.transcript.recordError stored refusal
    taken := turn.taken ++ [.event (.error stored)]
    reports := turn.reports ++ [.onEvent (.error stored)] }

def failStart (failure : StartFailure) : ExternalTurn :=
  (turn.recordStartError failure.stored failure.refusal).terminate
    (terminalReasonForCallFailure failure.failure)

def bindAccepted (nativeTurnId : String) (isLive : Bool) :
    ExternalTurn × List ExternalApprovalRequest :=
  let bound := { turn with
    submitting := false
    nativeTurnId := some nativeTurnId
    transcript := turn.transcript.bindNativeTurn nativeTurnId
    deferredApprovals := [] }
  (if isLive then bound else bound.terminate .runtimeDisconnected, turn.deferredApprovals)

/-- The submission ends once: after an accepted one, the turn waits for no other. -/
def applySubmission (outcome : SubmissionOutcome) : ExternalTurn × List ExternalApprovalRequest :=
  if turn.terminalReason.isSome || !turn.submitting then (turn, [])
  else
    match outcome with
    | .accepted nativeTurnId isLive => turn.bindAccepted nativeTurnId isLive
    | .unresolved error =>
      let recorded :=
        match error with
        | some error => if turn.review then turn.recordStartError error none else turn
        | none => turn
      (recorded.terminate .acceptanceUnknown, [])
    | .receiptFailed error => ((turn.recordStartError error none).terminate .vendorError, [])
    | .refused failure =>
      if turn.review && failure.requestNotSent then (turn.terminate .runtimeDisconnected, [])
      else (turn.failStart failure, [])
    | .stopped => (turn, [])
    | .faulted failure => (turn.failStart failure, [])

/-! ## Actions -/

def terminalReasonForAbort : TurnInterruptionReasonCode → ExternalTurnTerminalReason
  | .userCancelled => .cancelledByUser
  | .serverRestart => .hubRestarted
  | .providerError => .vendorError
  | _ => .runtimeDisconnected

/-- While the submission is under way, a dropped connection is its business. -/
def onTeardown (reason : ExternalTurnTerminalReason) : ExternalTurn :=
  if turn.submitting ∧ reason = .runtimeDisconnected then turn else turn.terminate reason

/-- A session that replaces the one of the turn, while the turn is not stopped. -/
def reopen (sessionId : String) (conversationReset : Option ExternalConversationResetReason) :
    ExternalTurn :=
  if turn.terminalReason.isSome || !turn.submitting then turn
  else
    let rebound := turn.transcript.rebindSession sessionId
    { turn with
      sessionId
      transcript :=
        match conversationReset with
        | some reason => rebound.markConversationReset reason
        | none => rebound }

def isSettled : SteerPhase → Bool
  | .settled => true
  | _ => false

/-- The continuation of `terminate`: all attempts to steer are settled, or the grace
period has lapsed. -/
def settle (graceLapsed : Bool) (now : Nat) : ExternalTurn :=
  match turn.terminalReason, turn.settled with
  | some reason, none =>
    if graceLapsed || turn.steerAttempts.all fun entry => isSettled entry.2.phase then
      { turn.flushDeferredEvents with
        transcript := turn.transcript.finalize reason now
        settled := some reason }
    else turn
  | _, _ => turn

/-- How an approval that nobody answered leaves the transcript. -/
def abandonedSource (reason : ExternalTurnTerminalReason) : ExternalDecisionSource :=
  if reason = .cancelledByUser then .cancelled else .expired

/-- `finish`, once the end is on the stored conversation. -/
def release (now : Nat) : ExternalTurn :=
  match turn.settled with
  | some reason =>
    if turn.released then turn
    else
      { turn with
        released := true
        transcript := turn.transcript.pendingApprovalIds.foldl (fun transcript requestId =>
          transcript.resolveApproval requestId none (abandonedSource reason) now) turn.transcript }
  | none => turn

/-- The return of `finish`, and the `finally` of the turn. -/
def complete : ExternalTurn :=
  if turn.released then { turn with result := turn.settled } else turn

inductive TurnAction where
  | envelope (verdict : Verdict)
  | steer (userId clientMessageId text : String)
  | steerWritten (clientMessageId : String) (written : Bool)
  | steerAnswered (clientMessageId : String) (answer : SteerAnswer)
  | dispatch (pending : Bool)
  | reopen (sessionId : String) (conversationReset : Option ExternalConversationResetReason)
  | submission (outcome : SubmissionOutcome)
  | teardown (reason : ExternalTurnTerminalReason)
  /-- The hold on the chat is revoked, while the submission is under way. -/
  | revoke (reason : ExternalTurnTerminalReason)
  | abort (reasonCode : TurnInterruptionReasonCode)
  /-- An answer to an approval that has been forwarded. -/
  | approvalForwarded (requestId optionId : String)
  | settle (graceLapsed : Bool)
  | release
  | complete

/-- An action, and the approvals that it passes on for registration. -/
def act (byteLengthOf : ExternalAgentEvent → Nat) (action : TurnAction) (now : Nat) :
    ExternalTurn × List ExternalApprovalRequest :=
  match action with
  | .envelope verdict => turn.onEnvelope byteLengthOf verdict now
  | .steer userId clientMessageId text => ((turn.steer userId clientMessageId text now).1, [])
  | .steerWritten clientMessageId written => (turn.steerWritten clientMessageId written, [])
  | .steerAnswered clientMessageId answer => (turn.steerAnswered clientMessageId answer, [])
  | .dispatch pending => ({ turn with dispatchPending := pending }, [])
  | .reopen sessionId conversationReset => (turn.reopen sessionId conversationReset, [])
  | .submission outcome => turn.applySubmission outcome
  | .teardown reason => (turn.onTeardown reason, [])
  | .revoke reason => (if turn.submitting then turn.terminate reason else turn, [])
  | .abort reasonCode => (turn.terminate (terminalReasonForAbort reasonCode), [])
  | .approvalForwarded requestId optionId =>
    ({ turn with
      transcript := turn.transcript.resolveApproval requestId (some optionId) .user now }, [])
  | .settle graceLapsed => (turn.settle graceLapsed now, [])
  | .release => (turn.release now, [])
  | .complete => (turn.complete, [])

/-- The turn after an action at a time. -/
def step (byteLengthOf : ExternalAgentEvent → Nat) (turn : ExternalTurn)
    (timed : TurnAction × Nat) : ExternalTurn :=
  (turn.act byteLengthOf timed.1 timed.2).1

/-- A turn as `runTurn` registers it. -/
def create (userId chatId sessionId : String) (targetId : ExternalAgentTargetId)
    (review steering : Bool) (startedAt : Nat) : ExternalTurn where
  userId := userId
  chatId := chatId
  sessionId := sessionId
  review := review
  steering := steering
  transcript := .create targetId sessionId startedAt externalTurnPayloadMaxBytes
    externalTurnMaxEvents

/-! ## What the functions touch -/

section Touches

variable (turn : ExternalTurn)

theorem terminate_touches (requested : ExternalTurnTerminalReason) :
    ∃ terminalReason terminating,
      turn.terminate requested = { turn with terminalReason, terminating } := by
  unfold terminate
  split
  · exact ⟨turn.terminalReason, turn.terminating, rfl⟩
  · exact ⟨_, _, rfl⟩

theorem setPhase_touches (clientMessageId : String) (phase : SteerPhase) :
    ∃ steerAttempts, turn.setPhase clientMessageId phase = { turn with steerAttempts } := by
  unfold setPhase
  split
  · exact ⟨_, rfl⟩
  · exact ⟨turn.steerAttempts, rfl⟩

theorem settleSteer_touches (clientMessageId : String) :
    ∃ steerAttempts pendingSteerIds deferredEvents reports,
      turn.settleSteer clientMessageId =
        { turn with steerAttempts, pendingSteerIds, deferredEvents, reports } := by
  obtain ⟨steerAttempts, hphase⟩ := setPhase_touches turn clientMessageId .settled
  unfold settleSteer
  dsimp only
  rw [hphase]
  split_ifs
  · exact ⟨_, _, _, _, rfl⟩
  · exact ⟨_, _, turn.deferredEvents, turn.reports, rfl⟩

theorem reportEvent_touches (event : ExternalAgentEvent) :
    ∃ reports deferredEvents,
      turn.reportEvent event = { turn with reports, deferredEvents } := by
  unfold reportEvent
  split
  · exact ⟨turn.reports, turn.deferredEvents, rfl⟩
  · split_ifs
    · exact ⟨_, turn.deferredEvents, rfl⟩
    · exact ⟨turn.reports, _, rfl⟩

theorem bindApproval_touches (request : ExternalApprovalRequest) :
    ∃ deferredApprovals, (turn.bindApproval request).1 = { turn with deferredApprovals } := by
  unfold bindApproval
  split
  · exact ⟨_, rfl⟩
  · exact ⟨turn.deferredApprovals, rfl⟩

theorem applied_touches (byteLengthOf : ExternalAgentEvent → Nat) (event : ExternalAgentEvent)
    (sequence now : Nat) :
    ∃ taken reports deferredEvents deferredApprovals,
      (turn.applied byteLengthOf event sequence now).1 = { turn with
        transcript := (turn.transcript.apply byteLengthOf event sequence now).1
        taken, reports, deferredEvents, deferredApprovals } := by
  obtain ⟨reports, deferredEvents, hreported⟩ := reportEvent_touches
    { turn with
      transcript := (turn.transcript.apply byteLengthOf event sequence now).1
      taken := turn.takeEvent event } event
  unfold applied
  dsimp only
  split
  · rename_i request _
    obtain ⟨deferredApprovals, hbound⟩ := bindApproval_touches
      ({ turn with
        transcript := (turn.transcript.apply byteLengthOf event sequence now).1
        taken := turn.takeEvent event }.reportEvent event) request
    rw [hbound, hreported]
    exact ⟨_, _, _, _, rfl⟩
  · rw [hreported]
    exact ⟨_, _, _, turn.deferredApprovals, rfl⟩

theorem onEnvelope_touches (byteLengthOf : ExternalAgentEvent → Nat) (verdict : Verdict)
    (now : Nat) :
    ∃ transcript taken reports deferredEvents deferredApprovals terminalReason terminating,
      (turn.onEnvelope byteLengthOf verdict now).1 = { turn with
        transcript, taken, reports, deferredEvents, deferredApprovals, terminalReason,
        terminating } := by
  cases hrunning : turn.terminalReason with
  | some reason =>
    rw [onEnvelope_ended (by rw [hrunning]; rfl)]
    exact ⟨_, _, _, _, _, turn.terminalReason, _, rfl⟩
  | none =>
    cases verdict with
    | ignored =>
      rw [onEnvelope_ignored]
      exact ⟨_, _, _, _, _, turn.terminalReason, _, rfl⟩
    | gap =>
      obtain ⟨_, _, hended⟩ := terminate_touches turn .sequenceGap
      rw [onEnvelope_gap hrunning, hended]
      exact ⟨_, _, _, _, _, _, _, rfl⟩
    | apply event sequence =>
      obtain ⟨_, _, _, _, happlied⟩ := applied_touches turn byteLengthOf event sequence now
      rw [onEnvelope_apply hrunning, happlied]
      cases (turn.transcript.apply byteLengthOf event sequence now).2.terminal with
      | none => exact ⟨_, _, _, _, _, turn.terminalReason, turn.terminating, rfl⟩
      | some reason =>
        obtain ⟨_, _, hended⟩ := terminate_touches (turn.applied byteLengthOf event sequence now).1
          reason
        rw [happlied] at hended
        exact ⟨_, _, _, _, _, _, _, hended⟩

/-- The outcome ends the turn. -/
def SubmissionOutcome.ends : SubmissionOutcome → Bool
  | .accepted _ isLive => !isLive
  | .stopped => false
  | _ => true

/-- The outcome stores an error, which the observer is told of at once. -/
def storesError (turn : ExternalTurn) : SubmissionOutcome → Bool
  | .unresolved error => error.isSome && turn.review
  | .receiptFailed _ => true
  | .refused failure => !(turn.review && failure.requestNotSent)
  | .faulted _ => true
  | _ => false

/-- What becomes of a turn whose submission has an outcome. -/
inductive Submitted (outcome : SubmissionOutcome) : ExternalTurn → Prop where
  | stay : Submitted outcome turn
  | accepted (nativeTurnId : String) (hsubmitting : turn.submitting = true)
      (hlive : outcome.ends = false) :
      Submitted outcome { turn with
        submitting := false
        nativeTurnId := some nativeTurnId
        transcript := turn.transcript.bindNativeTurn nativeTurnId
        deferredApprovals := [] }
  | lost (nativeTurnId : String) (hsubmitting : turn.submitting = true)
      (hends : outcome.ends = true) :
      Submitted outcome ({ turn with
        submitting := false
        nativeTurnId := some nativeTurnId
        transcript := turn.transcript.bindNativeTurn nativeTurnId
        deferredApprovals := [] }.terminate .runtimeDisconnected)
  | ended (reason : ExternalTurnTerminalReason) (hends : outcome.ends = true) :
      Submitted outcome (turn.terminate reason)
  | failed (error : ExternalAgentError) (refusal : Option OpenRefusalPresentation)
      (reason : ExternalTurnTerminalReason) (hends : outcome.ends = true)
      (hstores : turn.storesError outcome = true) :
      Submitted outcome ((turn.recordStartError error refusal).terminate reason)

theorem applySubmission_cases (outcome : SubmissionOutcome) :
    Submitted turn outcome (turn.applySubmission outcome).1 := by
  unfold applySubmission
  by_cases hwaits : (turn.terminalReason.isSome || !turn.submitting) = true
  · rw [if_pos hwaits]
    exact .stay
  · rw [if_neg hwaits]
    have hsubmitting : turn.submitting = true := by
      grind
    cases outcome with
    | accepted nativeTurnId isLive =>
      cases isLive with
      | true => exact .accepted nativeTurnId hsubmitting rfl
      | false => exact .lost nativeTurnId hsubmitting rfl
    | unresolved error =>
      cases error with
      | none => exact .ended .acceptanceUnknown rfl
      | some error =>
        dsimp only
        split_ifs with hreview
        · exact .failed error none .acceptanceUnknown rfl hreview
        · exact .ended .acceptanceUnknown rfl
    | receiptFailed error => exact .failed error none .vendorError rfl rfl
    | refused failure =>
      dsimp only
      split_ifs with hunsent
      · exact .ended .runtimeDisconnected rfl
      · exact .failed failure.stored failure.refusal _ rfl
          (congrArg not (Bool.eq_false_of_not_eq_true hunsent))
    | stopped => exact .stay
    | faulted failure => exact .failed failure.stored failure.refusal _ rfl rfl

end Touches

end ExternalTurn

end MangoStudio.ExternalAgents
