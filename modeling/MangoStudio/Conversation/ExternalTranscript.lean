import MangoStudio.Conversation.Stream
import MangoStudio.Lib.Objects
import MangoStudio.Lib.Table

/-!
# The transcript of an external turn

`ExternalTurnTranscript` of
`apps/api/src/modules/external-agents/domain/external-turn-transcript.ts`: what
the hub stores of an external turn, built event by event.

* The source changes parts by reference, and holds references to the open
  reasoning phase, the activities, the approvals and the steers.  Here a part
  is an object with an identity, and a reference is the identity.
* The turn's own record is always the first part, so it is a field of its own.
  Its identity is `0`, and no other object has it.
* The size of an event is the length of its JSON text, a parameter.
-/

namespace MangoStudio.Conversation

/-- What the caller has to act on after an event. -/
structure ExternalTranscriptApplication where
  durable : Bool
  terminal : Option ExternalTurnTerminalReason := none
  approvalRequested : Option ExternalApprovalRequest := none
  approvalResolved : Option String := none

/-- How a refused reopen of a session is presented. -/
structure OpenRefusalPresentation where
  unavailableReason : ExternalAgentUnavailableReason
  remedy : ExternalAgentRemedy
  requiredVersion : Option String := none

def externalTurnPayloadMaxBytes : Nat := 2 * 1024 * 1024

def externalTurnMaxEvents : Nat := 10000

structure ExternalTurnTranscript where
  turnPart : ExternalTurnPart
  /-- The parts after the turn's own. -/
  objects : Objects MessagePart := []
  nextRef : Nat := 1
  activityByCallId : OrderedMap String Nat := []
  approvalByRequestId : OrderedMap String Nat := []
  steerByClientMessageId : OrderedMap String Nat := []
  maxBytes : Nat := externalTurnPayloadMaxBytes
  maxEvents : Nat := externalTurnMaxEvents
  text : String := ""
  openThinking : Option Nat := none
  terminated : Bool := false
  vendorInterrupted : Bool := false

namespace ExternalTurnTranscript

/-! ## The parts -/

/-- The constructor. -/
def create (targetId : ExternalAgentTargetId) (sessionId : String) (startedAt : Nat)
    (maxBytes maxEvents : Nat) : ExternalTurnTranscript where
  turnPart :=
    { targetId, sessionId, status := .active, startedAt, updatedAt := startedAt }
  maxBytes := maxBytes
  maxEvents := maxEvents

variable (transcript : ExternalTurnTranscript)

def parts : List MessagePart := .externalTurn transcript.turnPart :: transcript.objects.values

def refs : List Nat := 0 :: transcript.objects.refs

def markConversationReset (reason : ExternalConversationResetReason) : ExternalTurnTranscript :=
  { transcript with turnPart := { transcript.turnPart with conversationReset := some reason } }

def rebindSession (sessionId : String) : ExternalTurnTranscript :=
  { transcript with turnPart := { transcript.turnPart with sessionId } }

def bindNativeTurn (nativeTurnId : String) : ExternalTurnTranscript :=
  { transcript with turnPart := { transcript.turnPart with nativeTurnId := some nativeTurnId } }

/-- Appends a new object. -/
def push (part : MessagePart) : ExternalTurnTranscript :=
  { transcript with
    objects := transcript.objects ++ [(transcript.nextRef, part)]
    nextRef := transcript.nextRef + 1 }

def mutate (ref : Nat) (change : MessagePart → MessagePart) : ExternalTurnTranscript :=
  { transcript with objects := transcript.objects.mutate ref change }

/-! ## Prose -/

/-- `part.text += delta` on a prose part. -/
def extend (ref : Nat) (kind : ProseKind) (delta : String) : ExternalTurnTranscript :=
  transcript.mutate ref fun part => (part.appended kind delta).getD part

/-- Appends to the trailing part, or opens a new one. -/
def appendText (kind : ProseKind) (delta : String) : ExternalTurnTranscript :=
  match transcript.objects.getLast? with
  | some (ref, last) =>
    if (last.appended kind delta).isSome then transcript.extend ref kind delta
    else transcript.push (.ofProse kind delta)
  | none => transcript.push (.ofProse kind delta)

/-- The last part that is not a notice, by reference. -/
def trailing : Option Nat :=
  (lastContentIndex transcript.parts).bind fun index => transcript.refs[index]?

/-- The trailing part, when it is a reasoning block. -/
def trailingThinking : Option Nat :=
  match transcript.objects.getLast? with
  | some (ref, last) => if last.thinkingText?.isSome then some ref else none
  | none => none

/-- Appends to the open phase, even after a notice. -/
def appendReasoning (delta : String) : ExternalTurnTranscript :=
  match transcript.openThinking with
  | some ref =>
    if transcript.trailing = some ref then transcript.extend ref .thinking delta
    else transcript.appendText .thinking delta
  | none => transcript.appendText .thinking delta

/-- Closes the open phase, removes it if it is empty, and returns the part that
survived. -/
def closeThinking : ExternalTurnTranscript × Option Nat :=
  let closed := { transcript with openThinking := none }
  match transcript.openThinking with
  | none => (closed, none)
  | some ref =>
    if (transcript.objects.find ref).bind MessagePart.thinkingText? = some "" then
      ({ closed with objects := transcript.objects.remove ref }, none)
    else (closed, some ref)

/-! ## The end -/

def markIncomplete : Option Nat → ExternalTurnTranscript
  | some ref => transcript.mutate ref MessagePart.markIncomplete
  | none => transcript

/-- Settles what is open, and writes the end of the turn.  The first end stays. -/
def finalize (reason : ExternalTurnTerminalReason) (now : Nat) : ExternalTurnTranscript :=
  if transcript.terminated then transcript
  else
    let stoppedInReasoning :=
      transcript.openThinking.isSome ∧ transcript.openThinking = transcript.trailing
    let (closed, openPhase) := transcript.closeThinking
    let marked :=
      if reason = .completed then closed
      else closed.markIncomplete (if stoppedInReasoning then openPhase else closed.trailing)
    { marked with
      terminated := true
      objects := marked.objects.mutateAll (marked.activityByCallId.map Prod.snd)
        (MessagePart.settleActivity (externalActivityStatusForTerminal reason))
      turnPart := { marked.turnPart with
        status := .terminal, terminalReason := some reason, updatedAt := now } }

/-! ## Approvals, errors and steers -/

/-- The first answer to an approval stays. -/
def resolveApproval (requestId : String) (optionId : Option String)
    (source : ExternalDecisionSource) (now : Nat) : ExternalTurnTranscript :=
  match transcript.approvalByRequestId.get requestId with
  | none => transcript
  | some ref =>
    transcript.mutate ref <| MessagePart.onApproval fun approval =>
      if approval.decisionSource = none then
        { approval with
          decision := optionId <|> approval.decision
          decisionSource := some source
          resolvedAt := some now }
      else approval

def pendingApprovalIds : List String :=
  transcript.approvalByRequestId.filterMap fun entry =>
    match transcript.objects.find entry.2 with
    | some (.externalApproval approval) =>
      if approval.decisionSource = none then some approval.requestId else none
    | _ => none

def recordError (error : ExternalAgentError) (refusal : Option OpenRefusalPresentation) :
    ExternalTurnTranscript :=
  let turnPart := { transcript.turnPart with error := some error }
  match refusal with
  | some refusal =>
    { transcript with turnPart := { turnPart with
      unavailableReason := some refusal.unavailableReason
      remedy := some refusal.remedy
      requiredVersion := refusal.requiredVersion.filter (· ≠ "") <|> turnPart.requiredVersion } }
  | none =>
    { transcript with turnPart := { turnPart with
      remedy := turnErrorRemedyFor turnPart.targetId error <|> turnPart.remedy } }

def budgetExceeded : Bool :=
  transcript.turnPart.persistedBytes > transcript.maxBytes ||
    transcript.turnPart.eventCount > transcript.maxEvents

/-- Records a steer before its outcome is known. -/
def recordSteerAttempt (clientMessageId text : String) (now : Nat) :
    ExternalTurnTranscript × Option ExternalTurnTerminalReason :=
  let pushed := transcript.push (.externalSteer
    { targetId := transcript.turnPart.targetId, clientMessageId, text, status := .accepted,
      createdAt := now })
  let recorded := { pushed with
    steerByClientMessageId := transcript.steerByClientMessageId.set clientMessageId
      transcript.nextRef
    turnPart := { transcript.turnPart with
      eventCount := transcript.turnPart.eventCount + 1
      persistedBytes := transcript.turnPart.persistedBytes + Utf8.byteLength text.toList
      updatedAt := now } }
  if recorded.budgetExceeded then
    (recorded.finalize .limitExceeded now, some .limitExceeded)
  else (recorded, none)

def resolveSteerRejected (clientMessageId : String) (reasonCode : ExternalSteerRejectionReason) :
    ExternalTurnTranscript :=
  match transcript.steerByClientMessageId.get clientMessageId with
  | none => transcript
  | some ref =>
    transcript.mutate ref <| MessagePart.onSteer fun steer =>
      if steer.status = .accepted then { steer with status := .rejected reasonCode } else steer

/-! ## Events -/

/-- A change of the activity that a call id names. -/
def updateActivity (callId : String) (change : ExternalActivityPart → ExternalActivityPart) :
    ExternalTurnTranscript :=
  match transcript.activityByCallId.get callId with
  | none => transcript
  | some ref =>
    transcript.mutate ref (MessagePart.onActivity change)

def applyEvent (event : ExternalAgentEvent) (now : Nat) :
    ExternalTurnTranscript × ExternalTranscriptApplication :=
  match event with
  | .sessionStarted _ _ => (transcript, { durable := false })
  | .commandsAvailable _ => (transcript, { durable := false })
  | .textDelta text =>
    ({ transcript with text := transcript.text ++ text }.appendText .text text,
      { durable := false })
  | .reasoningDelta text => (transcript.appendReasoning text, { durable := false })
  | .reasoningStarted =>
    let opened := transcript.closeThinking.1.appendText .thinking ""
    ({ opened with openThinking := opened.trailingThinking }, { durable := false })
  | .reasoningEnded => (transcript.closeThinking.1, { durable := false })
  | .activityStarted callId activity =>
    let pushed := transcript.push (.externalActivity
      { targetId := transcript.turnPart.targetId, callId, name := activity.name,
        kind := activity.kind, title := activity.title, detail := activity.detail,
        status := .running, truncated := activity.truncated })
    ({ pushed with
      activityByCallId := transcript.activityByCallId.set callId transcript.nextRef },
      { durable := true })
  | .activityUpdated callId update =>
    (transcript.updateActivity callId fun activity =>
      { activity with
        title := update.title.getD activity.title
        detail := update.detail <|> activity.detail
        truncated := activity.truncated || update.truncated }, { durable := false })
  | .activityCompleted callId result =>
    (transcript.updateActivity callId fun activity =>
      { activity with
        status := .settled result.status
        detail := result.detail <|> activity.detail
        truncated := activity.truncated || result.truncated
        isError := activity.isError || result.status == .failed },
      { durable := (transcript.activityByCallId.get callId).isSome })
  | .approvalRequested request =>
    let pushed := transcript.push (.externalApproval
      { targetId := transcript.turnPart.targetId, requestId := request.requestId,
        kind := request.kind, title := request.title, detail := request.detail,
        options := request.options, expiresAtMs := request.expiresAtMs,
        truncated := request.truncated })
    ({ pushed with
      approvalByRequestId := transcript.approvalByRequestId.set request.requestId
        transcript.nextRef },
      { durable := true, approvalRequested := some request })
  | .approvalResolved requestId decision =>
    (transcript.resolveApproval requestId (some decision.optionId) decision.source now,
      { durable := true, approvalResolved := some requestId })
  | .usage usage =>
    ({ transcript with turnPart := { transcript.turnPart with
      usage := some ((transcript.turnPart.usage.getD {}).spread usage) } }, { durable := false })
  | .threadUsage _ => (transcript, { durable := false })
  | .accountLimits _ => (transcript, { durable := false })
  | .notice notice => (transcript.push (.externalNotice notice), { durable := false })
  | .cancelled => ({ transcript with vendorInterrupted := true }, { durable := false })
  | .completed =>
    let reason := if transcript.vendorInterrupted then .interrupted else .completed
    (transcript.finalize reason now, { durable := true, terminal := some reason })
  | .error error =>
    ((transcript.recordError error none).finalize .vendorError now,
      { durable := true, terminal := some .vendorError })

/-- Vendor state for display only. -/
def observational : ExternalAgentEvent → Bool
  | .threadUsage _ | .accountLimits _ | .commandsAvailable _ => true
  | _ => false

/-- Whether an event is taken at all: observational state and notices past the
cap are not. -/
def accepts (event : ExternalAgentEvent) : Bool :=
  !observational event &&
    match event with
    | .notice _ => canAddExternalNotice transcript.parts
    | _ => true

/-- The turn's record, charged with an event. -/
def charge (sequence now bytes : Nat) : ExternalTurnTranscript :=
  { transcript with turnPart := { transcript.turnPart with
    lastSequence := sequence
    updatedAt := now
    eventCount := transcript.turnPart.eventCount + 1
    persistedBytes := transcript.turnPart.persistedBytes + bytes } }

def apply (byteLengthOf : ExternalAgentEvent → Nat) (event : ExternalAgentEvent)
    (sequence now : Nat) : ExternalTurnTranscript × ExternalTranscriptApplication :=
  if transcript.terminated then (transcript, { durable := false })
  else if !transcript.accepts event then (transcript, { durable := false })
  else
    let charged := transcript.charge sequence now (byteLengthOf event)
    let (applied, application) := charged.applyEvent event now
    if charged.budgetExceeded then
      let ended := applied.finalize .limitExceeded now
      (ended, { application with durable := true, terminal := ended.turnPart.terminalReason })
    else (applied, application)

end ExternalTurnTranscript

end MangoStudio.Conversation
