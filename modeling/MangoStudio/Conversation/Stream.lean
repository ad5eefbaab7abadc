import MangoStudio.Conversation.Parts

/-!
# Events and chunks

The neutral events of an external agent, the chunks of the stream that a
browser reads, and `externalAgentEventToStreamChunk`
(`apps/shared/src/streaming/external-events.ts`), which makes one of the other.

The chunks are those of an external turn and those that
`emitAgentStreamEvent` yields for the text, the reasoning and the tool calls of
an internal one.  The `done` flag, which is `false` on all of them, is left
out.
-/

namespace MangoStudio.Conversation

/-! ## Events -/

structure ExternalAgentCommand where
  name : String
  description : Option String := none

structure ExternalActivityView where
  name : String
  kind : ExternalActivityKind
  title : String
  detail : Option String := none
  truncated : Bool := false

structure ExternalActivityUpdate where
  title : Option String := none
  detail : Option String := none
  truncated : Bool := false

structure ExternalActivityResult where
  status : ExternalActivityStatus
  detail : Option String := none
  truncated : Bool := false

structure ExternalApprovalRequest where
  requestId : String
  kind : ExternalActivityKind
  title : String
  detail : Option String := none
  options : List ExternalApprovalOption
  expiresAtMs : Nat
  truncated : Bool := false

structure ExternalApprovalDecision where
  optionId : String
  source : ExternalDecisionSource

structure ExternalThreadUsage where
  last : Option ExternalUsage := none
  total : Option ExternalUsage := none
  contextWindowTokens : Option Nat := none

/-- An event of the vendor, in the words that all adapters share. -/
inductive ExternalAgentEvent where
  | sessionStarted (sessionId : String) (resumed : Bool)
  | commandsAvailable (commands : List ExternalAgentCommand)
  | textDelta (text : String)
  | reasoningDelta (text : String)
  | reasoningStarted
  | reasoningEnded
  | activityStarted (callId : String) (activity : ExternalActivityView)
  | activityUpdated (callId : String) (update : ExternalActivityUpdate)
  | activityCompleted (callId : String) (result : ExternalActivityResult)
  | approvalRequested (request : ExternalApprovalRequest)
  | approvalResolved (requestId : String) (decision : ExternalApprovalDecision)
  | usage (usage : ExternalUsage)
  | threadUsage (usage : ExternalThreadUsage)
  | accountLimits (limits : Json)
  | notice (notice : ExternalNoticePart)
  | cancelled
  | completed
  | error (error : ExternalAgentError)

/-! ## Chunks -/

/-- The account of a turn. -/
structure ExternalTurnAccountBinding where
  vendorAccountFingerprint : Option String

/-- What the hub knows about an open session. -/
structure ExternalStreamSession where
  sessionId : String
  targetId : ExternalAgentTargetId
  resumed : Bool
  fallbackReason : Option String := none
  conversationReset : Option ExternalConversationResetReason := none
  model : Option String := none

/-- Why the agent could not be reached, beside an error. -/
structure ErrorReason where
  unavailableReason : ExternalAgentUnavailableReason
  requiredVersion : Option String := none

inductive StreamChunk where
  | thinkingStart
  | thinking (text : String)
  | text (text : String)
  | toolCallStarted (callId name : String)
  | toolCallCompleted (callId name arguments : String)
  | toolResult (callId name : String) (result : Json) (isError : Bool)
  | continuationTransition (provider modelName : String) (fromProvider : Option String)
      (fromMode toMode reasonCode : String) (detail : Option String)
  | fallbackNotice (fromMode toMode reason : String)
  | externalSessionStarted (session : ExternalStreamSession)
  | externalText (text : String)
  | externalReasoningStarted
  | externalReasoningEnded
  | externalReasoning (text : String)
  | externalActivityStarted (callId : String) (activity : ExternalActivityView)
  | externalActivityUpdated (callId : String) (update : ExternalActivityUpdate)
  | externalActivityCompleted (callId : String) (status : ExternalActivityStatus)
      (detail : Option String) (isError truncated : Bool)
  | externalApprovalRequest (request : ExternalApprovalRequest)
  | externalApprovalStatus (requestId : String) (decision : ExternalApprovalDecision)
  | externalUsage (usage : ExternalUsage)
  | externalThreadUsage (usage : ExternalThreadUsage)
  | externalAccountLimits (limits : Json) (vendorAccountFingerprint : Option String)
  | externalCommands (commands : List ExternalAgentCommand)
  | externalNotice (notice : ExternalNoticePart)
  | externalSteer (clientMessageId text : String) (status : SteerStatus)
  | externalError (error : ExternalAgentError) (remedy : Option ExternalAgentRemedy)
      (unavailableReason : Option ExternalAgentUnavailableReason) (requiredVersion : Option String)
  | externalTurnCompleted (reason : ExternalTurnTerminalReason)

/-- `chunk.type.startsWith('external_')`. -/
def StreamChunk.isExternal : StreamChunk → Bool
  | .thinkingStart | .thinking _ | .text _ | .toolCallStarted _ _ | .toolCallCompleted _ _ _
  | .toolResult _ _ _ _ | .continuationTransition _ _ _ _ _ _ _ | .fallbackNotice _ _ _ => false
  | _ => true

def externalSessionStartedChunk (session : ExternalStreamSession) : StreamChunk :=
  .externalSessionStarted session

def externalTurnCompletedChunk (reason : ExternalTurnTerminalReason) : StreamChunk :=
  .externalTurnCompleted reason

/-- The chunk of an event, if it has one of its own. -/
def externalAgentEventToStreamChunk (event : ExternalAgentEvent)
    (binding : ExternalTurnAccountBinding) (errorRemedy : Option ExternalAgentRemedy)
    (errorReason : Option ErrorReason) : Option StreamChunk :=
  match event with
  | .sessionStarted _ _ | .cancelled | .completed => none
  | .commandsAvailable commands => some (.externalCommands commands)
  | .textDelta text => some (.externalText text)
  | .reasoningDelta text => some (.externalReasoning text)
  | .reasoningStarted => some .externalReasoningStarted
  | .reasoningEnded => some .externalReasoningEnded
  | .activityStarted callId activity => some (.externalActivityStarted callId activity)
  | .activityUpdated callId update => some (.externalActivityUpdated callId update)
  | .activityCompleted callId result =>
    some (.externalActivityCompleted callId result.status result.detail
      (result.status == .failed) result.truncated)
  | .approvalRequested request => some (.externalApprovalRequest request)
  | .approvalResolved requestId decision => some (.externalApprovalStatus requestId decision)
  | .usage usage => some (.externalUsage usage)
  | .threadUsage usage => some (.externalThreadUsage usage)
  | .accountLimits limits =>
    some (.externalAccountLimits limits (binding.vendorAccountFingerprint.filter (· ≠ "")))
  | .notice notice => some (.externalNotice notice)
  | .error error =>
    some (.externalError error errorRemedy (errorReason.map ErrorReason.unavailableReason)
      ((errorReason.bind ErrorReason.requiredVersion).filter (· ≠ "")))

end MangoStudio.Conversation
