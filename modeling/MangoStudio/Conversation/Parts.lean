import MangoStudio.Conversation.ToolExecutions
import MangoStudio.Protocol.Frame

/-!
# Message parts

The blocks of an assistant message (`apps/shared/src/types/agent-events.ts`),
with what the two sides of a turn share about them:
`apps/shared/src/external-agents/notice.ts` and `terminal-status.ts`.

* A flag that the source only ever writes as `true` is a `Bool`, and an absent
  field is `none`.
* The parts that only other features read (media, questions, traces,
  checkpoints) are `other`, with their fields as they are.
-/

namespace MangoStudio.Conversation

open Protocol (OpenObject)

/-! ## External agents -/

inductive ExternalAgentTargetId where
  | codex
  | cursor
  | claude
  deriving DecidableEq, Repr

inductive ExternalActivityKind where
  | command
  | fileChange
  | mcp
  | subagent
  | webSearch
  | image
  | plan
  | review
  | compaction
  | other
  deriving DecidableEq, Repr

/-- How the vendor says an activity ended. -/
inductive ExternalActivityStatus where
  | completed
  | failed
  | cancelled
  deriving DecidableEq, Repr

inductive ExternalTurnTerminalReason where
  | completed
  | cancelledByUser
  | interrupted
  | vendorError
  | runtimeDisconnected
  | hubRestarted
  | sequenceGap
  | limitExceeded
  | consentRevoked
  | sessionLost
  | acceptanceUnknown
  deriving DecidableEq, Repr

inductive ExternalSteerRejectionReason where
  | turnAlreadyCompleted
  | notSupported
  | sessionLost
  | turnNotSteerable
  | idReused
  deriving DecidableEq, Repr

inductive ExternalConversationResetReason where
  | nonresumable
  | unavailable
  deriving DecidableEq, Repr

inductive ExternalAgentUnavailableReason where
  | notInstalled
  | signedOut
  | runtimeUnsupported
  | runtimeDenied
  | environmentUnreachable
  | isolationUnproven
  | versionUnsupported
  | disclosureRequired
  | installedButUnusable
  deriving DecidableEq, Repr

inductive ExternalAgentRemedyKind where
  | install
  | update
  | signIn
  | contactAdmin
  | acceptDisclosure
  | none
  deriving DecidableEq, Repr

structure ExternalAgentRemedy where
  kind : ExternalAgentRemedyKind
  command : Option String := none
  deriving DecidableEq, Repr

structure ExternalAgentError where
  code : String
  message : String
  requestId : Option String := none
  retryable : Option Bool := none
  vendorCode : Option String := none
  truncated : Option Bool := none
  deriving DecidableEq, Repr

/-- Tokens, as far as the vendor reports them. -/
structure ExternalUsage where
  inputTokens : Option Nat := none
  outputTokens : Option Nat := none
  cacheReadTokens : Option Nat := none
  cacheWriteTokens : Option Nat := none
  reasoningTokens : Option Nat := none
  totalTokens : Option Nat := none
  deriving DecidableEq, Repr

/-- `{ ...earlier, ...later }`. -/
def ExternalUsage.spread (earlier later : ExternalUsage) : ExternalUsage where
  inputTokens := later.inputTokens <|> earlier.inputTokens
  outputTokens := later.outputTokens <|> earlier.outputTokens
  cacheReadTokens := later.cacheReadTokens <|> earlier.cacheReadTokens
  cacheWriteTokens := later.cacheWriteTokens <|> earlier.cacheWriteTokens
  reasoningTokens := later.reasoningTokens <|> earlier.reasoningTokens
  totalTokens := later.totalTokens <|> earlier.totalTokens

structure ExternalApprovalOption where
  id : String
  labelKey : Option String := none
  rawLabel : Option String := none
  isDestructive : Bool
  deriving DecidableEq, Repr

inductive ExternalDecisionSource where
  | user
  | autoReview
  | expired
  | cancelled
  deriving DecidableEq, Repr

inductive ExternalNoticeSeverity where
  | info
  | warning
  | error
  deriving DecidableEq, Repr

/-! ## Parts -/

inductive ActivityState where
  | running
  | settled (status : ExternalActivityStatus)
  deriving DecidableEq, Repr

structure ExternalActivityPart where
  targetId : ExternalAgentTargetId
  callId : String
  name : String
  kind : ExternalActivityKind
  title : String
  detail : Option String := none
  status : ActivityState
  isError : Bool := false
  truncated : Bool := false
  deriving DecidableEq, Repr

structure ExternalApprovalPart where
  targetId : ExternalAgentTargetId
  requestId : String
  kind : ExternalActivityKind
  title : String
  detail : Option String := none
  options : List ExternalApprovalOption
  expiresAtMs : Nat
  decision : Option String := none
  decisionSource : Option ExternalDecisionSource := none
  resolvedAt : Option Nat := none
  truncated : Bool := false
  deriving DecidableEq, Repr

inductive SteerStatus where
  | accepted
  | rejected (reasonCode : ExternalSteerRejectionReason)
  deriving DecidableEq, Repr

structure ExternalSteerPart where
  targetId : ExternalAgentTargetId
  clientMessageId : String
  text : String
  status : SteerStatus
  createdAt : Nat
  deriving DecidableEq, Repr

structure ExternalNoticePart where
  severity : ExternalNoticeSeverity
  title : String
  description : Option String := none
  deriving DecidableEq, Repr

inductive ExternalTurnStatus where
  | active
  | terminal
  deriving DecidableEq, Repr

/-- The record of an external turn. -/
structure ExternalTurnPart where
  targetId : ExternalAgentTargetId
  sessionId : String
  nativeTurnId : Option String := none
  status : ExternalTurnStatus
  terminalReason : Option ExternalTurnTerminalReason := none
  startedAt : Nat
  updatedAt : Nat
  lastSequence : Nat := 0
  eventCount : Nat := 0
  persistedBytes : Nat := 0
  usage : Option ExternalUsage := none
  error : Option ExternalAgentError := none
  remedy : Option ExternalAgentRemedy := none
  unavailableReason : Option ExternalAgentUnavailableReason := none
  requiredVersion : Option String := none
  conversationReset : Option ExternalConversationResetReason := none
  deriving DecidableEq, Repr

structure ToolCallPart where
  toolCallId : String
  name : String
  args : Json
  execution : Option ToolExecutionSnapshot := none

structure ToolResultPart where
  toolCallId : String
  content : String
  isError : Bool := false
  deriving DecidableEq, Repr

inductive GeneratedImageStatus where
  | generating
  | completed
  | error
  deriving DecidableEq, Repr

structure GeneratedImagePart where
  imageId : String
  toolCallId : String
  status : GeneratedImageStatus
  prompt : String
  imageUrl : Option String := none
  error : Option String := none
  errorCode : Option String := none
  modelName : Option String := none
  generationTime : Option String := none
  deriving DecidableEq, Repr

inductive McpElicitationStatus where
  | pending
  | accepted
  | declined
  | cancelled
  deriving DecidableEq, Repr

inductive McpElicitationTerminalReason where
  | responded
  | toolTimeout
  | turnAborted
  | toolFinished
  | toolFailed
  | serverClosed
  deriving DecidableEq, Repr

structure McpElicitationPart where
  elicitationId : String
  toolCallId : String
  serverSlug : String
  message : String
  fields : Json
  status : McpElicitationStatus
  reason : Option McpElicitationTerminalReason := none

inductive TodoStatus where
  | pending
  | inProgress
  | completed
  deriving DecidableEq, Repr

structure TodoItem where
  content : String
  status : TodoStatus
  deriving DecidableEq, Repr

structure TodoPart where
  toolCallId : String
  todos : List TodoItem
  deriving DecidableEq, Repr

structure ContinuationTransitionPart where
  provider : String
  modelName : String
  fromProvider : Option String := none
  fromMode : String
  toMode : String
  reasonCode : String
  detail : Option String := none
  recovered : Bool
  deriving DecidableEq, Repr

/-- The kinds that no function here reads. -/
inductive OtherPartKind where
  | mcpMedia
  | question
  | subagentTrace
  | turnCheckpoint
  | error
  | systemEvent
  deriving DecidableEq, Repr

inductive MessagePart where
  | text (text : String) (incomplete : Bool := false)
  | thinking (text : String) (redacted : Bool := false) (incomplete : Bool := false)
  | toolCall (part : ToolCallPart)
  | toolResult (part : ToolResultPart)
  | generatedImage (part : GeneratedImagePart)
  | mcpElicitation (part : McpElicitationPart)
  | todo (part : TodoPart)
  | externalActivity (part : ExternalActivityPart)
  | externalApproval (part : ExternalApprovalPart)
  | externalSteer (part : ExternalSteerPart)
  | externalNotice (part : ExternalNoticePart)
  | externalTurn (part : ExternalTurnPart)
  | continuationTransition (part : ContinuationTransitionPart)
  | other (kind : OtherPartKind) (fields : OpenObject)

/-- The two kinds that arrive as a stream of deltas. -/
inductive ProseKind where
  | text
  | thinking
  deriving DecidableEq, Repr

namespace MessagePart

def isNotice : MessagePart → Bool
  | .externalNotice _ => true
  | _ => false

/-- A new part of prose. -/
def ofProse : ProseKind → String → MessagePart
  | .text, prose => .text prose
  | .thinking, prose => .thinking prose

/-- The part with more text at its end, if it is prose of the kind. -/
def appended (kind : ProseKind) (delta : String) : MessagePart → Option MessagePart
  | .text prose incomplete =>
    if kind = .text then some (.text (prose ++ delta) incomplete) else none
  | .thinking prose redacted incomplete =>
    if kind = .thinking then some (.thinking (prose ++ delta) redacted incomplete) else none
  | _ => none

/-- The part with its mark, if it is prose. -/
def markIncomplete : MessagePart → MessagePart
  | .text prose _ => .text prose true
  | .thinking prose redacted _ => .thinking prose redacted true
  | part => part

def thinkingText? : MessagePart → Option String
  | .thinking prose _ _ => some prose
  | _ => none

/-- A change of an activity, and of no other part. -/
def onActivity (change : ExternalActivityPart → ExternalActivityPart) : MessagePart → MessagePart
  | .externalActivity activity => .externalActivity (change activity)
  | part => part

/-- A change of an approval, and of no other part. -/
def onApproval (change : ExternalApprovalPart → ExternalApprovalPart) : MessagePart → MessagePart
  | .externalApproval approval => .externalApproval (change approval)
  | part => part

/-- A change of a steer, and of no other part. -/
def onSteer (change : ExternalSteerPart → ExternalSteerPart) : MessagePart → MessagePart
  | .externalSteer steer => .externalSteer (change steer)
  | part => part

/-- An activity still running, with the status that the turn's end gives it. -/
def settleActivity (status : ExternalActivityStatus) : MessagePart → MessagePart
  | .externalActivity part =>
    if part.status = .running then
      .externalActivity { part with
        status := .settled status
        isError := part.isError || status == .failed }
    else .externalActivity part
  | part => part

end MessagePart

/-! ## Notices -/

def maxExternalNoticesPerTurn : Nat := 8

def canAddExternalNotice (parts : List MessagePart) : Bool :=
  parts.countP MessagePart.isNotice < maxExternalNoticesPerTurn

/-- The index of the last part that is not a notice. -/
def lastContentIndex (parts : List MessagePart) : Option Nat :=
  (List.range parts.length).reverse.find? fun index =>
    match parts[index]? with
    | some part => !part.isNotice
    | none => false

/-! ## The end of a turn -/

def externalActivityStatusForTerminal : ExternalTurnTerminalReason → ExternalActivityStatus
  | .completed => .completed
  | .cancelledByUser => .cancelled
  | .interrupted => .cancelled
  | .vendorError => .failed
  | .runtimeDisconnected => .failed
  | .hubRestarted => .failed
  | .sequenceGap => .failed
  | .limitExceeded => .failed
  | .consentRevoked => .cancelled
  | .sessionLost => .failed
  | .acceptanceUnknown => .failed

/-! ## Remedies -/

def externalAuthRequiredErrorCode : String := "acp-auth-required"

def externalAgentRemedies : ExternalAgentUnavailableReason → ExternalAgentRemedyKind
  | .notInstalled => .install
  | .signedOut => .signIn
  | .versionUnsupported => .update
  | .runtimeUnsupported => .none
  | .runtimeDenied => .contactAdmin
  | .environmentUnreachable => .contactAdmin
  | .isolationUnproven => .contactAdmin
  | .disclosureRequired => .acceptDisclosure
  | .installedButUnusable => .contactAdmin

/-- What to offer for a reason.  The command goes with a sign-in only. -/
def externalRemedyFor (reason : ExternalAgentUnavailableReason) (loginCommand : Option String) :
    ExternalAgentRemedy :=
  let kind := externalAgentRemedies reason
  ⟨kind, if kind = .signIn then loginCommand.filter (· ≠ "") else none⟩

/-- `login.json`, as the command that a person runs. -/
def externalAgentLoginCommand : ExternalAgentTargetId → String
  | .codex => "codex login"
  | .cursor => "cursor-agent login"
  | .claude => "claude auth login"

def externalRemedyForError (error : ExternalAgentError) (loginCommand : Option String) :
    Option ExternalAgentRemedy :=
  if error.code ≠ externalAuthRequiredErrorCode then none
  else some (externalRemedyFor .signedOut loginCommand)

/-- What the hub offers beside an error of a target. -/
def turnErrorRemedyFor (targetId : ExternalAgentTargetId) (error : ExternalAgentError) :
    Option ExternalAgentRemedy :=
  externalRemedyForError error (some (externalAgentLoginCommand targetId))

end MangoStudio.Conversation
