import MangoStudio.Conversation.Parts
import MangoStudio.Lib.JsText

/-!
# The checkpoint of a turn

`refreshTurnCheckpointPart` of
`apps/api/src/modules/generation/application/turn-checkpoint.ts`, with the types
of `apps/shared/src/turn-recovery/schemas.ts`: the bounded summary of a turn
that is stored beside the content of its message.

* The texts of a checkpoint are cut by UTF-16 code units, so they are `Units`.
* The fields that only explain the checkpoint to a reader (its provider, model
  and agent, when the turn started) are left out.
-/

namespace MangoStudio.Generation

open Conversation JsText

/-! ## Types -/

inductive TurnCheckpointStatus where
  | active
  | completed
  | interrupted
  | dismissed
  | resumed
  deriving DecidableEq, Repr

inductive TurnInterruptionReasonCode where
  | clientDisconnect
  | serverRestart
  | providerError
  | userCancelled
  | toolLoopExhausted
  | unknown
  deriving DecidableEq, Repr

inductive ToolRetrySafety where
  | safeRead
  | confirmationRequired
  | unknown
  deriving DecidableEq, Repr

inductive IncompleteToolCallOutcome where
  | notStarted
  | interrupted
  | unknown
  deriving DecidableEq, Repr

structure CompletedToolCall where
  callId : Units
  name : Units
  retrySafety : ToolRetrySafety
  result : Units
  isError : Bool := false
  deriving DecidableEq, Repr

structure IncompleteToolCall where
  callId : Units
  name : Units
  retrySafety : ToolRetrySafety
  status : ToolExecutionStatus
  outcome : IncompleteToolCallOutcome
  deriving DecidableEq, Repr

structure CheckpointTodo where
  content : Units
  status : TodoStatus
  deriving DecidableEq, Repr

structure TurnCheckpointPart where
  turnId : Units
  status : TurnCheckpointStatus := .active
  reasonCode : Option TurnInterruptionReasonCode := none
  sequence : Nat := 0
  checkpointedAt : Nat
  lastAssistantText : Units := []
  todoSnapshot : List CheckpointTodo := []
  completedCalls : List CompletedToolCall := []
  incompleteCalls : List IncompleteToolCall := []
  deriving DecidableEq, Repr

structure TurnCheckpointContent where
  text : String
  parts : List MessagePart

structure WriteTurnCheckpointOptions where
  force : Bool := false
  status : Option TurnCheckpointStatus := none
  reasonCode : Option TurnInterruptionReasonCode := none

def turnRecoveryMaxCalls : Nat := 50

def turnRecoveryMaxResultLength : Nat := 2000

def turnRecoveryMaxTextLength : Nat := 8000

/-- The length at which an identifier or a name is cut. -/
def maxIdLength : Nat := 256

/-! ## The calls of a message -/

def readOnlyBuiltinTools : List String :=
  ["get_current_datetime", "glob", "grep", "list_directory", "read_file", "skill"]

def classifyToolRetrySafety (name : String) : ToolRetrySafety :=
  if "mcp__".toList.isPrefixOf name.toList || name == "delegate_to_agent" then .unknown
  else if readOnlyBuiltinTools.contains name then .safeRead
  else .confirmationRequired

/-- The result that a map from ids to results holds: the last one. -/
def resultFor (parts : List MessagePart) (toolCallId : String) : Option ToolResultPart :=
  parts.reverse.findSome? fun
    | .toolResult part => if part.toolCallId = toolCallId then some part else none
    | _ => none

/-- Every call of the message that has a result, with that result. -/
def callsWithResult (parts : List MessagePart) : List (ToolCallPart × ToolResultPart) :=
  parts.filterMap fun
    | .toolCall call => (resultFor parts call.toolCallId).map fun result => (call, result)
    | _ => none

/-- Every call of the message that has no result. -/
def callsWithoutResult (parts : List MessagePart) : List ToolCallPart :=
  parts.filterMap fun
    | .toolCall call => if (resultFor parts call.toolCallId).isSome then none else some call
    | _ => none

def completedToolCall : ToolCallPart × ToolResultPart → CompletedToolCall
  | (call, result) =>
    { callId := (ofString call.toolCallId).take maxIdLength
      name := (ofString call.name).take maxIdLength
      retrySafety := classifyToolRetrySafety call.name
      result := (ofString result.content).take turnRecoveryMaxResultLength
      isError := result.isError }

def resolveIncompleteOutcome (status : ToolExecutionStatus)
    (reasonCode : Option ToolExecutionReasonCode) : IncompleteToolCallOutcome :=
  if status = .queued then .notStarted
  else if reasonCode = some .outcomeUnknown then .unknown
  else if isTerminalToolExecutionStatus status then .interrupted
  else if status = .running then .unknown
  else .interrupted

/-- What is known of a call without a result. -/
def incompleteOutcome (call : ToolCallPart) : IncompleteToolCallOutcome :=
  resolveIncompleteOutcome ((call.execution.map (·.status)).getD .running)
    (call.execution.bind (·.reasonCode))

def incompleteToolCall (call : ToolCallPart) : IncompleteToolCall where
  callId := (ofString call.toolCallId).take maxIdLength
  name := (ofString call.name).take maxIdLength
  retrySafety := classifyToolRetrySafety call.name
  status := (call.execution.map (·.status)).getD .running
  outcome := incompleteOutcome call

/-- The loop stops when it holds `turnRecoveryMaxCalls` calls. -/
def collectCompletedCalls (parts : List MessagePart) : List CompletedToolCall :=
  ((callsWithResult parts).take turnRecoveryMaxCalls).map completedToolCall

def collectIncompleteCalls (parts : List MessagePart) : List IncompleteToolCall :=
  ((callsWithoutResult parts).take turnRecoveryMaxCalls).map incompleteToolCall

def getLatestTodoSnapshot (parts : List MessagePart) : List CheckpointTodo :=
  (parts.reverse.findSome? fun
    | .todo part => some (part.todos.map fun todo => ⟨ofString todo.content, todo.status⟩)
    | _ => none).getD []

/-! ## Refreshing a checkpoint -/

def advanceTurnCheckpoint (checkpoint : TurnCheckpointPart) (now : Nat) : TurnCheckpointPart :=
  { checkpoint with sequence := checkpoint.sequence + 1, checkpointedAt := now }

def summarizeTurnCheckpointPart (checkpoint : TurnCheckpointPart)
    (content : TurnCheckpointContent) (options : WriteTurnCheckpointOptions) :
    TurnCheckpointPart :=
  let status := options.status.getD checkpoint.status
  { checkpoint with
    lastAssistantText := sliceLast turnRecoveryMaxTextLength (ofString content.text)
    todoSnapshot := getLatestTodoSnapshot content.parts
    completedCalls := collectCompletedCalls content.parts
    incompleteCalls := collectIncompleteCalls content.parts
    status
    reasonCode :=
      if status = .completed then none else options.reasonCode <|> checkpoint.reasonCode }

def refreshTurnCheckpointPart (checkpoint : TurnCheckpointPart) (content : TurnCheckpointContent)
    (now : Nat) (options : WriteTurnCheckpointOptions) : TurnCheckpointPart :=
  summarizeTurnCheckpointPart (advanceTurnCheckpoint checkpoint now) content options

section Refresh

variable (checkpoint : TurnCheckpointPart) (content : TurnCheckpointContent) (now : Nat)
  (options : WriteTurnCheckpointOptions)

@[simp] theorem refresh_completedCalls :
    (refreshTurnCheckpointPart checkpoint content now options).completedCalls =
      collectCompletedCalls content.parts := rfl

@[simp] theorem refresh_incompleteCalls :
    (refreshTurnCheckpointPart checkpoint content now options).incompleteCalls =
      collectIncompleteCalls content.parts := rfl

end Refresh

end MangoStudio.Generation
