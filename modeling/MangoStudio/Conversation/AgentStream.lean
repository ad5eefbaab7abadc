import MangoStudio.Conversation.LiveView
import MangoStudio.Lib.Table

/-!
# The events of a provider

`emitAgentStreamEvent` of
`apps/api/src/modules/generation/application/stream-text-turn-stages.ts`: what
an internal turn stores for an event of the provider, and what it streams.

* The session holds the parts without the checkpoint of the turn.
* The two events that end a provider's answer are handled by the loop around
  this function.  They touch no part.
* `JSON.parse` is a parameter.
-/

namespace MangoStudio.Conversation

inductive AgentEvent where
  | reasoningDelta (text : String)
  | toolCallStarted (callId : String) (name : Option String)
  | toolCallArgumentsDelta (callId delta : String)
  | toolCallCompleted (callId name arguments : String)
  | toolResult (callId name : String) (result : Json) (isError : Bool)
  | assistantTextDelta (text : String)
  | continuationDegraded (fromMode toMode reason reasonCode : String)

structure PendingCall where
  name : String
  argsStr : String

/-- What one answer of the provider keeps. -/
structure AgentLoopState where
  inThinkingSegment : Bool := false
  pendingCalls : OrderedMap String PendingCall := []
  degradedThisTurn : Bool := false

structure StreamTextTurnSession where
  providerType : String
  modelId : String
  /-- Whether the provider runs its own tools. -/
  internalAgentTools : Bool := false
  allParts : List MessagePart := []
  fullText : String := ""

/-! ## Arguments and results -/

/-- An object, or nothing. -/
def safeJsonParse (parse : String → Option Json) (raw : String) : Option Json :=
  if raw = "" then none
  else
    match parse raw with
    | some (.obj members) => some (.obj members)
    | _ => none

def parseToolArgs (parse : String → Option Json) (argsStr : String) : Json :=
  (safeJsonParse parse argsStr).getD (.obj [])

/-- `Object.keys(args).length > 0`. -/
def hasKeys : Json → Bool
  | .obj members => !members.isEmpty
  | _ => false

def MessagePart.isCall (callId : String) : MessagePart → Bool
  | .toolCall call => call.toolCallId == callId
  | _ => false

def MessagePart.isResultOf (callId : String) : MessagePart → Bool
  | .toolResult result => result.toolCallId == callId
  | _ => false

/-- `{ ...current, ...next, args }`. -/
def ToolCallPart.upserted (current next : ToolCallPart) : ToolCallPart :=
  { next with
    args := if hasKeys next.args then next.args else current.args
    execution := next.execution <|> current.execution }

def upsertToolCallPart (parts : List MessagePart) (next : ToolCallPart) : List MessagePart :=
  match parts.findIdx? (MessagePart.isCall next.toolCallId) with
  | none => parts ++ [.toolCall next]
  | some index =>
    parts.modify index fun part =>
      match part with
      | .toolCall current => .toolCall (current.upserted next)
      | other => other

def upsertToolResultPart (parts : List MessagePart) (next : ToolResultPart) : List MessagePart :=
  match parts.findIdx? (MessagePart.isResultOf next.toolCallId) with
  | none => parts ++ [.toolResult next]
  | some index => parts.set index (.toolResult next)

def stringifyToolResult (result : Json) : String := String.ofList result.render

/-! ## Events -/

/-- The session and the loop after an event, and what is streamed for it. -/
structure Emission where
  session : StreamTextTurnSession
  loop : AgentLoopState
  chunks : List StreamChunk := []

def emitContinuationDegradation (session : StreamTextTurnSession)
    (fromMode toMode reason reasonCode : String) (fromProvider : Option String) :
    StreamTextTurnSession × List StreamChunk :=
  let detail := fromMode ++ " → " ++ toMode
  ({ session with allParts := session.allParts ++ [.continuationTransition
      { provider := session.providerType, modelName := session.modelId, fromProvider, fromMode,
        toMode, reasonCode, detail := some detail, recovered := false }] },
    [.fallbackNotice fromMode toMode reason,
      .continuationTransition session.providerType session.modelId fromProvider fromMode toMode
        reasonCode (some detail)])

def emitAgentStreamEvent (parse : String → Option Json) (session : StreamTextTurnSession)
    (loop : AgentLoopState) (event : AgentEvent) : Emission :=
  match event with
  | .reasoningDelta text =>
    if text = "" then ⟨session, loop, []⟩
    else
      { session := { session with allParts := session.allParts ++ [.thinking text] }
        loop := { loop with inThinkingSegment := true }
        chunks := (if loop.inThinkingSegment then [] else [.thinkingStart]) ++ [.thinking text] }
  | .toolCallStarted callId name =>
    let name := name.getD ""
    { session := { session with
        allParts := upsertToolCallPart session.allParts
          { toolCallId := callId, name, args := .obj [] } }
      loop := { loop with
        inThinkingSegment := false
        pendingCalls := loop.pendingCalls.set callId ⟨name, ""⟩ }
      chunks := [.toolCallStarted callId name] }
  | .toolCallArgumentsDelta callId delta =>
    match loop.pendingCalls.get callId with
    | some call =>
      { session
        loop := { loop with
          pendingCalls := loop.pendingCalls.set callId { call with
            argsStr := call.argsStr ++ delta } } }
    | none => { session, loop }
  | .toolCallCompleted callId name argumentsText =>
    { session := { session with
        allParts := upsertToolCallPart session.allParts
          { toolCallId := callId, name, args := parseToolArgs parse argumentsText } }
      loop := { loop with pendingCalls := loop.pendingCalls.set callId ⟨name, argumentsText⟩ }
      chunks := [.toolCallCompleted callId name argumentsText] }
  | .toolResult callId name result isError =>
    if !session.internalAgentTools then { session, loop }
    else
      let called :=
        match loop.pendingCalls.get callId with
        | some call => upsertToolCallPart session.allParts
            { toolCallId := callId, name := if call.name = "" then name else call.name,
              args := parseToolArgs parse call.argsStr }
        | none => session.allParts
      let content :=
        match result with
        | .str text => text
        | other => stringifyToolResult other
      { session := { session with
          allParts := upsertToolResultPart called { toolCallId := callId, content, isError } }
        loop := { loop with
          inThinkingSegment := false
          pendingCalls := loop.pendingCalls.filter fun entry => entry.1 ≠ callId }
        chunks := [.toolResult callId name result isError] }
  | .assistantTextDelta text =>
    { session := { session with
        fullText := session.fullText ++ text
        allParts := session.allParts ++ [.text text] }
      loop := { loop with inThinkingSegment := false }
      chunks := [.text text] }
  | .continuationDegraded fromMode toMode reason reasonCode =>
    let (session, chunks) :=
      emitContinuationDegradation session fromMode toMode reason reasonCode none
    { session
      loop := { loop with inThinkingSegment := false, degradedThisTurn := true }
      chunks }

/-- A list of events, with everything streamed for them. -/
def emitAll (parse : String → Option Json) (session : StreamTextTurnSession)
    (loop : AgentLoopState) (events : List AgentEvent) : Emission :=
  events.foldl (fun emission event =>
    let next := emitAgentStreamEvent parse emission.session emission.loop event
    { next with chunks := emission.chunks ++ next.chunks }) { session, loop }

end MangoStudio.Conversation
