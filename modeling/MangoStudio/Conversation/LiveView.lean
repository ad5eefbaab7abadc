import MangoStudio.Conversation.Stream

/-!
# The live view of a turn

`reduceTextGenerationStreamChunk` of
`apps/frontend/src/features/generation/text-generation-stream-reducer.ts`: what
a browser shows of a turn while it runs, chunk by chunk.

* The state is rebuilt on every chunk, so an open reasoning phase is an index
  into the parts.
* A chunk also makes a patch for the message on the screen.  The identifiers of
  the message and the seal of the row are not part of the state here: no chunk
  below changes them.
* `JSON.parse`, which reads the arguments of a tool call, is a parameter.
-/

namespace MangoStudio.Conversation

/-- What a chunk changes of the message on the screen. -/
structure MessagePatch where
  text : Option String := none
  parts : Option (List MessagePart) := none
  modelName : Option String := none

structure TextGenerationStreamState where
  text : String := ""
  parts : List MessagePart := []
  openExternalThinkingIndex : Option Nat := none
  aiMessageUpdate : Option MessagePatch := none
  threadUsage : Option ExternalThreadUsage := none

namespace TextGenerationStreamState

variable (state : TextGenerationStreamState)

def clearChunkUpdates : TextGenerationStreamState := { state with aiMessageUpdate := none }

/-- New parts, with the patch that shows them. -/
def withParts (parts : List MessagePart) : TextGenerationStreamState :=
  { state with parts, aiMessageUpdate := some { parts := some parts } }

end TextGenerationStreamState

/-! ## Parts -/

/-- Appends to the trailing part, or opens a new one. -/
def appendTrailingText (parts : List MessagePart) (kind : ProseKind) (delta : String) :
    List MessagePart :=
  match parts.getLast? with
  | some last =>
    match last.appended kind delta with
    | some grown => parts.dropLast ++ [grown]
    | none => parts ++ [.ofProse kind delta]
  | none => parts ++ [.ofProse kind delta]

theorem appendTrailingText_grown {last grown : MessagePart} {kind : ProseKind} {delta : String}
    (h : last.appended kind delta = some grown) (parts : List MessagePart) :
    appendTrailingText (parts ++ [last]) kind delta = parts ++ [grown] := by
  simp [appendTrailingText, h]

theorem appendTrailingText_opened {last : MessagePart} {kind : ProseKind} {delta : String}
    (h : last.appended kind delta = none) (parts : List MessagePart) :
    appendTrailingText (parts ++ [last]) kind delta = parts ++ [last] ++ [.ofProse kind delta] := by
  simp [appendTrailingText, h]

/-- Closes the open phase, and says which part the turn stopped inside. -/
def closeThinkingAt (parts : List MessagePart) (phase : Option Nat) :
    List MessagePart × Option Nat :=
  match phase with
  | none => (parts, lastContentIndex parts)
  | some index =>
    match parts[index]?.bind MessagePart.thinkingText? with
    | none => (parts, lastContentIndex parts)
    | some text =>
      let displaced := lastContentIndex parts ≠ some index
      if text ≠ "" then (parts, if displaced then lastContentIndex parts else some index)
      else
        let kept := parts.eraseIdx index
        (kept, if displaced then lastContentIndex kept else none)

def markIncompleteAt (parts : List MessagePart) : Option Nat → List MessagePart
  | some index => parts.modify index MessagePart.markIncomplete
  | none => parts

/-- The vendor of the turn, by its own part. -/
def externalTargetId (parts : List MessagePart) : ExternalAgentTargetId :=
  match parts.find? fun part => part matches .externalTurn _ with
  | some (.externalTurn turn) => turn.targetId
  | _ => .codex

def updateExternalTurn (parts : List MessagePart) (update : ExternalTurnPart → ExternalTurnPart) :
    List MessagePart :=
  parts.map fun part =>
    match part with
    | .externalTurn turn => .externalTurn (update turn)
    | other => other

def updateExternalActivity (parts : List MessagePart) (callId : String)
    (update : ExternalActivityPart → ExternalActivityPart) : List MessagePart :=
  parts.map <| MessagePart.onActivity fun activity =>
    if activity.callId = callId then update activity else activity

/-! ## Internal turns -/

section Reduce

variable (state : TextGenerationStreamState)

def reduceThinkingStart : TextGenerationStreamState :=
  state.withParts (state.parts ++ [.thinking ""])

def reduceThinkingDelta (text : String) : TextGenerationStreamState :=
  state.withParts (appendTrailingText state.parts .thinking text)

def reduceTextDelta (delta : String) : TextGenerationStreamState :=
  let text := state.text ++ delta
  let parts := appendTrailingText state.parts .text delta
  { state with text, parts, aiMessageUpdate := some { text := some text, parts := some parts } }

def reduceToolCallStarted (callId name : String) : TextGenerationStreamState :=
  state.withParts (state.parts ++ [.toolCall { toolCallId := callId, name, args := .obj [] }])

/-- The arguments as the browser reads them: any JSON value. -/
def parseToolArguments (parse : String → Option Json) (argumentsText : String) : Json :=
  (parse argumentsText).getD (.obj [])

def reduceToolCallCompleted (parse : String → Option Json) (callId argumentsText : String) :
    TextGenerationStreamState :=
  state.withParts <| state.parts.map fun part =>
    match part with
    | .toolCall call =>
      if call.toolCallId = callId then
        .toolCall { call with args := parseToolArguments parse argumentsText }
      else .toolCall call
    | other => other

/-- The result, which the browser writes as JSON whatever it is. -/
def reduceToolResult (callId : String) (result : Json) (isError : Bool) :
    TextGenerationStreamState :=
  state.withParts (state.parts ++ [.toolResult
    { toolCallId := callId, content := String.ofList result.render, isError }])

def reduceContinuationTransition (provider modelName : String) (fromProvider : Option String)
    (fromMode toMode reasonCode : String) (detail : Option String) : TextGenerationStreamState :=
  state.withParts (state.parts ++ [.continuationTransition
    { provider, modelName, fromProvider, fromMode, toMode, reasonCode, detail,
      recovered := false }])

/-! ## External turns -/

/-- A later announcement of the session: a reopen replaced the first one. -/
def reduceExternalSessionRebound (index : Nat) (session : ExternalStreamSession) :
    TextGenerationStreamState :=
  match state.parts[index]? with
  | some (.externalTurn current) =>
    if current.sessionId = session.sessionId ∧
        current.conversationReset = session.conversationReset then state
    else
      state.withParts (state.parts.set index (.externalTurn { current with
        sessionId := session.sessionId
        conversationReset := session.conversationReset }))
  | _ => state

def reduceExternalSessionStarted (session : ExternalStreamSession) : TextGenerationStreamState :=
  match state.parts.findIdx? fun part => part matches .externalTurn _ with
  | some index => reduceExternalSessionRebound state index session
  | none =>
    let parts := state.parts ++ [.externalTurn
      { targetId := session.targetId, sessionId := session.sessionId, status := .active,
        conversationReset := session.conversationReset, startedAt := 0, updatedAt := 0 }]
    { state with
      parts, aiMessageUpdate := some { parts := some parts, modelName := session.model } }

def reduceExternalText (delta : String) : TextGenerationStreamState :=
  let text := state.text ++ delta
  let parts := appendTrailingText state.parts .text delta
  { state with text, parts, aiMessageUpdate := some { text := some text, parts := some parts } }

/-- Appends to the open phase, even after a notice. -/
def reduceExternalReasoning (delta : String) : TextGenerationStreamState :=
  match state.openExternalThinkingIndex with
  | some index =>
    match state.parts[index]?.bind (MessagePart.appended .thinking delta) with
    | some grown =>
      if lastContentIndex state.parts = some index then
        state.withParts (state.parts.set index grown)
      else state.withParts (appendTrailingText state.parts .thinking delta)
    | none => state.withParts (appendTrailingText state.parts .thinking delta)
  | none => state.withParts (appendTrailingText state.parts .thinking delta)

def reduceExternalReasoningStarted : TextGenerationStreamState :=
  let closed := (closeThinkingAt state.parts state.openExternalThinkingIndex).1
  let parts := appendTrailingText closed .thinking ""
  { state.withParts parts with openExternalThinkingIndex := some (parts.length - 1) }

def reduceExternalReasoningEnded : TextGenerationStreamState :=
  let closed := (closeThinkingAt state.parts state.openExternalThinkingIndex).1
  { state.withParts closed with openExternalThinkingIndex := none }

def reduceExternalActivityStarted (callId : String) (activity : ExternalActivityView) :
    TextGenerationStreamState :=
  state.withParts (state.parts ++ [.externalActivity
    { targetId := externalTargetId state.parts, callId, name := activity.name,
      kind := activity.kind, title := activity.title, detail := activity.detail,
      status := .running, truncated := activity.truncated }])

def reduceExternalActivityUpdated (callId : String) (update : ExternalActivityUpdate) :
    TextGenerationStreamState :=
  state.withParts <| updateExternalActivity state.parts callId fun activity =>
    { activity with
      title := update.title.getD activity.title
      detail := update.detail <|> activity.detail
      truncated := activity.truncated || update.truncated }

def reduceExternalActivityCompleted (callId : String) (status : ExternalActivityStatus)
    (detail : Option String) (isError truncated : Bool) : TextGenerationStreamState :=
  state.withParts <| updateExternalActivity state.parts callId fun activity =>
    { activity with
      status := .settled status
      detail := detail <|> activity.detail
      isError := activity.isError || isError
      truncated := activity.truncated || truncated }

def reduceExternalApprovalRequest (request : ExternalApprovalRequest) :
    TextGenerationStreamState :=
  let known := state.parts.any fun part =>
    match part with
    | .externalApproval approval => approval.requestId == request.requestId
    | _ => false
  if known then state
  else
    state.withParts (state.parts ++ [.externalApproval
      { targetId := externalTargetId state.parts, requestId := request.requestId,
        kind := request.kind, title := request.title, detail := request.detail,
        options := request.options, expiresAtMs := request.expiresAtMs,
        truncated := request.truncated }])

/-- The first answer stays. -/
def reduceExternalApprovalStatus (requestId : String) (decision : ExternalApprovalDecision) :
    TextGenerationStreamState :=
  state.withParts <| state.parts.map <| MessagePart.onApproval fun approval =>
    if approval.requestId = requestId ∧ approval.decisionSource = none then
      { approval with
        decision := some decision.optionId
        decisionSource := some decision.source }
    else approval

def reduceExternalUsage (usage : ExternalUsage) : TextGenerationStreamState :=
  state.withParts <| updateExternalTurn state.parts fun turn =>
    { turn with usage := some ((turn.usage.getD {}).spread usage) }

/-- The usage of the thread stays apart from the turn's. -/
def reduceExternalThreadUsage (usage : ExternalThreadUsage) : TextGenerationStreamState :=
  let current : ExternalThreadUsage := state.threadUsage.getD {}
  let merged : ExternalThreadUsage :=
    { last := (usage.last.map fun last => (current.last.getD {}).spread last) <|> current.last
      total := (usage.total.map fun total => (current.total.getD {}).spread total) <|>
        current.total
      contextWindowTokens := usage.contextWindowTokens <|> current.contextWindowTokens }
  { state with threadUsage := some merged }

def reduceExternalSteer (clientMessageId text : String) (status : SteerStatus) :
    TextGenerationStreamState :=
  let known := state.parts.any fun part =>
    match part with
    | .externalSteer steer => steer.clientMessageId == clientMessageId
    | _ => false
  if known then state
  else
    state.withParts (state.parts ++ [.externalSteer
      { targetId := externalTargetId state.parts, clientMessageId, text, status, createdAt := 0 }])

def reduceExternalNotice (notice : ExternalNoticePart) : TextGenerationStreamState :=
  if canAddExternalNotice state.parts then
    state.withParts (state.parts ++ [.externalNotice notice])
  else state

def reduceExternalError (error : ExternalAgentError) (remedy : Option ExternalAgentRemedy)
    (unavailableReason : Option ExternalAgentUnavailableReason) (requiredVersion : Option String) :
    TextGenerationStreamState :=
  state.withParts <| updateExternalTurn state.parts fun turn =>
    { turn with
      error := some error
      remedy := remedy <|> turn.remedy
      unavailableReason := unavailableReason <|> turn.unavailableReason
      requiredVersion := requiredVersion <|> turn.requiredVersion }

def reduceExternalTurnCompleted (reason : ExternalTurnTerminalReason) :
    TextGenerationStreamState :=
  let (closed, stoppedInside) := closeThinkingAt state.parts state.openExternalThinkingIndex
  let marked := if reason = .completed then closed else markIncompleteAt closed stoppedInside
  let settled := marked.map
    (MessagePart.settleActivity (externalActivityStatusForTerminal reason))
  let parts := updateExternalTurn settled fun turn =>
    if turn.status = .terminal then turn
    else { turn with status := .terminal, terminalReason := some reason }
  { state.withParts parts with openExternalThinkingIndex := none }

end Reduce

/-! ## The reducer -/

/-- Whether the turn has ended on the screen. -/
def turnEnded (parts : List MessagePart) : Bool :=
  parts.any fun part =>
    match part with
    | .externalTurn turn => turn.status == .terminal
    | _ => false

/-- The switch over the kinds of chunk. -/
def reduceChunk (parse : String → Option Json) (state : TextGenerationStreamState)
    (chunk : StreamChunk) : TextGenerationStreamState :=
  match chunk with
  | .thinkingStart => reduceThinkingStart state
  | .thinking text => reduceThinkingDelta state text
  | .text text => reduceTextDelta state text
  | .toolCallStarted callId name => reduceToolCallStarted state callId name
  | .toolCallCompleted callId _ argumentsText =>
    reduceToolCallCompleted state parse callId argumentsText
  | .toolResult callId _ result isError => reduceToolResult state callId result isError
  | .continuationTransition provider modelName fromProvider fromMode toMode reasonCode detail =>
    reduceContinuationTransition state provider modelName fromProvider fromMode toMode reasonCode
      detail
  | .fallbackNotice _ _ _ => state
  | .externalSessionStarted session => reduceExternalSessionStarted state session
  | .externalText text => reduceExternalText state text
  | .externalReasoningStarted => reduceExternalReasoningStarted state
  | .externalReasoningEnded => reduceExternalReasoningEnded state
  | .externalReasoning text => reduceExternalReasoning state text
  | .externalActivityStarted callId activity =>
    reduceExternalActivityStarted state callId activity
  | .externalActivityUpdated callId update => reduceExternalActivityUpdated state callId update
  | .externalActivityCompleted callId status detail isError truncated =>
    reduceExternalActivityCompleted state callId status detail isError truncated
  | .externalApprovalRequest request => reduceExternalApprovalRequest state request
  | .externalApprovalStatus requestId decision =>
    reduceExternalApprovalStatus state requestId decision
  | .externalUsage usage => reduceExternalUsage state usage
  | .externalThreadUsage usage => reduceExternalThreadUsage state usage
  | .externalAccountLimits _ _ => state
  | .externalCommands _ => state
  | .externalNotice notice => reduceExternalNotice state notice
  | .externalSteer clientMessageId text status =>
    reduceExternalSteer state clientMessageId text status
  | .externalError error remedy unavailableReason requiredVersion =>
    reduceExternalError state error remedy unavailableReason requiredVersion
  | .externalTurnCompleted reason => reduceExternalTurnCompleted state reason

/-- Late output of a vendor does not reopen what the end has settled. -/
def reduceTextGenerationStreamChunk (parse : String → Option Json)
    (state : TextGenerationStreamState) (chunk : StreamChunk) : TextGenerationStreamState :=
  if chunk.isExternal && turnEnded state.parts then state.clearChunkUpdates
  else reduceChunk parse state.clearChunkUpdates chunk

end MangoStudio.Conversation
