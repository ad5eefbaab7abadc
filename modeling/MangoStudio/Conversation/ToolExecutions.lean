import Mathlib.Init

/-!
# The lifecycle of a tool call

`apps/shared/src/tool-executions/lifecycle.ts` and `schemas.ts`: the snapshot
that the owner of an execution writes on a tool call, and the transitions
between its states.  Times and durations are natural numbers.
-/

namespace MangoStudio.Conversation

inductive ToolExecutionStatus where
  | queued
  | running
  | awaitingUser
  | succeeded
  | failed
  | cancelled
  | timedOut
  deriving DecidableEq, Repr

inductive ToolExecutionSource where
  | builtin
  | skill
  | mcp
  | subagent
  deriving DecidableEq, Repr

inductive ToolExecutionReasonCode where
  | timeout
  | userCancelled
  | turnAborted
  | notAllowed
  | toolDisabled
  | unknownTool
  | validationFailed
  | serverClosed
  | executionError
  | outcomeUnknown
  deriving DecidableEq, Repr

structure ToolExecutionSnapshot where
  status : ToolExecutionStatus
  source : ToolExecutionSource
  queuedAt : Nat
  startedAt : Option Nat := none
  awaitingUserAt : Option Nat := none
  finishedAt : Option Nat := none
  durationMs : Option Nat := none
  reasonCode : Option ToolExecutionReasonCode := none
  deriving DecidableEq, Repr

def isTerminalToolExecutionStatus : ToolExecutionStatus → Bool
  | .succeeded | .failed | .cancelled | .timedOut => true
  | .queued | .running | .awaitingUser => false

/-- The legal edges.  A terminal state has none. -/
def canTransitionToolExecution : ToolExecutionStatus → ToolExecutionStatus → Bool
  | .queued, next => isTerminalToolExecutionStatus next || next == .running
  | .running, next => isTerminalToolExecutionStatus next || next == .awaitingUser
  | .awaitingUser, next => isTerminalToolExecutionStatus next || next == .running
  | _, _ => false

structure ToolExecutionTransition where
  status : ToolExecutionStatus
  atMs : Nat
  durationMs : Option Nat := none
  reasonCode : Option ToolExecutionReasonCode := none

def createToolExecutionSnapshot (source : ToolExecutionSource) (queuedAt : Nat) :
    ToolExecutionSnapshot :=
  { status := .queued, source, queuedAt }

/-- One transition.  An edge that is not legal changes nothing. -/
def applyToolExecutionTransition (snapshot : ToolExecutionSnapshot)
    (transition : ToolExecutionTransition) : ToolExecutionSnapshot :=
  if !canTransitionToolExecution snapshot.status transition.status then snapshot
  else
    let next := { snapshot with status := transition.status }
    let started :=
      if transition.status = .running then
        { next with startedAt := next.startedAt <|> some transition.atMs }
      else next
    let waiting :=
      if transition.status = .awaitingUser then
        { started with awaitingUserAt := some transition.atMs }
      else started
    if isTerminalToolExecutionStatus transition.status then
      { waiting with
        finishedAt := some transition.atMs
        durationMs := transition.durationMs <|> waiting.durationMs
        reasonCode := transition.reasonCode <|> waiting.reasonCode }
    else waiting

/-- The source that a name stands for. -/
def inferToolExecutionSource (name : String) : ToolExecutionSource :=
  if "mcp__".toList.isPrefixOf name.toList then .mcp
  else if name = "skill" then .skill
  else if name = "delegate_to_agent" then .subagent
  else .builtin

end MangoStudio.Conversation
