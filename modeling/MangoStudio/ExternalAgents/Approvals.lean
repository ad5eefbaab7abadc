import MangoStudio.ExternalAgents.TurnController
import MangoStudio.Lib.Table

/-!
# Approvals of external turns

`external-approval-registry.ts`, and the part of `external-turn-controller.ts`
that reads and writes it: the live turns of a hub, the registration of what
their vendors ask for, `answerApproval`, and the end of a turn.

* The registry is keyed by chat and request.  The source nests two maps and drops
  an inner one that is empty, which no reader can see.
* A hub is a machine.  A turn of a chat takes its own actions
  (`ExternalTurn.act`), anybody may answer anything at any time, and a chat
  that has no live turn may start one.
* `registrations` and `forwarded` are histories that no function of the source
  reads.  A registration is named by its place in the first, and an entry of the
  second holds the live turn of the chat at that moment.
-/

namespace MangoStudio.ExternalAgents

open Conversation

/-! ## The registry -/

structure ExternalApprovalBinding where
  userId : String
  chatId : String
  sessionId : String
  nativeTurnId : String
  requestId : String
  deriving DecidableEq, Repr

structure ExternalApprovalResolution where
  requestId : String
  optionId : Option String := none
  source : ExternalDecisionSource
  resolvedAt : Nat
  deriving DecidableEq, Repr

structure PendingApproval where
  binding : ExternalApprovalBinding
  optionIds : List String
  expiresAtMs : Nat
  resolved : Option ExternalApprovalResolution := none
  /-- The place of the registration in the history. -/
  registration : Nat
  deriving DecidableEq, Repr

inductive ExternalApprovalRejection where
  /-- Also the answer for a wrong owner. -/
  | notFound
  | sessionMismatch
  | turnMismatch
  | unknownOption
  | expired
  | alreadyResolved
  deriving DecidableEq, Repr

inductive AnswerExternalApprovalResult where
  | accepted (optionId : String) (idempotent : Bool)
  | rejected (reason : ExternalApprovalRejection)
  deriving DecidableEq, Repr

structure AnswerExternalApprovalInput where
  userId : String
  chatId : String
  requestId : String
  optionId : String
  sessionId : Option String := none
  nativeTurnId : Option String := none

abbrev ExternalApprovalRegistry := Table (String × String) PendingApproval

namespace ExternalApprovalRegistry

variable (registry : ExternalApprovalRegistry)

def register (binding : ExternalApprovalBinding) (request : ExternalApprovalRequest)
    (registration : Nat) : ExternalApprovalRegistry :=
  registry.insert (binding.chatId, binding.requestId)
    { binding
      optionIds := request.options.map (·.id)
      expiresAtMs := request.expiresAtMs
      registration }

/-- The answer of the registry, and the entry that it forwards. -/
def answer (input : AnswerExternalApprovalInput) (now : Nat) :
    ExternalApprovalRegistry × AnswerExternalApprovalResult × Option PendingApproval :=
  match registry.lookup (input.chatId, input.requestId) with
  | none => (registry, .rejected .notFound, none)
  | some pending =>
    if pending.binding.userId ≠ input.userId then (registry, .rejected .notFound, none)
    else if input.sessionId.any (· ≠ pending.binding.sessionId) then
      (registry, .rejected .sessionMismatch, none)
    else if input.nativeTurnId.any (· ≠ pending.binding.nativeTurnId) then
      (registry, .rejected .turnMismatch, none)
    else
      match pending.resolved with
      | some resolution =>
        if resolution.optionId = some input.optionId ∧ resolution.source = .user then
          (registry, .accepted input.optionId true, none)
        else (registry, .rejected .alreadyResolved, none)
      | none =>
        if input.optionId ∉ pending.optionIds then (registry, .rejected .unknownOption, none)
        else if pending.expiresAtMs ≤ now then (registry, .rejected .expired, none)
        else
          -- Recorded before the forward, which may fail or never return.
          (registry.insert (input.chatId, input.requestId) { pending with
            resolved := some
              { requestId := input.requestId
                optionId := some input.optionId
                source := .user
                resolvedAt := now } },
            .accepted input.optionId false, some pending)

/-- Drops the entries of a turn, answered or not. -/
def resolvePending (chatId nativeTurnId : String) (source : ExternalDecisionSource) (now : Nat) :
    ExternalApprovalRegistry × List ExternalApprovalResolution :=
  let belongs := fun (key : String × String) (pending : PendingApproval) =>
    key.1 = chatId ∧ pending.binding.nativeTurnId = nativeTurnId
  (registry.filter fun key pending => decide ¬ belongs key pending,
    registry.entries.filterMap fun entry =>
      if belongs entry.1 entry.2 ∧ entry.2.resolved = none then
        some { requestId := entry.1.2, source, resolvedAt := now }
      else none)

end ExternalApprovalRegistry

/-! ## The hub -/

/-- A turn that is live, and its place among the turns of the hub. -/
structure LiveExternalTurn where
  turnId : Nat
  turn : ExternalTurn

/-- What a turn has registered. -/
structure Registration where
  turnId : Nat
  userId : String
  request : ExternalApprovalRequest

/-- An answer that has been forwarded, and the live turn of its chat then. -/
structure Forward where
  userId : String
  optionId : String
  atMs : Nat
  registration : Nat
  live : Option LiveExternalTurn

structure Hub where
  liveTurns : Table String LiveExternalTurn := ∅
  approvals : ExternalApprovalRegistry := ∅
  started : Nat := 0
  registrations : List Registration := []
  forwarded : List Forward := []

namespace Hub

variable (hub : Hub)

/-- `runTurn` up to its first await.  A chat that has a turn refuses another. -/
def start (userId chatId sessionId : String) (targetId : ExternalAgentTargetId)
    (review steering : Bool) (now : Nat) : Hub :=
  match hub.liveTurns.lookup chatId with
  | some _ => hub
  | none =>
    { hub with
      liveTurns := hub.liveTurns.insert chatId
        { turnId := hub.started
          turn := .create userId chatId sessionId targetId review steering now }
      started := hub.started + 1 }

/-- `bindApproval`, for a turn that has a name. -/
def register (live : LiveExternalTurn) (request : ExternalApprovalRequest) : Hub :=
  match live.turn.nativeTurnId with
  | none => hub
  | some nativeTurnId =>
    { hub with
      approvals := hub.approvals.register
        { userId := live.turn.userId
          chatId := live.turn.chatId
          sessionId := live.turn.sessionId
          nativeTurnId
          requestId := request.requestId }
        request hub.registrations.length
      registrations := hub.registrations ++ [⟨live.turnId, live.turn.userId, request⟩] }

/-- The step of `finish` that the registry sees. -/
def resolvePending (turn : ExternalTurn) (now : Nat) : Hub :=
  match turn.nativeTurnId, turn.settled with
  | some nativeTurnId, some reason =>
    { hub with
      approvals := (hub.approvals.resolvePending turn.chatId nativeTurnId
        (ExternalTurn.abandonedSource reason) now).1 }
  | _, _ => hub

/-- An action of the live turn of a chat. -/
def actTurn (byteLengthOf : ExternalAgentEvent → Nat) (chatId : String)
    (action : ExternalTurn.TurnAction) (now : Nat) : Hub :=
  match hub.liveTurns.lookup chatId with
  | none => hub
  | some live =>
    let (turn, requests) := live.turn.act byteLengthOf action now
    let acted := { hub with liveTurns := hub.liveTurns.insert chatId { live with turn } }
    let registered := requests.foldl (fun hub request => hub.register { live with turn } request)
      acted
    if turn.released && !live.turn.released then registered.resolvePending turn now else registered

/-- The `finally` of a turn: after `finish` has returned or failed, or before the turn was
submitted. -/
def leave (chatId : String) : Hub :=
  match hub.liveTurns.lookup chatId with
  | none => hub
  | some live =>
    if live.turn.released || live.turn.nativeTurnId.isNone then
      { hub with liveTurns := hub.liveTurns.erase chatId }
    else hub

/-- The ids of the live turn take the place of what the caller has sent. -/
def identified (input : AnswerExternalApprovalInput) : AnswerExternalApprovalInput :=
  match hub.liveTurns.lookup input.chatId with
  | none => input
  | some live =>
    { input with
      sessionId := some live.turn.sessionId
      nativeTurnId := live.turn.nativeTurnId.or input.nativeTurnId }

/-- `answerApproval`, up to the call of `forward`. -/
def answerApproval (input : AnswerExternalApprovalInput) (now : Nat) :
    Hub × AnswerExternalApprovalResult :=
  let (approvals, result, forwarded) := hub.approvals.answer (hub.identified input) now
  ({ hub with
    approvals
    forwarded := hub.forwarded ++ forwarded.toList.map fun pending =>
      { userId := input.userId
        optionId := input.optionId
        atMs := now
        registration := pending.registration
        live := hub.liveTurns.lookup input.chatId } }, result)

inductive HubAction where
  | start (userId chatId sessionId : String) (targetId : ExternalAgentTargetId)
      (review steering : Bool)
  | turn (chatId : String) (action : ExternalTurn.TurnAction)
  | answer (input : AnswerExternalApprovalInput)
  | leave (chatId : String)

def step (byteLengthOf : ExternalAgentEvent → Nat) (hub : Hub) (timed : HubAction × Nat) : Hub :=
  match timed.1 with
  | .start userId chatId sessionId targetId review steering =>
    hub.start userId chatId sessionId targetId review steering timed.2
  | .turn chatId action => hub.actTurn byteLengthOf chatId action timed.2
  | .answer input => (hub.answerApproval input timed.2).1
  | .leave chatId => hub.leave chatId

end Hub

end MangoStudio.ExternalAgents
