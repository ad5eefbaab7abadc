import MangoStudio.Conversation.MergeRuns
import MangoStudio.Generation.TurnCheckpoint

/-!
# The parts of a turn that is over

`reconcileInterruptedMessageParts` and `sealUnresolvedToolCalls` of
`apps/api/src/modules/generation/application/turn-recovery.ts`.  A turn can stop
anywhere, and what it leaves open is closed before it is stored: questions to the
user are cancelled, images that will not come are marked, running calls are
cancelled, and every call without a result gets one that says so.  Then the prose
is merged.

The result is the merged message with the reconciled parts in place, and the new
results behind it (`finalizeParts_eq`).
-/

namespace MangoStudio.Generation

open Conversation List

def imageAbandonedError : String :=
  "The turn was interrupted before this image was generated."

def imageAbandonedErrorCode : String := "image_generation_interrupted"

/-! ## The calls and results of a message -/

def callId? : MessagePart → Option String
  | .toolCall part => some part.toolCallId
  | _ => none

def resultId? : MessagePart → Option String
  | .toolResult part => some part.toolCallId
  | _ => none

def callIds (parts : List MessagePart) : List String := parts.filterMap callId?

def resultIds (parts : List MessagePart) : List String := parts.filterMap resultId?

/-! ## Reconciling -/

/-- A call without a result is cancelled.  If it was running and may have had an effect, its
outcome is unknown. -/
def cancelExecution (now : Nat) (part : ToolCallPart) : ToolCallPart :=
  let current := part.execution.getD
    (createToolExecutionSnapshot (inferToolExecutionSource part.name) now)
  if isTerminalToolExecutionStatus current.status then part
  else
    let outcomeUnknown :=
      current.status = .running ∧ classifyToolRetrySafety part.name ≠ .safeRead
    { part with
      execution := some <| applyToolExecutionTransition current
        { status := .cancelled
          atMs := now
          reasonCode := some (if outcomeUnknown then .outcomeUnknown else .turnAborted) } }

def reconcilePart (resolved : List String) (now : Nat) : MessagePart → MessagePart
  | .mcpElicitation part =>
    if part.status = .pending then
      .mcpElicitation { part with status := .cancelled, reason := some .turnAborted }
    else .mcpElicitation part
  | .generatedImage part =>
    if part.status = .generating then
      .generatedImage { part with
        status := .error
        error := some imageAbandonedError
        errorCode := some imageAbandonedErrorCode }
    else .generatedImage part
  | .toolCall part =>
    if resolved.contains part.toolCallId then .toolCall part
    else .toolCall (cancelExecution now part)
  | part => part

def reconcileInterruptedMessageParts (parts : List MessagePart) (now : Nat) : List MessagePart :=
  parts.map (reconcilePart (resultIds parts) now)

/-! ## Sealing -/

def sealedContent (part : ToolCallPart) : String :=
  if (part.execution.bind (·.reasonCode)) = some .outcomeUnknown then
    "\x7b\"error\":\"The turn was interrupted while this tool call was running; " ++
      "its outcome is unknown.\"\x7d"
  else
    "\x7b\"error\":\"The turn was interrupted before this tool call produced a result.\"\x7d"

/-- The loop of `sealUnresolvedToolCalls`: an id that has its result is remembered. -/
def sealedResults : List String → List MessagePart → List MessagePart
  | _, [] => []
  | resolved, part :: rest =>
    match part with
    | .toolCall call =>
      if resolved.contains call.toolCallId then sealedResults resolved rest
      else
        .toolResult ⟨call.toolCallId, sealedContent call, true⟩ ::
          sealedResults (call.toolCallId :: resolved) rest
    | _ => sealedResults resolved rest

def sealUnresolvedToolCalls (parts : List MessagePart) : List MessagePart :=
  parts ++ sealedResults (resultIds parts) parts

/-- What is stored of a turn that was interrupted. -/
def finalizeParts (parts : List MessagePart) (now : Nat) : List MessagePart :=
  mergeMessageParts (sealUnresolvedToolCalls (reconcileInterruptedMessageParts parts now))

/-! ## What reconciling changes -/

/-- What may become of a part. -/
inductive Reconciled (resolved : List String) : MessagePart → MessagePart → Prop where
  | same (part : MessagePart) : Reconciled resolved part part
  | elicitation (part : McpElicitationPart) (hpending : part.status = .pending) :
    Reconciled resolved (.mcpElicitation part)
      (.mcpElicitation { part with status := .cancelled, reason := some .turnAborted })
  | image (part : GeneratedImagePart) (hgenerating : part.status = .generating) :
    Reconciled resolved (.generatedImage part)
      (.generatedImage { part with
        status := .error
        error := some imageAbandonedError
        errorCode := some imageAbandonedErrorCode })
  | call (part : ToolCallPart) (execution : ToolExecutionSnapshot)
      (hunresolved : part.toolCallId ∉ resolved) :
    Reconciled resolved (.toolCall part) (.toolCall { part with execution := some execution })

theorem cancelExecution_cases (now : Nat) (part : ToolCallPart) :
    cancelExecution now part = part ∨
      ∃ execution, cancelExecution now part = { part with execution := some execution } := by
  by_cases hterminal : isTerminalToolExecutionStatus
      (part.execution.getD
        (createToolExecutionSnapshot (inferToolExecutionSource part.name) now)).status = true
  · exact .inl (if_pos hterminal)
  · exact .inr ⟨_, if_neg hterminal⟩

section

variable (resolved : List String) (now : Nat)

theorem reconcilePart_reconciled (part : MessagePart) :
    Reconciled resolved part (reconcilePart resolved now part) := by
  cases part with
  | mcpElicitation part =>
    simp only [reconcilePart]
    split_ifs with hpending
    · exact .elicitation part hpending
    · exact .same _
  | generatedImage part =>
    simp only [reconcilePart]
    split_ifs with hgenerating
    · exact .image part hgenerating
    · exact .same _
  | toolCall part =>
    simp only [reconcilePart]
    split_ifs with hresolved
    · exact .same _
    · rcases cancelExecution_cases now part with hsame | ⟨execution, hchanged⟩
      · rw [hsame]
        exact .same _
      · rw [hchanged]
        exact .call part execution fun hmem => hresolved (contains_iff_mem.mpr hmem)
  | _ => exact .same _

theorem leavesProse_reconcilePart :
    LeavesProse (reconcilePart resolved now) where
  prose part hprose := by
    cases part with
    | text | thinking => rfl
    | _ => cases hprose
  solid part hsolid := by
    have hreconciled := reconcilePart_reconciled resolved now part
    generalize reconcilePart resolved now part = after at hreconciled
    cases hreconciled with
    | same => exact hsolid
    | _ => rfl

theorem callId?_reconcilePart (part : MessagePart) :
    callId? (reconcilePart resolved now part) = callId? part := by
  have hreconciled := reconcilePart_reconciled resolved now part
  generalize reconcilePart resolved now part = after at hreconciled
  cases hreconciled with
  | _ => rfl

theorem resultId?_reconcilePart (part : MessagePart) :
    resultId? (reconcilePart resolved now part) = resultId? part := by
  have hreconciled := reconcilePart_reconciled resolved now part
  generalize reconcilePart resolved now part = after at hreconciled
  cases hreconciled with
  | _ => rfl

end

/-- A question that waits for the user, or an image that is still to come. -/
def isUnsettled : MessagePart → Bool
  | .mcpElicitation part => part.status == .pending
  | .generatedImage part => part.status == .generating
  | _ => false

theorem not_isUnsettled_reconcilePart (resolved : List String) (now : Nat) (part : MessagePart) :
    isUnsettled (reconcilePart resolved now part) = false := by
  cases part with
  | mcpElicitation part =>
    simp only [reconcilePart]
    split_ifs with hpending
    · rfl
    · simpa [isUnsettled] using hpending
  | generatedImage part =>
    simp only [reconcilePart]
    split_ifs with hgenerating
    · rfl
    · simpa [isUnsettled] using hgenerating
  | toolCall part =>
    simp only [reconcilePart]
    split_ifs <;> rfl
  | _ => rfl

/-! ## What sealing adds -/

theorem count_resultIds_sealedResults (resolved : List String) (parts : List MessagePart)
    (id : String) :
    (resultIds (sealedResults resolved parts)).count id =
      if id ∉ resolved ∧ id ∈ callIds parts then 1 else 0 := by
  induction parts generalizing resolved with
  | nil => simp [sealedResults, resultIds, callIds]
  | cons part rest ih =>
    cases part with
    | toolCall call =>
      have hcalls : callIds (.toolCall call :: rest) = call.toolCallId :: callIds rest := rfl
      rw [hcalls]
      cases hresolved : resolved.contains call.toolCallId with
      | true =>
        grind [sealedResults]
      | false =>
        have hnot : call.toolCallId ∉ resolved := fun hmem => by
          rw [contains_iff_mem.mpr hmem] at hresolved
          cases hresolved
        have hids : ∀ results,
            resultIds (.toolResult ⟨call.toolCallId, sealedContent call, true⟩ :: results) =
              call.toolCallId :: resultIds results := fun _ => rfl
        grind [sealedResults]
    | _ => exact ih resolved

theorem sealedResults_results (resolved : List String) (parts : List MessagePart) :
    ∀ part ∈ sealedResults resolved parts, ∃ result, part = .toolResult result := by
  induction parts generalizing resolved with
  | nil => exact fun part hpart => absurd hpart not_mem_nil
  | cons head rest ih =>
    cases head <;> grind [sealedResults]

/-! ## The message that is stored -/

theorem merge_append_solid (parts solids : List MessagePart)
    (hsolids : ∀ part ∈ solids, isMergeable part = false) :
    mergeMessageParts (parts ++ solids) = mergeMessageParts parts ++ solids := by
  induction solids using reverseRecOn <;> grind [merge_concat, mergeInto_solid]

theorem resultIds_reconcile (parts : List MessagePart) (now : Nat) :
    resultIds (reconcileInterruptedMessageParts parts now) = resultIds parts := by
  rw [resultIds, reconcileInterruptedMessageParts, filterMap_map]
  exact filterMap_congr fun part _ => resultId?_reconcilePart _ now part

theorem callIds_reconcile (parts : List MessagePart) (now : Nat) :
    callIds (reconcileInterruptedMessageParts parts now) = callIds parts := by
  rw [callIds, reconcileInterruptedMessageParts, filterMap_map]
  exact filterMap_congr fun part _ => callId?_reconcilePart _ now part

/-- The results that are added to a message. -/
def addedResults (parts : List MessagePart) (now : Nat) : List MessagePart :=
  sealedResults (resultIds parts) (reconcileInterruptedMessageParts parts now)

theorem finalizeParts_eq (parts : List MessagePart) (now : Nat) :
    finalizeParts parts now =
      (mergeMessageParts parts).map (reconcilePart (resultIds parts) now) ++
        addedResults parts now := by
  have hsolids : ∀ part ∈ addedResults parts now, isMergeable part = false := by
    intro part hpart
    obtain ⟨result, rfl⟩ := sealedResults_results _ _ part hpart
    rfl
  rw [finalizeParts, sealUnresolvedToolCalls, resultIds_reconcile]
  rw [show sealedResults (resultIds parts) (reconcileInterruptedMessageParts parts now) =
    addedResults parts now from rfl, merge_append_solid _ _ hsolids,
    reconcileInterruptedMessageParts, merge_map (leavesProse_reconcilePart _ _)]

theorem filterMap_merge {β : Type} {read : MessagePart → Option β}
    (hread : ∀ part, isMergeable part = true → read part = none) (parts : List MessagePart) :
    (mergeMessageParts parts).filterMap read = parts.filterMap read := by
  have hsolid : ∀ parts : List MessagePart,
      (solidParts parts).filterMap read = parts.filterMap read := by
    intro parts
    rw [solidParts, filterMap_filter]
    grind [filterMap_congr]
  rw [← hsolid, solid_merge, hsolid]

theorem filterMap_finalizeParts {β : Type} {read : MessagePart → Option β}
    (hprose : ∀ part, isMergeable part = true → read part = none)
    (hkept : ∀ resolved now part, read (reconcilePart resolved now part) = read part)
    (parts : List MessagePart) (now : Nat) :
    (finalizeParts parts now).filterMap read =
      parts.filterMap read ++ (addedResults parts now).filterMap read := by
  rw [finalizeParts_eq, filterMap_append, filterMap_map, ← filterMap_merge hprose parts]
  exact congrArg (· ++ _) (filterMap_congr fun part _ => hkept _ now part)

section

variable (parts : List MessagePart) (now : Nat)

theorem resultIds_finalizeParts :
    resultIds (finalizeParts parts now) = resultIds parts ++ resultIds (addedResults parts now) := by
  refine filterMap_finalizeParts (fun part hpart => ?_) resultId?_reconcilePart parts now
  cases part with
  | toolResult => cases hpart
  | _ => rfl

theorem callIds_finalizeParts : callIds (finalizeParts parts now) = callIds parts := by
  have hadded : callIds (addedResults parts now) = [] := by
    refine filterMap_eq_nil_iff.mpr fun part hpart => ?_
    obtain ⟨result, rfl⟩ := sealedResults_results _ _ part hpart
    rfl
  have hcalls : callIds (finalizeParts parts now) =
      callIds parts ++ callIds (addedResults parts now) := by
    refine filterMap_finalizeParts (fun part hpart => ?_) callId?_reconcilePart parts now
    cases part with
    | toolCall => cases hpart
    | _ => rfl
  rw [hcalls, hadded, append_nil]

theorem count_addedResults (id : String) :
    (resultIds (addedResults parts now)).count id =
      if id ∉ resultIds parts ∧ id ∈ callIds parts then 1 else 0 := by
  rw [addedResults, count_resultIds_sealedResults, callIds_reconcile]

theorem mem_resultIds_finalizeParts (id : String) :
    id ∈ resultIds (finalizeParts parts now) ↔ id ∈ resultIds parts ∨ id ∈ callIds parts := by
  rw [resultIds_finalizeParts, mem_append, ← count_pos_iff
    (l := resultIds (addedResults parts now)), count_addedResults]
  grind

end

end MangoStudio.Generation
