import MangoStudio.Generation.RecoveryPrompt

/-!
# What a recovery prompt accounts for

The prompt tells the model which calls of the interrupted turn are done, so a
call that it does not mention may be made again.  `Accounts` says that a payload
mentions or counts every call of the message.

* Rendering loses no call of the checkpoint, in whatever state the passes leave
  it (`render_succeeded`, `render_completedCounted` and so on): this is where the counts
  and the names of omitted calls come from.
* The checkpoint itself keeps the first 50 calls with a result and the first 50
  without, and says nothing of the rest.  The prompt therefore accounts for
  every call of the message exactly when there are no more of either
  (`recoveryPayload_covers_iff`).
-/

namespace MangoStudio.Generation

open Conversation JsText Passes List

/-! ## Accounting -/

/-- The context mentions or counts every call of the message. -/
structure Accounts (parts : List MessagePart) (retryCallIds : List Units)
    (context : RecoveryContext) : Prop where
  /-- A succeeded call is listed, or its name is. -/
  succeeded : ∀ call ∈ callsWithResult parts, call.2.isError = false →
    (∃ entry ∈ context.succeededCalls,
      entry.callId = (ofString call.1.toolCallId).take maxIdLength ∧
        entry.name = (ofString call.1.name).take maxIdLength) ∨
      (ofString call.1.name).take recoveryOmittedCallNameLength ∈
        context.omittedSucceededCallNames
  /-- A failed call is listed, or some completed calls are counted as omitted. -/
  failed : ∀ call ∈ callsWithResult parts, call.2.isError = true →
    (∃ entry ∈ context.failedCalls,
      entry.callId = (ofString call.1.toolCallId).take maxIdLength ∧
        entry.name = (ofString call.1.name).take maxIdLength) ∨
      0 < context.omittedCompletedCallCount
  /-- The count of omitted calls is exact. -/
  completedCounted : context.succeededCalls.length + context.failedCalls.length +
    context.omittedCompletedCallCount = (callsWithResult parts).length
  /-- A call without a result is listed with its outcome, or some are counted as omitted. -/
  incomplete : ∀ call ∈ callsWithoutResult parts,
    (∃ entry ∈ context.incompleteCalls,
      entry.callId = (ofString call.toolCallId).take maxIdLength ∧
        entry.name = (ofString call.name).take maxIdLength ∧
          entry.outcome = incompleteOutcome call) ∨
      0 < context.omittedIncompleteCallCount
  incompleteCounted : context.incompleteCalls.length + context.omittedIncompleteCallCount =
    (callsWithoutResult parts).length
  /-- The unknown outcomes have a count of their own. -/
  unknownCounted : context.incompleteCalls.countP (fun entry => entry.outcome == .unknown) +
    context.omittedUnknownOutcomeCount =
      (callsWithoutResult parts).countP fun call => incompleteOutcome call == .unknown
  /-- The selected calls are the requested ones that have no result. -/
  selected : ∀ id, id ∈ context.selectedRetryCallIds ↔
    id ∈ retryCallIds ∧ ∃ call ∈ callsWithoutResult parts, ofString call.toolCallId = id

/-- The payload says that it has no context, or accounts for every call. -/
def Covers (parts : List MessagePart) (retryCallIds : List Units) (payload : RecoveryPayload) :
    Prop :=
  payload.recoveryContextOmitted = true ∨
    ∃ context, payload = .withContext context ∧ Accounts parts retryCallIds context

/-- No state that the passes go through has a prompt that fits. -/
def NothingFits (checkpoint : TurnCheckpointPart) (retryCallIds : List Units) : Prop :=
  ∀ state ∈ schedule (stateWeight checkpoint) (trimPasses checkpoint retryCallIds)
    (initialPromptState checkpoint), stateFits checkpoint retryCallIds state = false

/-- Cutting the ids of the calls without a result changes nothing about which of them are
requested. -/
def IdsSurviveCut (parts : List MessagePart) (retryCallIds : List Units) : Prop :=
  ∀ id ∈ retryCallIds,
    (∃ call ∈ callsWithoutResult parts, (ofString call.toolCallId).take maxIdLength = id) ↔
      ∃ call ∈ callsWithoutResult parts, ofString call.toolCallId = id

/-! ## Rendering loses no call of the checkpoint -/

variable {call : CompletedToolCall}

theorem mem_select_or_omitted {calls : List CompletedToolCall} (limit : Option Nat)
    (hcall : call ∈ calls) :
    call ∈ selectCompletedCalls calls limit ∨ call ∈ omittedCompletedCalls calls limit := by
  obtain ⟨place, hplace⟩ : ∃ place, (call, place) ∈ calls.zipIdx := by
    rw [← zipIdx_map_fst 0 calls] at hcall
    obtain ⟨⟨found, place⟩, hmem, rfl⟩ := mem_map.1 hcall
    exact ⟨place, hmem⟩
  cases hkeep : keepsPlace calls limit place with
  | true => exact .inl (mem_map.2 ⟨_, mem_filter.2 ⟨hplace, hkeep⟩, rfl⟩)
  | false =>
    exact .inr (mem_map.2 ⟨_, mem_filter.2 ⟨hplace, by simp [hkeep]⟩, rfl⟩)

theorem length_select_add_omitted (calls : List CompletedToolCall) (limit : Option Nat) :
    (selectCompletedCalls calls limit).length + (omittedCompletedCalls calls limit).length =
      calls.length := by
  rw [selectCompletedCalls, omittedCompletedCalls, length_map, length_map,
    ← length_eq_length_filter_add, length_zipIdx]

section Render

variable (checkpoint : TurnCheckpointPart) (retryCallIds : List Units)
  (state : RecoveryPromptState)

theorem render_succeeded (hcall : call ∈ checkpoint.completedCalls)
    (hsucceeded : call.isError = false) :
    RecoveredCall.ofCompleted state.resultLength call ∈
        (render checkpoint retryCallIds state).succeededCalls ∨
      call.name.take recoveryOmittedCallNameLength ∈
        (render checkpoint retryCallIds state).omittedSucceededCallNames := by
  rcases mem_select_or_omitted state.completedCallLimit hcall with hkept | homitted
  · left
    exact mem_map_of_mem (mem_filter.2 ⟨hkept, by simp [hsucceeded]⟩)
  · right
    refine mem_eraseDups.2 (mem_map_of_mem (mem_map_of_mem ?_))
    exact mem_filter.2 ⟨homitted, by simp [hsucceeded]⟩

theorem render_failed (hcall : call ∈ checkpoint.completedCalls) (hfailed : call.isError = true) :
    RecoveredCall.ofCompleted state.resultLength call ∈
        (render checkpoint retryCallIds state).failedCalls ∨
      0 < (render checkpoint retryCallIds state).omittedCompletedCallCount := by
  rcases mem_select_or_omitted state.completedCallLimit hcall with hkept | homitted
  · left
    exact mem_map_of_mem (mem_filter.2 ⟨hkept, hfailed⟩)
  · right
    exact length_pos_of_mem homitted

theorem render_completedCounted :
    let context := render checkpoint retryCallIds state
    context.succeededCalls.length + context.failedCalls.length +
      context.omittedCompletedCallCount = checkpoint.completedCalls.length := by
  grind [length_eq_length_filter_add, length_select_add_omitted, render]

theorem render_incomplete {call : IncompleteToolCall} (hcall : call ∈ checkpoint.incompleteCalls) :
    UnfinishedCall.ofIncomplete call ∈ (render checkpoint retryCallIds state).incompleteCalls ∨
      0 < (render checkpoint retryCallIds state).omittedIncompleteCallCount := by
  cases hsummary : state.summarizeIncompleteCalls with
  | false =>
    left
    simp only [render, hsummary, Bool.false_eq_true, if_false]
    exact mem_map_of_mem hcall
  | true =>
    simp only [render, hsummary, if_true]
    cases hrequested : retryCallIds.contains call.callId with
    | true => exact .inl (mem_map_of_mem (mem_filter.2 ⟨hcall, hrequested⟩))
    | false =>
      exact .inr (length_pos_of_mem (mem_filter.2 ⟨hcall, by rw [hrequested]; rfl⟩))

theorem render_incompleteCounted :
    let context := render checkpoint retryCallIds state
    context.incompleteCalls.length + context.omittedIncompleteCallCount =
      checkpoint.incompleteCalls.length := by
  grind [render, selectedRetryCalls, length_eq_length_filter_add]

theorem render_unknownCounted :
    let context := render checkpoint retryCallIds state
    context.incompleteCalls.countP (fun entry => entry.outcome == .unknown) +
      context.omittedUnknownOutcomeCount =
        checkpoint.incompleteCalls.countP fun call => call.outcome == .unknown := by
  cases hsummary : state.summarizeIncompleteCalls with
  | false =>
    simp only [render, hsummary, Bool.false_eq_true, if_false, countP_map, filter_nil,
      length_nil, Nat.add_zero]
    rfl
  | true =>
    simp only [render, hsummary, if_true, countP_map, ← countP_eq_length_filter,
      selectedRetryCalls]
    exact (countP_eq_countP_filter_add _ _ _).symm

theorem mem_render_selected (id : Units) :
    id ∈ (render checkpoint retryCallIds state).selectedRetryCallIds ↔
      id ∈ retryCallIds ∧ ∃ call ∈ checkpoint.incompleteCalls, call.callId = id := by
  grind [render, selectedRetryCalls]

end Render

/-! ## The cap of the checkpoint -/

/-- No more calls than a checkpoint keeps. -/
def WithinCap (parts : List MessagePart) : Prop :=
  (callsWithResult parts).length ≤ turnRecoveryMaxCalls ∧
    (callsWithoutResult parts).length ≤ turnRecoveryMaxCalls

section Refreshed

variable (checkpoint : TurnCheckpointPart) (content : TurnCheckpointContent) (now : Nat)
  (options : WriteTurnCheckpointOptions) (retryCallIds : List Units)
  (state : RecoveryPromptState)

theorem collectCompletedCalls_of_le {parts : List MessagePart}
    (hcap : (callsWithResult parts).length ≤ turnRecoveryMaxCalls) :
    collectCompletedCalls parts = (callsWithResult parts).map completedToolCall := by
  rw [collectCompletedCalls, take_of_length_le hcap]

theorem collectIncompleteCalls_of_le {parts : List MessagePart}
    (hcap : (callsWithoutResult parts).length ≤ turnRecoveryMaxCalls) :
    collectIncompleteCalls parts = (callsWithoutResult parts).map incompleteToolCall := by
  rw [collectIncompleteCalls, take_of_length_le hcap]

theorem take_name_of_completed (call : ToolCallPart × ToolResultPart) :
    (completedToolCall call).name.take recoveryOmittedCallNameLength =
      (ofString call.1.name).take recoveryOmittedCallNameLength := by
  simp only [completedToolCall, take_take, recoveryOmittedCallNameLength, maxIdLength]
  rfl

theorem mem_selected_refreshed
    (hcap : (callsWithoutResult content.parts).length ≤ turnRecoveryMaxCalls) (id : Units) :
    id ∈ (render (refreshTurnCheckpointPart checkpoint content now options) retryCallIds
        state).selectedRetryCallIds ↔
      id ∈ retryCallIds ∧ ∃ call ∈ callsWithoutResult content.parts,
        (ofString call.toolCallId).take maxIdLength = id := by
  rw [mem_render_selected, refresh_incompleteCalls, collectIncompleteCalls_of_le hcap]
  simp only [mem_map, exists_exists_and_eq_and]
  rfl

theorem accounts_of_withinCap (hcap : WithinCap content.parts)
    (hids : IdsSurviveCut content.parts retryCallIds) :
    Accounts content.parts retryCallIds
      (render (refreshTurnCheckpointPart checkpoint content now options) retryCallIds state) := by
  obtain ⟨hcompleted, hincomplete⟩ := hcap
  have hcollected := collectCompletedCalls_of_le hcompleted
  have hunfinished := collectIncompleteCalls_of_le hincomplete
  have hmem : ∀ call ∈ callsWithResult content.parts, completedToolCall call ∈
      (refreshTurnCheckpointPart checkpoint content now options).completedCalls := by
    intro call hcall
    rw [refresh_completedCalls, hcollected]
    exact mem_map_of_mem hcall
  constructor
  case succeeded =>
    intro call hcall hsucceeded
    rcases render_succeeded _ retryCallIds state (hmem call hcall) hsucceeded with hlisted | hnamed
    · exact .inl ⟨_, hlisted, rfl, rfl⟩
    · rw [take_name_of_completed] at hnamed
      exact .inr hnamed
  case failed =>
    intro call hcall hfailed
    rcases render_failed _ retryCallIds state (hmem call hcall) hfailed with hlisted | hcounted
    · exact .inl ⟨_, hlisted, rfl, rfl⟩
    · exact .inr hcounted
  case completedCounted =>
    rw [render_completedCounted, refresh_completedCalls, hcollected, length_map]
  case incomplete =>
    intro call hcall
    have hmem : incompleteToolCall call ∈
        (refreshTurnCheckpointPart checkpoint content now options).incompleteCalls := by
      rw [refresh_incompleteCalls, hunfinished]
      exact mem_map_of_mem hcall
    rcases render_incomplete _ retryCallIds state hmem with hlisted | hcounted
    · exact .inl ⟨_, hlisted, rfl, rfl, rfl⟩
    · exact .inr hcounted
  case incompleteCounted =>
    rw [render_incompleteCounted, refresh_incompleteCalls, hunfinished, length_map]
  case unknownCounted =>
    rw [render_unknownCounted, refresh_incompleteCalls, hunfinished, countP_map]
    rfl
  case selected =>
    intro id
    rw [mem_selected_refreshed checkpoint content now options retryCallIds state hincomplete]
    exact and_congr_right fun hrequested => hids id hrequested

theorem withinCap_of_accounts
    (haccounts : Accounts content.parts retryCallIds
      (render (refreshTurnCheckpointPart checkpoint content now options) retryCallIds state)) :
    WithinCap content.parts ∧ IdsSurviveCut content.parts retryCallIds := by
  have hcompleted := haccounts.completedCounted
  have hincomplete := haccounts.incompleteCounted
  rw [render_completedCounted, refresh_completedCalls, collectCompletedCalls, length_map,
    length_take] at hcompleted
  rw [render_incompleteCounted, refresh_incompleteCalls, collectIncompleteCalls, length_map,
    length_take] at hincomplete
  have hcap : WithinCap content.parts := ⟨by omega, by omega⟩
  refine ⟨hcap, fun id hrequested => ?_⟩
  grind [mem_selected_refreshed, cases Accounts]

end Refreshed

theorem trimmedState_eq_none_iff (checkpoint : TurnCheckpointPart) (retryCallIds : List Units) :
    trimmedState checkpoint retryCallIds = none ↔ NothingFits checkpoint retryCallIds := by
  rw [trimmedState, runPasses_eq_find, find?_eq_none]
  simp [NothingFits]

/-- The prompt that resumes a turn has no context or accounts for every call of the message
exactly if nothing fits or the message has no more calls than a checkpoint keeps. -/
theorem recoveryPayload_covers_iff (checkpoint : TurnCheckpointPart)
    (content : TurnCheckpointContent) (now : Nat) (options : WriteTurnCheckpointOptions)
    (retryCallIds : List Units) :
    let refreshed := refreshTurnCheckpointPart checkpoint content now options
    Covers content.parts retryCallIds (recoveryPayload refreshed retryCallIds) ↔
      NothingFits refreshed retryCallIds ∨
        WithinCap content.parts ∧ IdsSurviveCut content.parts retryCallIds := by
  intro refreshed
  cases htrimmed : trimmedState refreshed retryCallIds with
  | none =>
    have hnothing := (trimmedState_eq_none_iff refreshed retryCallIds).1 htrimmed
    rw [recoveryPayload_of_none htrimmed]
    exact iff_of_true (.inl minimalPayload_recoveryContextOmitted) (.inl hnothing)
  | some state =>
    have hfits : ¬ NothingFits refreshed retryCallIds := fun hnothing => by
      rw [(trimmedState_eq_none_iff refreshed retryCallIds).2 hnothing] at htrimmed
      cases htrimmed
    rw [recoveryPayload_of_some htrimmed]
    constructor
    · rintro (homitted | ⟨context, heq, haccounts⟩)
      · cases homitted
      · cases heq
        exact .inr (withinCap_of_accounts checkpoint content now options retryCallIds state
          haccounts)
    · rintro (hnothing | ⟨hcap, hids⟩)
      · exact absurd hnothing hfits
      · exact .inr ⟨_, rfl,
          accounts_of_withinCap checkpoint content now options retryCallIds state hcap hids⟩

/-- One call of a tool and its result. -/
def callAndResult (id name : String) : List MessagePart :=
  [.toolCall ⟨id, name, .null, none⟩, .toolResult ⟨id, "ok", false⟩]

/-- Fifty calls of one tool, and one more that deploys something. -/
def fiftyOneCalls : List MessagePart :=
  (List.range 50).flatMap (fun n => callAndResult (String.singleton (Char.ofNat (48 + n))) "grep") ++
    callAndResult "last" "deploy"

/-- The checkpoint of an interrupted turn with these calls. -/
def fiftyOneCallsCheckpoint : TurnCheckpointPart :=
  refreshTurnCheckpointPart { turnId := ofString "turn", checkpointedAt := 0 }
    ⟨"", fiftyOneCalls⟩ 1 { status := some .interrupted }

theorem length_recoveryInstructions_le : recoveryInstructions.length ≤ 500 := by
  unfold recoveryInstructions
  simp only [ofString, String.toList_append, String.reduceToList]
  decide +kernel

theorem fiftyOneCalls_fits :
    stateFits fiftyOneCallsCheckpoint [] (initialPromptState fiftyOneCallsCheckpoint) = true := by
  have hinstructions := length_recoveryInstructions_le
  have hnewline : (ofString "\n").length ≤ 1 := by decide
  have hclose : (ofString "\n</turn-recovery>").length ≤ 17 := by decide
  have hpayload : (encodeRecoveryPayload (.withContext (render fiftyOneCallsCheckpoint []
      (initialPromptState fiftyOneCallsCheckpoint)))).length ≤ 15000 := by decide +kernel
  simp only [stateFits, fitsPrompt, recoveryPromptText, length_append, decide_eq_true_iff,
    recoveryPromptMaxLength]
  omega

/-- The fifty-first call succeeded, and the prompt does not mention it. -/
theorem recoveryPayload_loses_call :
    ¬ Covers fiftyOneCalls [] (recoveryPayload fiftyOneCallsCheckpoint []) := by
  have htrimmed : trimmedState fiftyOneCallsCheckpoint [] =
      some (initialPromptState fiftyOneCallsCheckpoint) :=
    runPasses_of_accept fiftyOneCalls_fits _ _
  rw [recoveryPayload_of_some htrimmed]
  rintro (homitted | ⟨context, heq, haccounts⟩)
  · cases homitted
  · obtain rfl := RecoveryPayload.withContext.inj heq
    unfold fiftyOneCallsCheckpoint at haccounts
    have hcap := (withinCap_of_accounts _ ⟨"", fiftyOneCalls⟩ _ _ _ _ haccounts).1
    exact absurd hcap.1 (by decide +kernel)

end MangoStudio.Generation
