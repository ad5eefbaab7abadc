import MangoStudio.Generation.TurnCheckpoint
import MangoStudio.Lib.Passes

/-!
# The prompt that resumes an interrupted turn

`buildRecoveryPrompt` of
`apps/api/src/modules/generation/application/turn-recovery.ts`.  The checkpoint of
the turn is written as JSON between two delimiters.  While the prompt is longer
than 16000 code units, eight passes drop parts of it, each until it has nothing
left to drop; what is dropped is counted or named in the payload.  If nothing
helps, the payload only says that the context is missing.

* `RecoveryPayload` is the object that is encoded.  A member that is written only
  when its count is positive is a `Nat`, and one that is written only when it is
  not empty is a list.
* The loop over the passes is `Passes.runPasses`.  Every turn of a pass makes the
  state lighter (`trimPasses_trim`), so the bound that it carries never ends it.
-/

namespace MangoStudio.Generation

open Conversation JsText Passes List

def recoveryPromptMaxLength : Nat := 16000
def recoveryResultInitialLength : Nat := 512
def recoveryResultMinLength : Nat := 64
def recoveryAssistantTextFloor : Nat := 2000
def recoveryTodoContentLength : Nat := 80
def recoveryCompletedCallInitialLimit : Nat := 20
def recoveryOmittedCallNameLength : Nat := 40

/-! ## The payload -/

structure RecoveredCall where
  callId : Units
  name : Units
  result : Units
  deriving DecidableEq, Repr

structure UnfinishedCall where
  callId : Units
  name : Units
  retrySafety : ToolRetrySafety
  outcome : IncompleteToolCallOutcome
  deriving DecidableEq, Repr

structure RecoveryContext where
  interruptedTurnId : Units
  interruptionReason : TurnInterruptionReasonCode
  lastDurableAssistantContent : Units
  todoSnapshotOmitted : Bool
  todoSnapshot : List CheckpointTodo
  omittedCompletedTodoCount : Nat
  succeededCalls : List RecoveredCall
  failedCalls : List RecoveredCall
  omittedCompletedCallCount : Nat
  omittedSucceededCallNames : List Units
  incompleteCalls : List UnfinishedCall
  omittedIncompleteCallCount : Nat
  omittedIncompleteCallNames : List Units
  omittedUnknownOutcomeCount : Nat
  selectedRetryCallIds : List Units
  deriving DecidableEq, Repr

inductive RecoveryPayload where
  /-- The checkpoint, as far as it fits. -/
  | withContext (context : RecoveryContext)
  /-- `recoveryContextOmitted` with the selection of calls. -/
  | selectionOnly (interruptedTurnId : Units) (interruptionReason : TurnInterruptionReasonCode)
      (selectedRetryCallIds : List Units)
  /-- `recoveryContextOmitted` and `retrySelectionOmitted`. -/
  | nothing (interruptedTurnId : Units) (interruptionReason : TurnInterruptionReasonCode)
  deriving DecidableEq, Repr

def RecoveryPayload.recoveryContextOmitted : RecoveryPayload → Bool
  | .withContext _ => false
  | .selectionOnly .. | .nothing .. => true

/-! ## Its text -/

def reasonText : TurnInterruptionReasonCode → String
  | .clientDisconnect => "client_disconnect"
  | .serverRestart => "server_restart"
  | .providerError => "provider_error"
  | .userCancelled => "user_cancelled"
  | .toolLoopExhausted => "tool_loop_exhausted"
  | .unknown => "unknown"

def retrySafetyText : ToolRetrySafety → String
  | .safeRead => "safe_read"
  | .confirmationRequired => "confirmation_required"
  | .unknown => "unknown"

def outcomeText : IncompleteToolCallOutcome → String
  | .notStarted => "not_started"
  | .interrupted => "interrupted"
  | .unknown => "unknown"

def todoStatusText : TodoStatus → String
  | .pending => "pending"
  | .inProgress => "in_progress"
  | .completed => "completed"

/-- An object, by the names and values of its members. -/
def jsonObject (members : List (String × Value)) : Value :=
  .object (members.map fun (name, value) => (ofString name, value))

/-- A text from a fixed list. -/
def jsonText (text : String) : Value := .string (ofString text)

/-- Members that are written under a condition. -/
def membersIf (condition : Bool) (members : List (String × Value)) : List (String × Value) :=
  if condition then members else []

def RecoveredCall.json (call : RecoveredCall) : Value :=
  jsonObject [("callId", .string call.callId), ("name", .string call.name),
    ("result", .string call.result)]

def UnfinishedCall.json (call : UnfinishedCall) : Value :=
  jsonObject [("callId", .string call.callId), ("name", .string call.name),
    ("retrySafety", jsonText (retrySafetyText call.retrySafety)),
    ("outcome", jsonText (outcomeText call.outcome))]

def CheckpointTodo.json (todo : CheckpointTodo) : Value :=
  jsonObject [("content", .string todo.content), ("status", jsonText (todoStatusText todo.status))]

section ContextJson

variable (context : RecoveryContext)

def RecoveryContext.todoMembers : List (String × Value) :=
  if context.todoSnapshotOmitted then [("todoSnapshotOmitted", .bool true)]
  else
    ("todoSnapshot", .array (context.todoSnapshot.map CheckpointTodo.json)) ::
      membersIf (0 < context.omittedCompletedTodoCount)
        [("omittedCompletedTodoCount", .number context.omittedCompletedTodoCount)]

def RecoveryContext.omittedCompletedMembers : List (String × Value) :=
  membersIf (0 < context.omittedCompletedCallCount)
    (("omittedCompletedCallCount", .number context.omittedCompletedCallCount) ::
      membersIf (0 < context.omittedSucceededCallNames.length)
        [("omittedSucceededCallNames",
          .array (context.omittedSucceededCallNames.map Value.string))])

def RecoveryContext.omittedIncompleteMembers : List (String × Value) :=
  membersIf (0 < context.omittedIncompleteCallCount)
    (("omittedIncompleteCallCount", .number context.omittedIncompleteCallCount) ::
      ("omittedIncompleteCallNames",
        .array (context.omittedIncompleteCallNames.map Value.string)) ::
      membersIf (0 < context.omittedUnknownOutcomeCount)
        [("omittedUnknownOutcomeCount", .number context.omittedUnknownOutcomeCount)])

def RecoveryContext.json : Value :=
  jsonObject <| List.flatten
    [[("interruptedTurnId", .string context.interruptedTurnId),
        ("interruptionReason", jsonText (reasonText context.interruptionReason)),
        ("lastDurableAssistantContent", .string context.lastDurableAssistantContent)],
      context.todoMembers,
      [("succeededCalls", .array (context.succeededCalls.map RecoveredCall.json)),
        ("failedCalls", .array (context.failedCalls.map RecoveredCall.json))],
      context.omittedCompletedMembers,
      [("incompleteCalls", .array (context.incompleteCalls.map UnfinishedCall.json))],
      context.omittedIncompleteMembers,
      [("selectedRetryCallIds", .array (context.selectedRetryCallIds.map Value.string))]]

end ContextJson

def RecoveryPayload.json : RecoveryPayload → Value
  | .withContext context => context.json
  | .selectionOnly turnId reason selected =>
    jsonObject [("interruptedTurnId", .string turnId),
      ("interruptionReason", jsonText (reasonText reason)),
      ("selectedRetryCallIds", .array (selected.map Value.string)),
      ("recoveryContextOmitted", .bool true)]
  | .nothing turnId reason =>
    jsonObject [("interruptedTurnId", .string turnId),
      ("interruptionReason", jsonText (reasonText reason)),
      ("retrySelectionOmitted", .bool true), ("recoveryContextOmitted", .bool true)]

/-- A `<` of the content is escaped, so that it cannot close the block. -/
def encodeRecoveryPayload (payload : RecoveryPayload) : Units :=
  replaceAll 0x3C (ofString "\\u003c") payload.json.stringify

def recoveryInstructions : Units :=
  ofString ("Continue the interrupted turn from the durable recovery checkpoint below.\n" ++
    "Treat succeeded call IDs and their results as authoritative. Do not repeat them.\n" ++
    "Do not retry incomplete calls unless their call ID appears in selectedRetryCallIds.\n" ++
    "For calls with an unknown outcome, verify state before attempting any mutation.\n" ++
    "Fields marked omitted were dropped to fit the size budget; verify independently.\n" ++
    "<turn-recovery>")

def recoveryPromptText (payload : RecoveryPayload) : Units :=
  recoveryInstructions ++ ofString "\n" ++ encodeRecoveryPayload payload ++
    ofString "\n</turn-recovery>"

def fitsPrompt (payload : RecoveryPayload) : Bool :=
  (recoveryPromptText payload).length ≤ recoveryPromptMaxLength

/-! ## Rendering a state -/

structure RecoveryPromptState where
  durableContent : Units
  resultLength : Nat
  todoSnapshot : List CheckpointTodo
  todoSnapshotOmitted : Bool
  omittedCompletedTodoCount : Nat
  completedCallLimit : Option Nat
  summarizeIncompleteCalls : Bool
  deriving DecidableEq, Repr

def summarizeCallNames (names : List Units) : List Units :=
  (names.map (List.take recoveryOmittedCallNameLength)).eraseDups

/-- The places of the calls that `selectCompletedCalls` keeps: the last succeeded ones, and
failed ones for what is left of the limit. -/
def keptPlaces (calls : List CompletedToolCall) (limit : Nat) : List Nat :=
  let succeeded := (calls.zipIdx.filter fun call => !call.1.isError).map (·.2)
  let failed := (calls.zipIdx.filter fun call => call.1.isError).map (·.2)
  let kept := sliceLast limit succeeded
  if kept.length < limit then kept ++ sliceLast (limit - kept.length) failed else kept

/-- Whether `selectCompletedCalls` keeps the call at a place.  The source compares objects, and
two calls of a checkpoint are never the same object. -/
def keepsPlace (calls : List CompletedToolCall) : Option Nat → Nat → Bool
  | none, _ => true
  | some 0, _ => false
  | some limit, place => (keptPlaces calls limit).contains place

def selectCompletedCalls (calls : List CompletedToolCall) (limit : Option Nat) :
    List CompletedToolCall :=
  (calls.zipIdx.filter fun call => keepsPlace calls limit call.2).map (·.1)

def omittedCompletedCalls (calls : List CompletedToolCall) (limit : Option Nat) :
    List CompletedToolCall :=
  (calls.zipIdx.filter fun call => !keepsPlace calls limit call.2).map (·.1)

def RecoveredCall.ofCompleted (resultLength : Nat) (call : CompletedToolCall) : RecoveredCall :=
  ⟨call.callId, call.name, call.result.take resultLength⟩

def UnfinishedCall.ofIncomplete (call : IncompleteToolCall) : UnfinishedCall :=
  ⟨call.callId, call.name, call.retrySafety, call.outcome⟩

section Render

variable (checkpoint : TurnCheckpointPart) (retryCallIds : List Units)

def selectedRetryCalls : List IncompleteToolCall :=
  checkpoint.incompleteCalls.filter fun call => retryCallIds.contains call.callId

def render (state : RecoveryPromptState) : RecoveryContext :=
  let completedCalls := selectCompletedCalls checkpoint.completedCalls state.completedCallLimit
  let omittedCompleted := omittedCompletedCalls checkpoint.completedCalls state.completedCallLimit
  let omittedIncomplete :=
    if state.summarizeIncompleteCalls then
      checkpoint.incompleteCalls.filter fun call => !retryCallIds.contains call.callId
    else []
  let incompleteCalls :=
    if state.summarizeIncompleteCalls then selectedRetryCalls checkpoint retryCallIds
    else checkpoint.incompleteCalls
  { interruptedTurnId := checkpoint.turnId
    interruptionReason := checkpoint.reasonCode.getD .unknown
    lastDurableAssistantContent := state.durableContent
    todoSnapshotOmitted := state.todoSnapshotOmitted
    todoSnapshot := state.todoSnapshot
    omittedCompletedTodoCount := state.omittedCompletedTodoCount
    succeededCalls := (completedCalls.filter fun call => !call.isError).map
      (RecoveredCall.ofCompleted state.resultLength)
    failedCalls := (completedCalls.filter fun call => call.isError).map
      (RecoveredCall.ofCompleted state.resultLength)
    omittedCompletedCallCount := omittedCompleted.length
    omittedSucceededCallNames :=
      summarizeCallNames ((omittedCompleted.filter fun call => !call.isError).map (·.name))
    incompleteCalls := incompleteCalls.map UnfinishedCall.ofIncomplete
    omittedIncompleteCallCount := omittedIncomplete.length
    omittedIncompleteCallNames := summarizeCallNames (omittedIncomplete.map (·.name))
    omittedUnknownOutcomeCount :=
      (omittedIncomplete.filter fun call => call.outcome == .unknown).length
    selectedRetryCallIds := (selectedRetryCalls checkpoint retryCallIds).map (·.callId) }

/-- Whether the prompt of a state is short enough. -/
def stateFits (state : RecoveryPromptState) : Bool :=
  fitsPrompt (.withContext (render checkpoint retryCallIds state))

end Render

/-! ## The passes -/

/-- What a pass does to the state, unless it has nothing left to drop. -/
abbrev TrimPass := Pass RecoveryPromptState

def trimResultLength : TrimPass := fun state =>
  if state.resultLength ≤ recoveryResultMinLength then none
  else some { state with resultLength := max recoveryResultMinLength (state.resultLength / 2) }

def trimAssistantTextToFloor (floor : Nat) : TrimPass := fun state =>
  if state.durableContent.length ≤ floor then none
  else some { state with
    durableContent := state.durableContent.take (max floor (state.durableContent.length / 2)) }

def isLongTodo (todo : CheckpointTodo) : Bool :=
  recoveryTodoContentLength < todo.content.length

/-- The ellipsis keeps a clipped todo from reading as a complete instruction. -/
def clipTodo (todo : CheckpointTodo) : CheckpointTodo :=
  if isLongTodo todo then
    { todo with content :=
        todo.content.take (recoveryTodoContentLength - 1) ++ ofString "…" }
  else todo

def truncateTodoContents : TrimPass := fun state =>
  if state.todoSnapshot.any isLongTodo then
    some { state with todoSnapshot := state.todoSnapshot.map clipTodo }
  else none

def dropCompletedTodos : TrimPass := fun state =>
  let completedCount := (state.todoSnapshot.filter fun todo => todo.status == .completed).length
  let remaining := state.todoSnapshot.filter fun todo => !(todo.status == .completed)
  if completedCount = 0 then none
  else some { state with
    todoSnapshot := remaining
    omittedCompletedTodoCount := completedCount
    todoSnapshotOmitted := state.todoSnapshotOmitted || remaining.isEmpty }

def omitTodoSnapshot : TrimPass := fun state =>
  if state.todoSnapshot.isEmpty then none
  else some { state with todoSnapshot := [], todoSnapshotOmitted := true }

def reduceCompletedCallLimit (totalCount : Nat) : TrimPass := fun state =>
  let currentCount := state.completedCallLimit.getD totalCount
  if currentCount = 0 then none
  else
    let limit :=
      if recoveryCompletedCallInitialLimit < currentCount then recoveryCompletedCallInitialLimit
      else currentCount / 2
    some { state with completedCallLimit := some limit }

def summarizeIncompleteCalls (totalCount selectedCount : Nat) : TrimPass := fun state =>
  if state.summarizeIncompleteCalls || totalCount == selectedCount then none
  else some { state with summarizeIncompleteCalls := true }

/-! ## Building the prompt -/

section Build

variable (checkpoint : TurnCheckpointPart) (retryCallIds : List Units)

def initialPromptState : RecoveryPromptState where
  durableContent := checkpoint.lastAssistantText
  resultLength := recoveryResultInitialLength
  todoSnapshot := checkpoint.todoSnapshot
  todoSnapshotOmitted := false
  omittedCompletedTodoCount := 0
  completedCallLimit := none
  summarizeIncompleteCalls := false

def trimPasses : List TrimPass :=
  [trimResultLength, trimAssistantTextToFloor recoveryAssistantTextFloor, truncateTodoContents,
    dropCompletedTodos, omitTodoSnapshot,
    reduceCompletedCallLimit checkpoint.completedCalls.length,
    summarizeIncompleteCalls checkpoint.incompleteCalls.length
      (selectedRetryCalls checkpoint retryCallIds).length,
    trimAssistantTextToFloor 0]

/-- What the passes can still drop: every turn of a pass makes it smaller. -/
def stateWeight (state : RecoveryPromptState) : Nat :=
  state.resultLength + state.durableContent.length + state.todoSnapshot.countP isLongTodo +
    state.todoSnapshot.length +
    state.completedCallLimit.getD checkpoint.completedCalls.length +
    (if state.summarizeIncompleteCalls then 0 else 1)

/-- The state whose prompt is used. -/
def trimmedState : Option RecoveryPromptState :=
  runPasses (stateFits checkpoint retryCallIds) (stateWeight checkpoint)
    (trimPasses checkpoint retryCallIds) (initialPromptState checkpoint)

/-- What is left when no state fits. -/
def minimalPayload : RecoveryPayload :=
  let reason := checkpoint.reasonCode.getD .unknown
  let minimal := RecoveryPayload.selectionOnly checkpoint.turnId reason
    ((selectedRetryCalls checkpoint retryCallIds).map (·.callId))
  if fitsPrompt minimal then minimal else .nothing checkpoint.turnId reason

def recoveryPayload : RecoveryPayload :=
  (trimmedState checkpoint retryCallIds).elim (minimalPayload checkpoint retryCallIds)
    fun state => .withContext (render checkpoint retryCallIds state)

def buildRecoveryPrompt : Units :=
  recoveryPromptText (recoveryPayload checkpoint retryCallIds)

variable {checkpoint retryCallIds}

theorem recoveryPayload_of_some {state : RecoveryPromptState}
    (htrimmed : trimmedState checkpoint retryCallIds = some state) :
    recoveryPayload checkpoint retryCallIds =
      .withContext (render checkpoint retryCallIds state) := by
  rw [recoveryPayload, htrimmed, Option.elim_some]

theorem recoveryPayload_of_none (htrimmed : trimmedState checkpoint retryCallIds = none) :
    recoveryPayload checkpoint retryCallIds = minimalPayload checkpoint retryCallIds := by
  rw [recoveryPayload, htrimmed, Option.elim_none]

theorem minimalPayload_recoveryContextOmitted :
    (minimalPayload checkpoint retryCallIds).recoveryContextOmitted = true := by
  rw [minimalPayload, apply_ite RecoveryPayload.recoveryContextOmitted]
  exact ite_self true

end Build

/-! ## Every pass ends by itself, and gives no other pass something to do -/

section Trims

/-- What the passes read is left alone or made smaller. -/
structure Shrinks (totalCount : Nat) (before after : RecoveryPromptState) : Prop where
  resultLength : after.resultLength ≤ before.resultLength
  durableContent : after.durableContent.length ≤ before.durableContent.length
  todoSnapshot : ∀ todo ∈ after.todoSnapshot, ∃ old ∈ before.todoSnapshot,
    todo.status = old.status ∧ (isLongTodo todo = true → isLongTodo old = true)
  completedCallLimit :
    after.completedCallLimit.getD totalCount ≤ before.completedCallLimit.getD totalCount
  summarizeIncompleteCalls :
    before.summarizeIncompleteCalls = true → after.summarizeIncompleteCalls = true

/-- Every turn of the pass leaves less to drop. -/
def Trims (checkpoint : TurnCheckpointPart) (pass : TrimPass) : Prop :=
  ∀ state next, pass state = some next →
    stateWeight checkpoint next < stateWeight checkpoint state ∧
      Shrinks checkpoint.completedCalls.length state next

theorem Shrinks.refl (totalCount : Nat) (state : RecoveryPromptState) :
    Shrinks totalCount state state where
  resultLength := Nat.le_refl _
  durableContent := Nat.le_refl _
  todoSnapshot := fun todo htodo => ⟨todo, htodo, rfl, id⟩
  completedCallLimit := Nat.le_refl _
  summarizeIncompleteCalls := id

variable {checkpoint : TurnCheckpointPart}

theorem not_isLongTodo_clipTodo (todo : CheckpointTodo) : isLongTodo (clipTodo todo) = false := by
  unfold clipTodo
  split_ifs with hlong
  · have hellipsis : (ofString "…").length = 1 := by decide
    simp only [isLongTodo, length_append, length_take, hellipsis,
      decide_eq_false_iff_not, not_lt, recoveryTodoContentLength]
    omega
  · simpa using hlong

theorem trimResultLength_trims : Trims checkpoint trimResultLength := by
  intro state next htrim
  unfold trimResultLength at htrim
  split_ifs at htrim with hmin
  cases htrim
  have hless : max recoveryResultMinLength (state.resultLength / 2) < state.resultLength := by
    rw [recoveryResultMinLength] at hmin ⊢
    omega
  refine ⟨?_, { Shrinks.refl _ state with resultLength := Nat.le_of_lt hless }⟩
  simp only [stateWeight]
  omega

theorem trimAssistantTextToFloor_trims {floor : Nat} :
    Trims checkpoint (trimAssistantTextToFloor floor) := by
  intro state next htrim
  unfold trimAssistantTextToFloor at htrim
  split_ifs at htrim with hfloor
  cases htrim
  have hless : (state.durableContent.take
      (max floor (state.durableContent.length / 2))).length < state.durableContent.length := by
    rw [length_take]
    omega
  refine ⟨?_, { Shrinks.refl _ state with durableContent := Nat.le_of_lt hless }⟩
  simp only [stateWeight]
  omega

theorem truncateTodoContents_trims : Trims checkpoint truncateTodoContents := by
  intro state next htrim
  unfold truncateTodoContents at htrim
  split_ifs at htrim with hlong
  cases htrim
  refine ⟨?_, { Shrinks.refl _ state with todoSnapshot := ?_ }⟩
  · have hpos : 0 < state.todoSnapshot.countP isLongTodo := countP_pos_iff.mpr (any_eq_true.mp hlong)
    have hnone : (state.todoSnapshot.map clipTodo).countP isLongTodo = 0 := by
      simp [not_isLongTodo_clipTodo]
    simp only [stateWeight, hnone, length_map]
    omega
  · intro todo htodo
    obtain ⟨old, hold, rfl⟩ := mem_map.mp htodo
    refine ⟨old, hold, ?_, by simp [not_isLongTodo_clipTodo]⟩
    rw [clipTodo]
    split_ifs <;> rfl

theorem dropCompletedTodos_trims : Trims checkpoint dropCompletedTodos := by
  intro state next htrim
  unfold dropCompletedTodos at htrim
  simp only at htrim
  split_ifs at htrim with hnone
  cases htrim
  refine ⟨?_, { Shrinks.refl _ state with
    todoSnapshot := fun todo htodo => ⟨todo, mem_of_mem_filter htodo, rfl, id⟩ }⟩
  have hsplit := length_eq_length_filter_add (l := state.todoSnapshot)
    fun todo => todo.status == .completed
  have hlong : (state.todoSnapshot.filter fun todo => !(todo.status == .completed)).countP
      isLongTodo ≤ state.todoSnapshot.countP isLongTodo :=
    filter_sublist.countP_le
  simp only [stateWeight]
  omega

theorem omitTodoSnapshot_trims : Trims checkpoint omitTodoSnapshot := by
  intro state next htrim
  unfold omitTodoSnapshot at htrim
  split_ifs at htrim with hempty
  cases htrim
  refine ⟨?_, { Shrinks.refl _ state with todoSnapshot := by simp }⟩
  have hpos : 0 < state.todoSnapshot.length := by simpa [length_pos_iff] using hempty
  simp only [stateWeight, countP_nil, length_nil]
  omega

theorem reduceCompletedCallLimit_trims :
    Trims checkpoint (reduceCompletedCallLimit checkpoint.completedCalls.length) := by
  intro state next htrim
  unfold reduceCompletedCallLimit at htrim
  simp only at htrim
  have hsame := Shrinks.refl checkpoint.completedCalls.length state
  split_ifs at htrim with hnone hmany
  · cases htrim
    refine ⟨?_, { hsame with completedCallLimit := Nat.le_of_lt hmany }⟩
    simp only [stateWeight, Option.getD_some]
    omega
  · cases htrim
    refine ⟨?_, { hsame with completedCallLimit := Nat.div_le_self _ 2 }⟩
    simp only [stateWeight, Option.getD_some]
    omega

theorem summarizeIncompleteCalls_trims {totalCount selectedCount : Nat} :
    Trims checkpoint (summarizeIncompleteCalls totalCount selectedCount) := by
  intro state next htrim
  unfold summarizeIncompleteCalls at htrim
  split_ifs at htrim with hdone
  cases htrim
  refine ⟨?_, { Shrinks.refl _ state with summarizeIncompleteCalls := fun _ => rfl }⟩
  simp only [Bool.or_eq_true, not_or, Bool.not_eq_true] at hdone
  simp [stateWeight, hdone.1]

variable {retryCallIds : List Units} {pass : TrimPass}

theorem trimPasses_trim (hpass : pass ∈ trimPasses checkpoint retryCallIds) :
    Trims checkpoint pass := by
  revert pass
  simp only [trimPasses, forall_mem_cons, not_mem_nil, IsEmpty.forall_iff, implies_true, and_true]
  exact ⟨trimResultLength_trims, trimAssistantTextToFloor_trims, truncateTodoContents_trims,
    dropCompletedTodos_trims, omitTodoSnapshot_trims, reduceCompletedCallLimit_trims,
    summarizeIncompleteCalls_trims, trimAssistantTextToFloor_trims⟩

variable {state next : RecoveryPromptState}

/-- A pass reads one field and has nothing to do once that is small enough. -/
theorem Shrinks.nothingLeft (h : Shrinks checkpoint.completedCalls.length state next)
    (hpass : pass ∈ trimPasses checkpoint retryCallIds) (hnone : pass state = none) :
    pass next = none := by
  have hfloor : ∀ {floor}, trimAssistantTextToFloor floor state = none →
      trimAssistantTextToFloor floor next = none := by
    have hlength := h.durableContent
    simp only [trimAssistantTextToFloor, ite_eq_left_iff, reduceCtorEq, imp_false, not_not]
    omega
  simp only [trimPasses, mem_cons, not_mem_nil, or_false] at hpass
  rcases hpass with rfl | rfl | rfl | rfl | rfl | rfl | rfl | rfl
  · have hlength := h.resultLength
    simp only [trimResultLength, ite_eq_left_iff, reduceCtorEq, imp_false, not_not] at hnone ⊢
    omega
  · exact hfloor hnone
  · simp only [truncateTodoContents, ite_eq_right_iff, reduceCtorEq, imp_false, any_eq_true,
      not_exists, not_and] at hnone ⊢
    intro todo htodo hlong
    obtain ⟨old, hold, -, hkept⟩ := h.todoSnapshot todo htodo
    exact hnone old hold (hkept hlong)
  · simp only [dropCompletedTodos, ite_eq_left_iff, reduceCtorEq, imp_false, not_not,
      length_eq_zero_iff, filter_eq_nil_iff] at hnone ⊢
    intro todo htodo
    obtain ⟨old, hold, hstatus, -⟩ := h.todoSnapshot todo htodo
    rw [hstatus]
    exact hnone old hold
  · simp only [omitTodoSnapshot, ite_eq_left_iff, reduceCtorEq, imp_false, not_not,
      List.isEmpty_iff, eq_nil_iff_forall_not_mem] at hnone ⊢
    intro todo htodo
    obtain ⟨old, hold, -⟩ := h.todoSnapshot todo htodo
    exact hnone old hold
  · have hlimit := h.completedCallLimit
    simp only [reduceCompletedCallLimit, ite_eq_left_iff, reduceCtorEq, imp_false,
      not_not] at hnone ⊢
    omega
  · simp only [Generation.summarizeIncompleteCalls, ite_eq_left_iff, reduceCtorEq, imp_false,
      not_not, Bool.or_eq_true] at hnone ⊢
    exact hnone.imp_left h.summarizeIncompleteCalls
  · exact hfloor hnone

end Trims

/-- The passes come to a state that fits, whose context the prompt has, or to one that does not
fit and that none of them can change; only then the prompt goes without the context.  No pass
gives another something to do. -/
theorem recovery_context_kept_or_exhausted (checkpoint : TurnCheckpointPart)
    (retryCallIds : List Units) :
    (∀ earlier ∈ trimPasses checkpoint retryCallIds,
      ∀ later ∈ trimPasses checkpoint retryCallIds, ∀ state next,
        later state = some next → earlier state = none → earlier next = none) ∧
    ∃ state, Relation.ReflTransGen (Turn (trimPasses checkpoint retryCallIds))
        (initialPromptState checkpoint) state ∧
      (stateFits checkpoint retryCallIds state = true ∧
          recoveryPayload checkpoint retryCallIds =
            .withContext (render checkpoint retryCallIds state) ∨
        stateFits checkpoint retryCallIds state = false ∧
          (∀ pass ∈ trimPasses checkpoint retryCallIds, pass state = none) ∧
          recoveryPayload checkpoint retryCallIds = minimalPayload checkpoint retryCallIds) := by
  have hstable : ∀ earlier ∈ trimPasses checkpoint retryCallIds,
      ∀ later ∈ trimPasses checkpoint retryCallIds, ∀ state next,
        later state = some next → earlier state = none → earlier next = none :=
    fun _ hearlier _ hlater state next hturn hnone =>
      (trimPasses_trim hlater state next hturn).2.nothingLeft hearlier hnone
  refine ⟨hstable, ?_⟩
  cases hfits : stateFits checkpoint retryCallIds (initialPromptState checkpoint) with
  | true =>
    have htrimmed : trimmedState checkpoint retryCallIds = some (initialPromptState checkpoint) :=
      runPasses_of_accept hfits _ _
    exact ⟨_, .refl, .inl ⟨hfits, recoveryPayload_of_some htrimmed⟩⟩
  | false =>
    obtain ⟨state, hreaches, hend⟩ := runPasses_spec hfits
      (fun _ hpass state next hturn => (trimPasses_trim hpass state next hturn).1)
      (pairwise_of_forall_mem_list hstable)
    refine ⟨state, hreaches, hend.imp ?_ ?_⟩
    · rintro ⟨haccept, htrimmed⟩
      exact ⟨haccept, recoveryPayload_of_some htrimmed⟩
    · rintro ⟨hnot, htrimmed, hexhausted⟩
      exact ⟨hnot, hexhausted, recoveryPayload_of_none htrimmed⟩

end MangoStudio.Generation
