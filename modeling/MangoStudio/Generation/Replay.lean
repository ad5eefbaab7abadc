import MangoStudio.Generation.TurnEnd

/-!
# Replaying a conversation to a provider

`buildOpenAIResponsesReplay` and `buildChatCompletionsReplay` of
`apps/api/src/services/providers/core/replay-builder.ts`.  A provider refuses a
history in which a call has no result, or a result no call.

`Paired` says this of the items of one turn: every call is answered by a later item
of the turn, and every answer follows its call.  It holds of every turn whose parts
were finalised (`finalised_replays`), since each builder writes all calls of a turn
before all its results.
-/

namespace MangoStudio.Generation

open Conversation List

inductive TurnRole where
  | user
  | ai
  deriving DecidableEq, Repr

structure ChatTurnContext where
  role : TurnRole
  text : String
  parts : Option (List MessagePart) := none

/-- The parts of a turn that has any. -/
def ChatTurnContext.structured (turn : ChatTurnContext) : Option (List MessagePart) :=
  turn.parts.bind fun parts => if parts.isEmpty then none else some parts

def textOf (parts : List MessagePart) : String :=
  String.join <| parts.filterMap fun
    | .text prose _ => some prose
    | _ => none

def toolCallParts (parts : List MessagePart) : List ToolCallPart :=
  parts.filterMap fun
    | .toolCall part => some part
    | _ => none

def toolResultParts (parts : List MessagePart) : List ToolResultPart :=
  parts.filterMap fun
    | .toolResult part => some part
    | _ => none

/-- `JSON.stringify(part.args)`. -/
def argumentsText (call : ToolCallPart) : String := String.ofList call.args.render

/-! ## The Responses API -/

inductive MessageRole where
  | user
  | assistant
  deriving DecidableEq, Repr

def MessageRole.ofTurn : TurnRole → MessageRole
  | .user => .user
  | .ai => .assistant

inductive ResponsesItem where
  | message (role : MessageRole) (content : String)
  | functionCall (callId name arguments : String)
  | functionCallOutput (callId output : String)
  deriving DecidableEq, Repr

def responsesTurn (turn : ChatTurnContext) : List ResponsesItem :=
  match turn.structured, turn.role with
  | none, role => [.message (.ofTurn role) turn.text]
  | some _, .user => [.message .user turn.text]
  | some parts, .ai =>
    (if textOf parts = "" then [] else [.message .assistant (textOf parts)]) ++
      (toolCallParts parts).map (fun call =>
        .functionCall call.toolCallId call.name (argumentsText call)) ++
      (toolResultParts parts).map fun result =>
        .functionCallOutput result.toolCallId result.content

def buildOpenAIResponsesReplay (history : List ChatTurnContext) : List ResponsesItem :=
  history.flatMap responsesTurn

/-! ## Chat Completions -/

structure ChatToolCall where
  id : String
  name : String
  arguments : String
  deriving DecidableEq, Repr

inductive ChatMessage where
  | user (content : String)
  | assistant (content : Option String) (toolCalls : List ChatToolCall := [])
  | tool (toolCallId content : String)
  deriving DecidableEq, Repr

def chatTurn (turn : ChatTurnContext) : List ChatMessage :=
  match turn.structured, turn.role with
  | none, .ai => [.assistant (some turn.text)]
  | none, .user => [.user turn.text]
  | some _, .user => [.user turn.text]
  | some parts, .ai =>
    let textContent := if textOf parts = "" then none else some (textOf parts)
    if (toolCallParts parts).isEmpty then [.assistant (some (textContent.getD turn.text))]
    else
      .assistant textContent ((toolCallParts parts).map fun call =>
          ⟨call.toolCallId, call.name, argumentsText call⟩) ::
        (toolResultParts parts).map fun result => .tool result.toolCallId result.content

def buildChatCompletionsReplay (history : List ChatTurnContext) : List ChatMessage :=
  history.flatMap chatTurn

/-! ## Calls and answers -/

/-- The calls that an item makes, and the call that it answers. -/
class Answering (ι : Type) where
  calls : ι → List String
  answers : ι → Option String

instance : Answering ResponsesItem where
  calls
    | .functionCall callId _ _ => [callId]
    | _ => []
  answers
    | .functionCallOutput callId _ => some callId
    | _ => none

instance : Answering ChatMessage where
  calls
    | .assistant _ toolCalls => toolCalls.map (·.id)
    | _ => []
  answers
    | .tool toolCallId _ => some toolCallId
    | _ => none

open Answering

/-- Every call is answered later, and every answer follows its call. -/
def Paired {ι : Type} [Answering ι] (items : List ι) : Prop :=
  ∀ (i : Nat) (item : ι), items[i]? = some item →
    (∀ id ∈ calls item, ∃ j later, i < j ∧ items[j]? = some later ∧ answers later = some id) ∧
      ∀ id, answers item = some id →
        ∃ j earlier, j < i ∧ items[j]? = some earlier ∧ id ∈ calls earlier

section Paired

variable {ι : Type} [Answering ι]

theorem paired_append {front back : List ι} (hfront : front.filterMap answers = [])
    (hback : back.flatMap calls = [])
    (hids : ∀ id, id ∈ back.filterMap answers ↔ id ∈ front.flatMap calls) :
    Paired (front ++ back) := by
  intro i item hitem
  rcases Nat.lt_or_ge i front.length with hlt | hge
  · rw [List.getElem?_append_left hlt] at hitem
    have hmem := mem_of_getElem? hitem
    refine ⟨fun id hid => ?_, fun id hid => ?_⟩
    · obtain ⟨later, hlater, hanswer⟩ :=
        mem_filterMap.mp ((hids id).mpr (mem_flatMap.mpr ⟨item, hmem, hid⟩))
      obtain ⟨j, hj⟩ := mem_iff_getElem?.mp hlater
      refine ⟨front.length + j, later, by omega, ?_, hanswer⟩
      rw [List.getElem?_append_right (by omega), Nat.add_sub_cancel_left, hj]
    · rw [filterMap_eq_nil_iff.mp hfront item hmem] at hid
      cases hid
  · rw [List.getElem?_append_right hge] at hitem
    have hmem := mem_of_getElem? hitem
    refine ⟨fun id hid => ?_, fun id hid => ?_⟩
    · rw [flatMap_eq_nil_iff.mp hback item hmem] at hid
      cases hid
    · obtain ⟨earlier, hearlier, hcall⟩ :=
        mem_flatMap.mp ((hids id).mp (mem_filterMap.mpr ⟨item, hmem, hid⟩))
      obtain ⟨j, hj⟩ := mem_iff_getElem?.mp hearlier
      have hbound : j < front.length := (List.getElem?_eq_some_iff.mp hj).1
      refine ⟨j, earlier, by omega, ?_, hcall⟩
      rw [List.getElem?_append_left hbound, hj]

theorem paired_single {item : ι} (hcalls : calls item = []) (hanswers : answers item = none) :
    Paired [item] := by
  show Paired ([item] ++ [])
  exact paired_append (by simp [hanswers]) rfl (by simp [hcalls])

end Paired

/-! ## Finalised turns -/

/-- Every result names a call. -/
def ResultsNamed (parts : List MessagePart) : Prop :=
  ∀ id ∈ resultIds parts, id ∈ callIds parts

/-- The parts of an AI turn, if it has any, were finalised from parts whose results name their
calls. -/
def Finalised (turn : ChatTurnContext) : Prop :=
  turn.role = .ai → ∀ parts, turn.parts = some parts →
    ∃ before now, ResultsNamed before ∧ parts = finalizeParts before now

variable {parts : List MessagePart} {turn : ChatTurnContext}

theorem map_toolCallParts : (toolCallParts parts).map ToolCallPart.toolCallId = callIds parts := by
  rw [toolCallParts, map_filterMap, callIds]
  congr 1
  funext part
  cases part <;> rfl

theorem map_toolResultParts :
    (toolResultParts parts).map ToolResultPart.toolCallId = resultIds parts := by
  rw [toolResultParts, map_filterMap, resultIds]
  congr 1
  funext part
  cases part <;> rfl

theorem structured_some (h : turn.structured = some parts) : turn.parts = some parts := by
  obtain ⟨found, hfound, hsome⟩ := Option.bind_eq_some_iff.mp h
  split_ifs at hsome
  rw [hfound, Option.some.inj hsome]

/-- The calls of a finalised turn, and then its results. -/
theorem Finalised.paired_append {ι : Type} [Answering ι] {front back : List ι}
    (hturn : Finalised turn) (hrole : turn.role = .ai) (hstructured : turn.structured = some parts)
    (hfront : front.filterMap answers = []) (hback : back.flatMap calls = [])
    (hcalls : front.flatMap calls = callIds parts)
    (hanswers : back.filterMap answers = resultIds parts) : Paired (front ++ back) := by
  obtain ⟨before, now, hnamed, rfl⟩ := hturn hrole parts (structured_some hstructured)
  refine Generation.paired_append hfront hback fun id => ?_
  rw [hcalls, hanswers, mem_resultIds_finalizeParts, callIds_finalizeParts]
  exact ⟨fun h => h.elim (hnamed id) (fun hcall => hcall), .inr⟩

/-- The items of an AI turn with parts make its calls. -/
def MakesCalls {ι : Type} [Answering ι] (turn : ChatTurnContext) (block : List ι) : Prop :=
  turn.role = .ai → ∀ parts, turn.structured = some parts → block.flatMap calls = callIds parts

theorem responsesTurn_paired (hturn : Finalised turn) :
    Paired (responsesTurn turn) ∧ MakesCalls turn (responsesTurn turn) := by
  unfold responsesTurn MakesCalls
  cases hstructured : turn.structured with
  | none => exact ⟨paired_single rfl rfl, by simp⟩
  | some parts =>
    cases hrole : turn.role with
    | user => exact ⟨paired_single rfl rfl, by simp⟩
    | ai =>
      have hback : ((toolResultParts parts).map fun result => ResponsesItem.functionCallOutput
          result.toolCallId result.content).flatMap calls = [] := by
        simp [calls]
      have hcalls : ((if textOf parts = "" then [] else
          [ResponsesItem.message .assistant (textOf parts)]) ++ (toolCallParts parts).map fun call =>
          ResponsesItem.functionCall call.toolCallId call.name (argumentsText call)).flatMap calls =
            callIds parts := by
        rw [← map_toolCallParts]
        split_ifs <;> simp [calls, flatMap_map, ← map_eq_flatMap]
      refine ⟨hturn.paired_append hrole hstructured ?_ hback hcalls ?_, ?_⟩
      · split_ifs <;> simp [answers, filterMap_map]
      · simp [answers, filterMap_map, ← map_toolResultParts]
      · rintro - other ⟨⟩
        rw [flatMap_append, hcalls, hback, append_nil]

theorem chatTurn_paired (hturn : Finalised turn) :
    Paired (chatTurn turn) ∧ MakesCalls turn (chatTurn turn) := by
  unfold chatTurn MakesCalls
  cases hstructured : turn.structured with
  | none =>
    cases turn.role with
    | user | ai => exact ⟨paired_single rfl rfl, by simp⟩
  | some parts =>
    cases hrole : turn.role with
    | user => exact ⟨paired_single rfl rfl, by simp⟩
    | ai =>
      dsimp only
      by_cases hempty : (toolCallParts parts).isEmpty
      · rw [if_pos hempty]
        refine ⟨paired_single rfl rfl, ?_⟩
        rintro - other ⟨⟩
        rw [← map_toolCallParts, List.isEmpty_iff.mp hempty]
        rfl
      · rw [if_neg hempty]
        generalize (if textOf parts = "" then none else some (textOf parts)) = textContent
        have hback : ((toolResultParts parts).map fun result => ChatMessage.tool
            result.toolCallId result.content).flatMap calls = [] := by
          simp [calls]
        have hcalls : [ChatMessage.assistant textContent ((toolCallParts parts).map fun call =>
            ⟨call.toolCallId, call.name, argumentsText call⟩)].flatMap calls = callIds parts := by
          rw [← map_toolCallParts]
          simp [calls, Function.comp_def]
        refine ⟨hturn.paired_append hrole hstructured rfl hback hcalls ?_, ?_⟩
        · simp [answers, filterMap_map, ← map_toolResultParts]
        · rintro - other ⟨⟩
          rw [← singleton_append, flatMap_append, hcalls, hback, append_nil]

/-- Finalising closes what a turn left open and keeps the rest in order, and a history of
finalised turns is replayed turn by turn, with the calls of each turn paired with results. -/
theorem finalised_replays (parts : List MessagePart) (now : Nat) (history : List ChatTurnContext)
    (hhistory : ∀ turn ∈ history, Finalised turn) :
    (∀ id ∈ callIds parts, id ∉ resultIds parts →
      (resultIds (finalizeParts parts now)).count id = 1) ∧
    (∀ part ∈ finalizeParts parts now, isUnsettled part = false) ∧
    (∃ kept, List.Forall₂ (Reconciled (resultIds parts)) (mergeMessageParts parts) kept ∧
      finalizeParts parts now = kept ++ addedResults parts now) ∧
    (∃ blocks, buildOpenAIResponsesReplay history = blocks.flatten ∧
      List.Forall₂ (fun turn block => block = responsesTurn turn ∧ Paired block ∧
        MakesCalls turn block) history blocks) ∧
    ∃ blocks, buildChatCompletionsReplay history = blocks.flatten ∧
      List.Forall₂ (fun turn block => block = chatTurn turn ∧ Paired block ∧
        MakesCalls turn block) history blocks := by
  refine ⟨?_, ?_, ?_, ?_, ?_⟩
  · intro id hcall hnone
    rw [resultIds_finalizeParts, List.count_append, count_addedResults, if_pos ⟨hnone, hcall⟩,
      List.count_eq_zero.mpr hnone]
  · intro part hpart
    rw [finalizeParts_eq] at hpart
    rcases List.mem_append.mp hpart with hkept | hadded
    · obtain ⟨old, -, rfl⟩ := List.mem_map.mp hkept
      exact not_isUnsettled_reconcilePart _ _ old
    · obtain ⟨result, rfl⟩ := sealedResults_results _ _ part hadded
      rfl
  · refine ⟨_, ?_, finalizeParts_eq parts now⟩
    rw [List.forall₂_map_right_iff]
    exact List.forall₂_same.mpr fun part _ => reconcilePart_reconciled _ _ part
  · refine ⟨history.map responsesTurn, rfl, ?_⟩
    rw [List.forall₂_map_right_iff]
    exact List.forall₂_same.mpr fun turn hturn =>
      ⟨rfl, responsesTurn_paired (hhistory turn hturn)⟩
  · refine ⟨history.map chatTurn, rfl, ?_⟩
    rw [List.forall₂_map_right_iff]
    exact List.forall₂_same.mpr fun turn hturn => ⟨rfl, chatTurn_paired (hhistory turn hturn)⟩

/-- A turn that stopped inside a call, and its replay. -/
theorem finalised_replays_interrupted :
    let parts : List MessagePart :=
      [.text "On it." false, .toolCall ⟨"call", "write_file", .null, none⟩]
    let stored : ChatTurnContext := ⟨.ai, "On it.", some (finalizeParts parts 7)⟩
    ResultsNamed parts ∧ (∀ turn ∈ [stored], Finalised turn) ∧
      (resultIds (finalizeParts parts 7)).count "call" = 1 := by
  have hnamed : ResultsNamed
      [.text "On it." false, .toolCall ⟨"call", "write_file", .null, none⟩] :=
    fun id hid => absurd hid List.not_mem_nil
  have hturn : ∀ turn ∈ [(⟨.ai, "On it.", some (finalizeParts
      [.text "On it." false, .toolCall ⟨"call", "write_file", .null, none⟩] 7)⟩ :
        ChatTurnContext)], Finalised turn := by
    intro turn hmem
    rw [List.mem_singleton.mp hmem]
    rintro - parts hparts
    exact ⟨_, 7, hnamed, (Option.some.inj hparts).symm⟩
  refine ⟨hnamed, hturn, ?_⟩
  exact (finalised_replays _ 7 _ hturn).1 "call" (.head _) List.not_mem_nil

end MangoStudio.Generation
