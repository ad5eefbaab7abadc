import MangoStudio.Conversation.AgentStream
import MangoStudio.Conversation.MergeParts

/-!
# The live view of an internal turn against what is stored

The parts that the API accumulates for the events of a provider, and the parts
that a browser builds from the chunks of the same events, both merged.

* The two lists have the same runs of prose, the same transitions and the same
  tool calls by identifier and place.  They differ at most in what each call
  says: `storedCall` has the name of the completed call and arguments that are
  an object, and `liveCall` keeps the name of the start and takes any JSON value.
* So the two agree exactly if every completed call is named as it was when it
  started, and its arguments are an object or no JSON at all
  (`live_view_eq_stored_iff`).
-/

namespace MangoStudio.Conversation

open OrderedMap List

variable {parse : String → Option Json}

/-! ## What the events say about a call -/

def startOf : AgentEvent → Option (String × String)
  | .toolCallStarted callId name => some (callId, name.getD "")
  | _ => none

def completionOf : AgentEvent → Option (String × String × String)
  | .toolCallCompleted callId name argumentsText => some (callId, name, argumentsText)
  | _ => none

/-- The calls that start, with their names. -/
def starts (events : List AgentEvent) : OrderedMap String String := events.filterMap startOf

/-- The calls that are completed, with their names and arguments. -/
def completions (events : List AgentEvent) : OrderedMap String (String × String) :=
  events.filterMap completionOf

def isToolResult : AgentEvent → Bool
  | .toolResult _ _ _ _ => true
  | _ => false

/-- Every call starts once, and is completed at most once, after its start. -/
structure Paired (events : List AgentEvent) : Prop where
  started : ((starts events).map Prod.fst).Nodup
  completed : ((completions events).map Prod.fst).Nodup
  inOrder : ∀ before callId name argumentsText rest,
    events = before ++ .toolCallCompleted callId name argumentsText :: rest →
      callId ∈ (starts before).map Prod.fst
  noResults : ∀ event ∈ events, isToolResult event = false

/-- A call as the browser has it. -/
def liveCall (parse : String → Option Json) (events : List AgentEvent) (callId : String) :
    ToolCallPart where
  toolCallId := callId
  name := ((starts events).get callId).getD ""
  args :=
    match (completions events).get callId with
    | some (_, argumentsText) => parseToolArguments parse argumentsText
    | none => .obj []

/-- A call as the API has it. -/
def storedCall (parse : String → Option Json) (events : List AgentEvent) (callId : String) :
    ToolCallPart :=
  match (completions events).get callId with
  | some (name, argumentsText) =>
    { toolCallId := callId, name, args := parseToolArgs parse argumentsText }
  | none =>
    { toolCallId := callId, name := ((starts events).get callId).getD "", args := .obj [] }

theorem starts_concat (events : List AgentEvent) (event : AgentEvent) :
    starts (events ++ [event]) = starts events ++ (startOf event).toList := by
  unfold starts
  rw [filterMap_append]
  cases h : startOf event with
  | none | some => simp [h]

theorem completions_concat (events : List AgentEvent) (event : AgentEvent) :
    completions (events ++ [event]) = completions events ++ (completionOf event).toList := by
  grind [completions]

variable {events : List AgentEvent} {event : AgentEvent}

theorem Paired.init (h : Paired (events ++ [event])) : Paired events := by
  have hstarted := h.started
  have hcompleted := h.completed
  rw [starts_concat, map_append] at hstarted
  rw [completions_concat, map_append] at hcompleted
  refine ⟨(nodup_append.mp hstarted).1, (nodup_append.mp hcompleted).1, ?_, ?_⟩
  · grind [cases Paired]
  · exact fun other hmem => h.noResults other (mem_append_left _ hmem)

/-! ## Calls in a list of parts -/

def callId? : MessagePart → Option String
  | .toolCall call => some call.toolCallId
  | _ => none

def callIds (parts : List MessagePart) : List String := parts.filterMap callId?

/-- The parts with what each call says replaced. -/
def relabel (call : String → ToolCallPart) : MessagePart → MessagePart
  | .toolCall before => .toolCall (call before.toolCallId)
  | part => part

theorem leavesProse_relabel (call : String → ToolCallPart) : LeavesProse (relabel call) := by
  refine ⟨fun part hprose => ?_, fun part hsolid => ?_⟩
  · cases part with
    | toolCall before => cases hprose
    | _ => rfl
  · cases part with
    | text | thinking => cases hsolid
    | _ => rfl

theorem callIds_solid (parts : List MessagePart) : callIds (solidParts parts) = callIds parts := by
  unfold callIds solidParts
  rw [filterMap_filter]
  refine filterMap_congr fun part _ => ?_
  cases part with
  | _ => rfl

theorem callIds_merge (parts : List MessagePart) :
    callIds (mergeMessageParts parts) = callIds parts := by
  rw [← callIds_solid, solid_merge, callIds_solid]

theorem callIds_mergeInto (merged : List MessagePart) (part : MessagePart) :
    callIds (mergeInto merged part) = callIds (merged ++ [part]) := by
  rw [← callIds_solid, solid_mergeInto, callIds_solid]

theorem callIds_relabel {call : String → ToolCallPart}
    (h : ∀ callId, (call callId).toolCallId = callId) (parts : List MessagePart) :
    callIds (parts.map (relabel call)) = callIds parts := by
  unfold callIds
  rw [filterMap_map]
  refine filterMap_congr fun part _ => ?_
  cases part with
  | toolCall before => exact congrArg some (h before.toolCallId)
  | _ => rfl

variable {parts : List MessagePart}

theorem relabel_congr {first second : String → ToolCallPart}
    (h : ∀ callId ∈ callIds parts, first callId = second callId) :
    parts.map (relabel first) = parts.map (relabel second) := by
  refine map_congr_left fun part hpart => ?_
  cases part with
  | toolCall before =>
    exact congrArg MessagePart.toolCall (h _ (mem_filterMap.mpr ⟨_, hpart, rfl⟩))
  | _ => rfl

theorem relabel_inj {first second : String → ToolCallPart}
    (h : parts.map (relabel first) = parts.map (relabel second)) :
    ∀ callId ∈ callIds parts, first callId = second callId := by
  intro callId hmem
  obtain ⟨part, hpart, hid⟩ := mem_filterMap.mp hmem
  have hsame := map_inj_left.mp h part hpart
  cases part with
  | toolCall before =>
    obtain rfl := Option.some.inj hid
    exact MessagePart.toolCall.inj hsame
  | _ => cases hid

/-- The stored call after an event that completes it. -/
def upsertPart (next : ToolCallPart) : MessagePart → MessagePart
  | .toolCall current =>
    if current.toolCallId = next.toolCallId then .toolCall (current.upserted next)
    else .toolCall current
  | part => part

variable {part : MessagePart} {callId : String}

theorem isCall_iff :
    part.isCall callId = true ↔ callId? part = some callId := by
  cases part with
  | toolCall call =>
    show (call.toolCallId == callId) = true ↔ some call.toolCallId = some callId
    rw [beq_iff_eq, Option.some.injEq]
  | _ => exact ⟨fun h => (nomatch h), fun h => (nomatch h)⟩

variable {next : ToolCallPart}

theorem upsertPart_of_ne
    (h : callId? part ≠ some next.toolCallId) : upsertPart next part = part := by
  cases part with
  | toolCall call => exact if_neg fun heq => h (congrArg some heq)
  | _ => rfl

theorem upsertToolCallPart_new (h : next.toolCallId ∉ callIds parts) :
    upsertToolCallPart parts next = parts ++ [.toolCall next] := by
  have hnone : parts.findIdx? (MessagePart.isCall next.toolCallId) = none := by
    rw [findIdx?_eq_none_iff]
    intro part hpart
    refine Bool.eq_false_iff.mpr fun hcall => h ?_
    exact mem_filterMap.mpr ⟨part, hpart, isCall_iff.mp hcall⟩
  unfold upsertToolCallPart
  rw [hnone]

theorem map_upsertPart_of_notMem
    (h : next.toolCallId ∉ callIds parts) : parts.map (upsertPart next) = parts := by
  conv_rhs => rw [← map_id parts]
  refine map_congr_left fun part hpart => upsertPart_of_ne fun hid => h ?_
  exact mem_filterMap.mpr ⟨part, hpart, hid⟩

theorem upsertToolCallPart_known (hnodup : (callIds parts).Nodup)
    (h : next.toolCallId ∈ callIds parts) :
    upsertToolCallPart parts next = parts.map (upsertPart next) := by
  induction parts with
  | nil => cases h
  | cons part rest ih =>
    unfold upsertToolCallPart
    rw [findIdx?_cons]
    unfold callIds at hnodup h
    rw [filterMap_cons] at hnodup h
    by_cases hcall : part.isCall next.toolCallId = true
    · have hid := isCall_iff.mp hcall
      rw [hid] at hnodup
      rw [if_pos hcall, map_cons,
        map_upsertPart_of_notMem (nodup_cons.mp hnodup).1]
      cases part with
      | toolCall call =>
        show MessagePart.toolCall _ :: rest = (if _ then _ else _) :: rest
        rw [if_pos (Option.some.inj hid)]
      | _ => cases hid
    · have hid : callId? part ≠ some next.toolCallId := fun heq => hcall (isCall_iff.mpr heq)
      have hrest : (callIds rest).Nodup ∧ next.toolCallId ∈ callIds rest := by
        cases hpart : callId? part with
        | none =>
          rw [hpart] at hnodup h
          exact ⟨hnodup, h⟩
        | some other =>
          rw [hpart] at hnodup h hid
          refine ⟨(nodup_cons.mp hnodup).2, ?_⟩
          exact (mem_cons.mp h).resolve_left fun heq => hid (congrArg some heq.symm)
      grind [upsertPart_of_ne, upsertToolCallPart]

/-! ## Both sides -/

/-- The chunks of a turn on the screen. -/
def receiveChunks (parse : String → Option Json) (state : TextGenerationStreamState)
    (chunks : List StreamChunk) : TextGenerationStreamState :=
  chunks.foldl (reduceTextGenerationStreamChunk parse) state

/-- Both lists have the same runs and the same calls, and each call says what the
events so far make of it. -/
structure Tracks (parse : String → Option Json) (events : List AgentEvent)
    (stored live : List MessagePart) : Prop where
  runs : ∃ base, callIds base = (starts events).map Prod.fst ∧
    mergeMessageParts live = base.map (relabel (liveCall parse events)) ∧
    mergeMessageParts stored = base.map (relabel (storedCall parse events))
  unmarked : ∀ part ∈ live, isUnmarked part = true

theorem storedCall_toolCallId (parse : String → Option Json) (events : List AgentEvent)
    (callId : String) : (storedCall parse events callId).toolCallId = callId := by
  unfold storedCall
  split
  · rfl
  · rfl

variable {stored live : List MessagePart}

theorem Tracks.callIds
    (h : Tracks parse events stored live) : callIds stored = (starts events).map Prod.fst := by
  obtain ⟨base, hids, _, hstored⟩ := h.runs
  rw [← callIds_merge, hstored, callIds_relabel (storedCall_toolCallId parse events), hids]

theorem calls_of_other
    (hstart : startOf event = none) (hcompletion : completionOf event = none) :
    starts (events ++ [event]) = starts events ∧
      liveCall parse (events ++ [event]) = liveCall parse events ∧
      storedCall parse (events ++ [event]) = storedCall parse events := by
  grind [starts_concat, completions_concat, liveCall, storedCall]

section

variable (h : Tracks parse events stored live) (hstart : startOf event = none)
  (hcompletion : completionOf event = none)

include h hstart hcompletion

theorem Tracks.push (hpart : callId? part = none) {shown : List MessagePart}
    (hshown : mergeMessageParts shown = mergeMessageParts (live ++ [part]))
    (hunmarked : ∀ part ∈ shown, isUnmarked part = true) :
    Tracks parse (events ++ [event]) (stored ++ [part]) shown := by
  obtain ⟨hstarts, hlive, hstored⟩ := @calls_of_other parse events event hstart hcompletion
  obtain ⟨base, hids, hbaseLive, hbaseStored⟩ := h.runs
  have hfixed : ∀ call, relabel call part = part := by
    intro call
    cases part with
    | toolCall before => cases hpart
    | _ => rfl
  refine ⟨⟨mergeInto base part, ?_, ?_, ?_⟩, hunmarked⟩
  · rw [callIds_mergeInto, hstarts, ← hids]
    unfold Conversation.callIds
    rw [filterMap_append]
    simp [hpart]
  · rw [hshown, merge_concat, hbaseLive, hlive, ← mergeInto_map (leavesProse_relabel _), hfixed]
  · rw [merge_concat, hbaseStored, hstored, ← mergeInto_map (leavesProse_relabel _), hfixed]

theorem Tracks.same : Tracks parse (events ++ [event]) stored live := by
  obtain ⟨hstarts, hlive, hstored⟩ := @calls_of_other parse events event hstart hcompletion
  refine ⟨?_, h.unmarked⟩
  rw [hstarts, hlive, hstored]
  exact h.runs

end

theorem unmarked_concat (h : ∀ part ∈ parts, isUnmarked part = true)
    (hpart : isUnmarked part = true) : ∀ other ∈ parts ++ [part], isUnmarked other = true := by
  grind

theorem unmarked_appendTrailingText (h : ∀ part ∈ parts, isUnmarked part = true) (kind : ProseKind)
    (delta : String) :
    ∀ part ∈ appendTrailingText parts kind delta, isUnmarked part = true := by
  have hprose : isUnmarked (.ofProse kind delta) = true := by
    cases kind with
    | _ => rfl
  rcases eq_nil_or_concat parts with rfl | ⟨init, last, rfl⟩
  · exact unmarked_concat h hprose
  · rw [concat_eq_append] at h ⊢
    cases hgrown : last.appended kind delta with
    | none =>
      rw [appendTrailingText_opened hgrown]
      exact unmarked_concat h hprose
    | some grown =>
      rw [appendTrailingText_grown hgrown]
      refine unmarked_concat (fun part hmem => h part (mem_append_left _ hmem)) ?_
      have hlast := h last (mem_append_right _ (mem_singleton_self _))
      cases last with
      | text | thinking =>
        obtain ⟨_, rfl⟩ := Option.ite_some_none_eq_some.mp hgrown
        exact hlast
      | _ => cases hgrown

theorem Paired.started_of_completed (h : Paired events)
    (hmem : callId ∈ (completions events).map Prod.fst) :
    callId ∈ (starts events).map Prod.fst := by
  obtain ⟨⟨callId, name, argumentsText⟩, hcompletion, rfl⟩ := mem_map.mp hmem
  obtain ⟨event, hevent, hof⟩ := mem_filterMap.mp hcompletion
  cases event with
  | toolCallCompleted =>
    cases hof
    obtain ⟨before, rest, hevents⟩ := append_of_mem hevent
    grind [starts, cases Paired]
  | _ => cases hof

theorem calls_of_start {callId : String} {name : Option String}
    (hpaired : Paired (events ++ [.toolCallStarted callId name])) :
    callId ∉ (starts events).map Prod.fst ∧
      (∀ other ∈ (starts events).map Prod.fst,
        liveCall parse (events ++ [.toolCallStarted callId name]) other =
            liveCall parse events other ∧
          storedCall parse (events ++ [.toolCallStarted callId name]) other =
            storedCall parse events other) ∧
      liveCall parse (events ++ [.toolCallStarted callId name]) callId =
          { toolCallId := callId, name := name.getD "", args := .obj [] } ∧
      storedCall parse (events ++ [.toolCallStarted callId name]) callId =
          { toolCallId := callId, name := name.getD "", args := .obj [] } := by
  have hstarts := starts_concat events (.toolCallStarted callId name)
  have hcompletions : completions (events ++ [.toolCallStarted callId name]) =
      completions events := (completions_concat _ _).trans (append_nil _)
  have hnew : callId ∉ (starts events).map Prod.fst := by
    have hnodup := hpaired.started
    rw [hstarts, map_append] at hnodup
    intro hold
    exact (nodup_append.mp hnodup).2.2 callId hold callId (mem_singleton_self _) rfl
  have hopen : (completions events).get callId = none :=
    get_eq_none_iff.mpr fun hmem => hnew (hpaired.init.started_of_completed hmem)
  have hname : (starts (events ++ [.toolCallStarted callId name])).get callId =
      some (name.getD "") := by
    rw [hstarts, get_append, get_eq_none_iff.mpr hnew, Option.none_or]
    exact if_pos rfl
  grind [get_append, get_eq_none_iff, liveCall, storedCall]

theorem Tracks.start (h : Tracks parse events stored live) {name : Option String}
    (hpaired : Paired (events ++ [.toolCallStarted callId name])) :
    Tracks parse (events ++ [.toolCallStarted callId name])
      (upsertToolCallPart stored { toolCallId := callId, name := name.getD "", args := .obj [] })
      (live ++ [.toolCall { toolCallId := callId, name := name.getD "", args := .obj [] }]) := by
  obtain ⟨hnew, hold, hlive, hstored⟩ := @calls_of_start parse events callId name hpaired
  obtain ⟨base, hids, hbaseLive, hbaseStored⟩ := h.runs
  let call : ToolCallPart := { toolCallId := callId, name := name.getD "", args := .obj [] }
  have hstored' : callId ∉ Conversation.callIds stored := by
    rw [h.callIds]
    exact hnew
  rw [upsertToolCallPart_new hstored']
  refine ⟨⟨base ++ [.toolCall call], ?_, ?_, ?_⟩, unmarked_concat h.unmarked rfl⟩
  · rw [starts_concat, map_append, ← hids]
    unfold Conversation.callIds
    rw [filterMap_append]
    rfl
  · have hbase := relabel_congr fun other hmem => (hold other (hids ▸ hmem)).1
    rw [merge_concat, hbaseLive, map_append, map_singleton, hbase]
    show mergeInto _ (.toolCall call) = _ ++ [.toolCall (liveCall parse _ callId)]
    rw [hlive, mergeInto_solid rfl]
  · have hbase := relabel_congr fun other hmem => (hold other (hids ▸ hmem)).2
    rw [merge_concat, hbaseStored, map_append, map_singleton, hbase]
    show mergeInto _ (.toolCall call) = _ ++ [.toolCall (storedCall parse _ callId)]
    rw [hstored, mergeInto_solid rfl]

theorem parseToolArgs_obj (parse : String → Option Json) (argumentsText : String) :
    ∃ members, parseToolArgs parse argumentsText = .obj members := by
  unfold parseToolArgs safeJsonParse
  split_ifs
  · exact ⟨[], rfl⟩
  · split
    · exact ⟨_, rfl⟩
    · exact ⟨[], rfl⟩

theorem calls_of_completion {callId name argumentsText : String}
    (hpaired : Paired (events ++ [.toolCallCompleted callId name argumentsText])) :
    callId ∈ (starts events).map Prod.fst ∧
      (∀ other, liveCall parse (events ++ [.toolCallCompleted callId name argumentsText]) other =
        if other = callId then
          { liveCall parse events other with args := parseToolArguments parse argumentsText }
        else liveCall parse events other) ∧
      ∀ other, storedCall parse (events ++ [.toolCallCompleted callId name argumentsText]) other =
        if other = callId then
          (storedCall parse events other).upserted
            { toolCallId := callId, name, args := parseToolArgs parse argumentsText }
        else storedCall parse events other := by
  have hstarts : starts (events ++ [.toolCallCompleted callId name argumentsText]) =
      starts events := (starts_concat _ _).trans (append_nil _)
  have hcompletions := completions_concat events (.toolCallCompleted callId name argumentsText)
  have hopen : (completions events).get callId = none := by
    have hnodup := hpaired.completed
    rw [hcompletions, map_append] at hnodup
    refine get_eq_none_iff.mpr fun hold => ?_
    exact (nodup_append.mp hnodup).2.2 callId hold callId (mem_singleton_self _) rfl
  have hget : ∀ other,
      (completions (events ++ [.toolCallCompleted callId name argumentsText])).get other =
        if other = callId then some (name, argumentsText) else (completions events).get other := by
    intro other
    rw [hcompletions, get_append]
    by_cases hother : other = callId
    · rw [hother, hopen, Option.none_or, if_pos rfl]
      exact if_pos rfl
    · rw [if_neg hother]
      have hnone : get (completionOf (.toolCallCompleted callId name
          argumentsText)).toList other = none := if_neg (Ne.symm hother)
      rw [hnone, Option.or_none]
  refine ⟨hpaired.inOrder events callId name argumentsText [] rfl, fun other => ?_, fun other => ?_⟩
  · grind [liveCall]
  · by_cases hother : other = callId
    · obtain ⟨members, hmembers⟩ := parseToolArgs_obj parse argumentsText
      subst hother
      simp only [storedCall, hget, if_true, hopen, ToolCallPart.upserted, hmembers]
      cases members with
      | nil | cons => rfl
    · simp only [storedCall, hstarts, hget, if_neg hother]

/-- The browser's call after an event that completes it. -/
def completeLivePart (parse : String → Option Json) (callId argumentsText : String) :
    MessagePart → MessagePart
  | .toolCall call =>
    if call.toolCallId = callId then
      .toolCall { call with args := parseToolArguments parse argumentsText }
    else .toolCall call
  | part => part

theorem leavesProse_completeLivePart (parse : String → Option Json)
    (callId argumentsText : String) :
    LeavesProse (completeLivePart parse callId argumentsText) := by
  refine ⟨fun part hprose => ?_, fun part hsolid => ?_⟩
  · cases part with
    | toolCall call => cases hprose
    | _ => rfl
  · cases part with
    | toolCall call =>
      unfold completeLivePart
      dsimp only
      split_ifs
      · rfl
      · rfl
    | text | thinking => cases hsolid
    | _ => rfl

theorem leavesProse_upsertPart (next : ToolCallPart) : LeavesProse (upsertPart next) := by
  refine ⟨fun part hprose => ?_, fun part hsolid => ?_⟩
  · cases part with
    | toolCall call => cases hprose
    | _ => rfl
  · cases part with
    | toolCall call =>
      unfold upsertPart
      dsimp only
      split_ifs
      · rfl
      · rfl
    | text | thinking => cases hsolid
    | _ => rfl

theorem Tracks.complete (h : Tracks parse events stored live) {callId name argumentsText : String}
    (hpaired : Paired (events ++ [.toolCallCompleted callId name argumentsText])) :
    Tracks parse (events ++ [.toolCallCompleted callId name argumentsText])
      (upsertToolCallPart stored
        { toolCallId := callId, name, args := parseToolArgs parse argumentsText })
      (live.map (completeLivePart parse callId argumentsText)) := by
  obtain ⟨hknown, hlive, hstored⟩ :=
    @calls_of_completion parse events callId name argumentsText hpaired
  obtain ⟨base, hids, hbaseLive, hbaseStored⟩ := h.runs
  have hmem : callId ∈ Conversation.callIds stored := by
    rw [h.callIds]
    exact hknown
  have hnodup : (Conversation.callIds stored).Nodup := by
    rw [h.callIds]
    exact hpaired.init.started
  rw [upsertToolCallPart_known hnodup hmem]
  refine ⟨⟨base, ?_, ?_, ?_⟩, ?_⟩
  · rw [hids, starts_concat]
    exact congrArg (map Prod.fst) (append_nil _).symm
  · rw [merge_map (leavesProse_completeLivePart parse callId argumentsText), hbaseLive,
      map_map]
    refine map_congr_left fun part _ => ?_
    cases part with
    | toolCall before =>
      show (if before.toolCallId = callId then _ else _) = MessagePart.toolCall _
      rw [hlive]
      split_ifs
      · rfl
      · rfl
    | _ => rfl
  · rw [merge_map (leavesProse_upsertPart _), hbaseStored, map_map]
    refine map_congr_left fun part _ => ?_
    cases part with
    | toolCall before =>
      show (if (storedCall parse events before.toolCallId).toolCallId = callId then _ else _) =
        MessagePart.toolCall _
      rw [hstored, storedCall_toolCallId]
      split_ifs
      · rfl
      · rfl
    | _ => rfl
  · intro part hpart
    obtain ⟨before, hbefore, rfl⟩ := mem_map.mp hpart
    have hold := h.unmarked before hbefore
    cases before with
    | toolCall call =>
      unfold completeLivePart
      dsimp only
      split_ifs
      · rfl
      · rfl
    | _ => exact hold

theorem Tracks.step {session : StreamTextTurnSession} {state : TextGenerationStreamState}
    (h : Tracks parse events session.allParts state.parts) (hpaired : Paired (events ++ [event]))
    (loop : AgentLoopState) :
    let emission := emitAgentStreamEvent parse session loop event
    Tracks parse (events ++ [event]) emission.session.allParts
      (receiveChunks parse state emission.chunks).parts := by
  cases event with
  | reasoningDelta text =>
    by_cases hempty : text = ""
    · have hemit : emitAgentStreamEvent parse session loop (.reasoningDelta text) =
          ⟨session, loop, []⟩ := if_pos hempty
      rw [hemit]
      exact h.same rfl rfl
    · have hemit : emitAgentStreamEvent parse session loop (.reasoningDelta text) =
          { session := { session with allParts := session.allParts ++ [.thinking text] }
            loop := { loop with inThinkingSegment := true }
            chunks := (if loop.inThinkingSegment then [] else [.thinkingStart]) ++
              [.thinking text] } := if_neg hempty
      rw [hemit]
      cases loop.inThinkingSegment with
      | true =>
        exact h.push rfl rfl rfl (merge_appendTrailingText h.unmarked .thinking text)
          (unmarked_appendTrailingText h.unmarked .thinking text)
      | false =>
        have hopened := unmarked_concat h.unmarked (show isUnmarked (.thinking "") = true from rfl)
        refine h.push rfl rfl rfl ?_ (unmarked_appendTrailingText hopened .thinking text)
        show mergeMessageParts (appendTrailingText (state.parts ++ [.thinking ""]) .thinking text) = _
        rw [appendTrailingText_grown rfl, String.empty_append]
  | toolCallStarted callId name => exact h.start hpaired
  | toolCallArgumentsDelta callId delta =>
    have hsame : Tracks parse (events ++ [.toolCallArgumentsDelta callId delta]) session.allParts
        state.parts := h.same rfl rfl
    cases hcall : loop.pendingCalls.get callId with
    | none | some =>
      simp only [emitAgentStreamEvent, hcall]
      exact hsame
  | toolCallCompleted callId name argumentsText => exact h.complete hpaired
  | toolResult callId name result isError =>
    have hno := hpaired.noResults _ (mem_append_right _ (mem_singleton_self _))
    cases hno
  | assistantTextDelta text =>
    exact h.push rfl rfl rfl (merge_appendTrailingText h.unmarked .text text)
      (unmarked_appendTrailingText h.unmarked .text text)
  | continuationDegraded fromMode toMode reason reasonCode =>
    exact h.push rfl rfl rfl rfl (unmarked_concat h.unmarked rfl)

/-! ## Whole turns -/

theorem emitAll_concat (parse : String → Option Json) (session : StreamTextTurnSession)
    (loop : AgentLoopState) (events : List AgentEvent) (event : AgentEvent) :
    emitAll parse session loop (events ++ [event]) =
      let emission := emitAll parse session loop events
      let next := emitAgentStreamEvent parse emission.session emission.loop event
      { next with chunks := emission.chunks ++ next.chunks } := by
  unfold emitAll
  rw [foldl_append]
  rfl

theorem tracks_emitAll (providerType modelId : String) {events : List AgentEvent}
    (hpaired : Paired events) :
    let emission := emitAll parse { providerType, modelId } {} events
    Tracks parse events emission.session.allParts
      (receiveChunks parse {} emission.chunks).parts := by
  induction events using reverseRecOn with
  | nil => exact ⟨⟨[], rfl, rfl, rfl⟩, fun _ hmem => absurd hmem not_mem_nil⟩
  | append_singleton events event ih =>
    have hstep := (ih hpaired.init).step hpaired (emitAll parse { providerType, modelId } {} events).loop
    grind [emitAll_concat, receiveChunks]

/-- Every completed call has the name that it started with, and arguments that are an
object, or no JSON at all. -/
def PlainCompletions (parse : String → Option Json) (events : List AgentEvent) : Prop :=
  ∀ callId name argumentsText, .toolCallCompleted callId name argumentsText ∈ events →
    (∀ started, .toolCallStarted callId started ∈ events → started.getD "" = name) ∧
      ∀ value, parse argumentsText = some value → ∃ members, value = .obj members

theorem mem_starts {callId name : String} :
    (callId, name) ∈ starts events ↔
      ∃ started, .toolCallStarted callId started ∈ events ∧ started.getD "" = name := by
  unfold starts
  rw [mem_filterMap]
  constructor
  · rintro ⟨event, hevent, hof⟩
    cases event with
    | toolCallStarted other started =>
      obtain ⟨rfl, rfl⟩ := Prod.mk.inj (Option.some.inj hof)
      exact ⟨started, hevent, rfl⟩
    | _ => cases hof
  · rintro ⟨started, hevent, rfl⟩
    exact ⟨_, hevent, rfl⟩

theorem mem_completions {callId name argumentsText : String} :
    (callId, name, argumentsText) ∈ completions events ↔
      .toolCallCompleted callId name argumentsText ∈ events := by
  unfold completions
  rw [mem_filterMap]
  constructor
  · rintro ⟨event, hevent, hof⟩
    cases event with
    | toolCallCompleted => cases hof; exact hevent
    | _ => cases hof
  · intro hevent
    exact ⟨_, hevent, rfl⟩

theorem parseToolArguments_eq_iff (hparse : parse "" = none) (argumentsText : String) :
    parseToolArguments parse argumentsText = parseToolArgs parse argumentsText ↔
      ∀ value, parse argumentsText = some value → ∃ members, value = .obj members := by
  unfold parseToolArguments parseToolArgs safeJsonParse
  by_cases hempty : argumentsText = ""
  · rw [hempty, if_pos rfl, hparse]
    exact ⟨fun _ _ hvalue => (nomatch hvalue), fun _ => rfl⟩
  · rw [if_neg hempty]
    cases hvalue : parse argumentsText <;> grind

theorem calls_eq_iff (hparse : parse "" = none) (hpaired : Paired events) :
    (∀ callId ∈ (starts events).map Prod.fst,
      liveCall parse events callId = storedCall parse events callId) ↔
      PlainCompletions parse events := by
  constructor
  · intro hsame callId name argumentsText hevent
    have hmem := mem_completions.mpr hevent
    have hget := (OrderedMap.mem_iff_get hpaired.completed).mp hmem
    have hcall := hsame callId (hpaired.started_of_completed (mem_map.mpr ⟨_, hmem, rfl⟩))
    simp only [liveCall, storedCall, hget] at hcall
    refine ⟨fun started hstarted => ?_, ?_⟩
    · have hname := (OrderedMap.mem_iff_get hpaired.started).mp (mem_starts.mpr ⟨_, hstarted, rfl⟩)
      have heq := congrArg ToolCallPart.name hcall
      rw [hname] at heq
      exact heq
    · exact (parseToolArguments_eq_iff hparse argumentsText).mp (congrArg ToolCallPart.args hcall)
  · intro hplain callId hmem
    cases hget : (completions events).get callId with
    | none => simp only [liveCall, storedCall, hget]
    | some completion =>
      obtain ⟨name, argumentsText⟩ := completion
      have hevent := mem_completions.mp ((OrderedMap.mem_iff_get hpaired.completed).mpr hget)
      obtain ⟨hnamed, hobject⟩ := hplain callId name argumentsText hevent
      grind [mem_starts, OrderedMap.mem_iff_get, liveCall, storedCall, parseToolArguments_eq_iff,
          cases Paired]

/-- What a browser shows of an internal turn is what a reload shows, exactly if every
completed call is named as it was when it started, and its arguments are an object or no
JSON at all. -/
theorem live_view_eq_stored_iff (parse : String → Option Json) (hparse : parse "" = none)
    (providerType modelId : String) (events : List AgentEvent) (hpaired : Paired events) :
    let emission := emitAll parse { providerType, modelId } {} events
    let live := receiveChunks parse {} emission.chunks
    mergeMessageParts live.parts = mergeMessageParts emission.session.allParts ↔
      PlainCompletions parse events := by
  intro emission live
  obtain ⟨base, hids, hlive, hstored⟩ :=
    (@tracks_emitAll parse providerType modelId events hpaired).runs
  rw [hlive, hstored, ← calls_eq_iff hparse hpaired, ← hids]
  exact ⟨relabel_inj, relabel_congr⟩

/-! ## A turn that differs after a reload -/

/-- `JSON.parse` on the texts of the sample: an empty object. -/
def sampleParse (text : String) : Option Json :=
  if text = "\x7b\x7d" then some (.obj []) else none

def sampleCall (started : Option String) : List AgentEvent :=
  [.reasoningDelta "hm", .toolCallStarted "call-1" started,
    .toolCallCompleted "call-1" "read_file" "\x7b\x7d", .assistantTextDelta "done"]

theorem paired_sampleCall (started : Option String) : Paired (sampleCall started) := by
  refine ⟨nodup_singleton _, nodup_singleton _, ?_, ?_⟩
  · intro before callId name argumentsText rest hevents
    unfold sampleCall at hevents
    -- the completed call is the third of the four events
    rcases before with _ | ⟨first, _ | ⟨second, _ | ⟨third, _ | ⟨fourth, before⟩⟩⟩⟩
    · cases hevents
    · cases hevents
    · cases hevents
      exact mem_singleton_self _
    · cases hevents
    · simp at hevents
  · intro event hevent
    fin_cases hevent
    all_goals rfl

theorem live_view_eq_stored_iff_sampleCall :
    (mergeMessageParts (receiveChunks sampleParse {} (emitAll sampleParse
        { providerType := "openai", modelId := "m" } {} (sampleCall (some "read_file"))).chunks).parts =
      mergeMessageParts (emitAll sampleParse { providerType := "openai", modelId := "m" } {}
        (sampleCall (some "read_file"))).session.allParts) ↔
    PlainCompletions sampleParse (sampleCall (some "read_file")) :=
  live_view_eq_stored_iff sampleParse rfl "openai" "m" _ (paired_sampleCall _)

/-- A call that starts without a name keeps the empty name on the screen, and has its
name after a reload. -/
theorem live_view_ne_stored_unnamed :
    Paired (sampleCall none) ∧
      mergeMessageParts (receiveChunks sampleParse {} (emitAll sampleParse
          { providerType := "openai", modelId := "m" } {} (sampleCall none)).chunks).parts ≠
        mergeMessageParts (emitAll sampleParse { providerType := "openai", modelId := "m" } {}
          (sampleCall none)).session.allParts := by
  refine ⟨paired_sampleCall none, fun hsame => ?_⟩
  have hnames := congrArg (List.filterMap fun part =>
    match part with
    | .toolCall call => some call.name
    | _ => none) hsame
  revert hnames
  decide

end MangoStudio.Conversation
