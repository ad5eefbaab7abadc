import MangoStudio.Conversation.ShownParts

/-!
# The live view of an external turn against its transcript

The hub stores a turn as a transcript, and a browser rebuilds it from the
chunks of the same events.  Here the two are run side by side.

* `Mirrors` is the simulation: the live parts are the shown parts of the
  transcript, and the open phase is at the place of the object that the
  transcript holds on to.
* Each event keeps it (`Mirrors.record`), and so does the end of the turn
  (`Mirrors.finalize`).
* An event that ends the turn is recorded first, so the live view after the
  last chunk is what a reload shows (`live_view_eq_reload`), for any budget.
-/

namespace MangoStudio.Conversation

open ExternalTurnTranscript

variable {parse : String → Option Json} {transcript : ExternalTurnTranscript}
  {state : TextGenerationStreamState}

/-! ## The two sides -/

/-- The chunk that the hub sends for an event. -/
def eventChunk (targetId : ExternalAgentTargetId) (binding : ExternalTurnAccountBinding)
    (event : ExternalAgentEvent) : Option StreamChunk :=
  let remedy :=
    match event with
    | .error error => turnErrorRemedyFor targetId error
    | _ => none
  externalAgentEventToStreamChunk event binding remedy none

/-- The chunk of an event, if there is one, on the screen. -/
def receive (parse : String → Option Json) (state : TextGenerationStreamState) :
    Option StreamChunk → TextGenerationStreamState
  | some chunk => reduceTextGenerationStreamChunk parse state chunk
  | none => state

/-- The live view of a turn that is running. -/
structure Mirrors (transcript : ExternalTurnTranscript) (state : TextGenerationStreamState) :
    Prop where
  linked : Linked transcript
  active : transcript.turnPart.status = .active
  running : transcript.terminated = false
  text : state.text = transcript.text
  parts : state.parts = shownParts transcript.parts
  phase : transcript.PhaseAt state.openExternalThinkingIndex

theorem Mirrors.reduce (h : Mirrors transcript state) (chunk : StreamChunk) :
    reduceTextGenerationStreamChunk parse state chunk =
      reduceChunk parse state.clearChunkUpdates chunk := by
  grind [turnEnded_shown, reduceTextGenerationStreamChunk, cases Mirrors]

variable {next : ExternalTurnTranscript}

theorem Mirrors.received (h : Mirrors transcript state) {chunk : StreamChunk}
    (hnext : Mirrors next (reduceChunk parse state.clearChunkUpdates chunk)) :
    Mirrors next (receive parse state (some chunk)) := by
  show Mirrors next (reduceTextGenerationStreamChunk parse state chunk)
  rw [h.reduce]
  exact hnext

theorem Mirrors.grow (h : Mirrors transcript state) {shown : TextGenerationStreamState}
    (hgrows : Grows transcript next) (hlinked : Linked next)
    (hparts : shown.parts = shownParts next.parts) (htext : shown.text = state.text)
    (hphase : shown.openExternalThinkingIndex = state.openExternalThinkingIndex) :
    Mirrors next shown := by
  refine ⟨hlinked, ?_, ?_, ?_, hparts, ?_⟩
  all_goals grind [PhaseAt.grow, cases Grows, cases Mirrors]

/-! ## Events -/

section

variable (h : Mirrors transcript state)

include h

theorem Mirrors.turn {turn : ExternalTurnPart} {shown : TextGenerationStreamState}
    (hactive : turn.status = .active)
    (hparts : shown.parts = shownParts { transcript with turnPart := turn }.parts)
    (htext : shown.text = state.text)
    (hphase : shown.openExternalThinkingIndex = state.openExternalThinkingIndex) :
    Mirrors { transcript with turnPart := turn } shown := by
  refine ⟨h.linked.of_shapes rfl rfl rfl rfl (.inl rfl), hactive, h.running, ?_, hparts, ?_⟩
  · rw [htext]
    exact h.text
  · rw [hphase]
    exact h.phase

theorem Mirrors.closed :
    Mirrors transcript.closeThinking.1
      { state with
        parts := (closeThinkingAt state.parts state.openExternalThinkingIndex).1
        openExternalThinkingIndex := none } := by
  have hparts := (close_agrees h.linked h.phase).1
  have hframe := closeThinking_frame transcript
  refine ⟨h.linked.closeThinking, ?_, ?_, ?_, ?_, ?_⟩
  all_goals grind [PhaseAt, cases Mirrors]

theorem Mirrors.reasoningEnded (now : Nat) :
    Mirrors (transcript.record .reasoningEnded now) (reduceExternalReasoningEnded state) :=
  have hclosed := h.closed
  ⟨hclosed.linked, hclosed.active, hclosed.running, hclosed.text, hclosed.parts, hclosed.phase⟩

theorem Mirrors.reasoningStarted (now : Nat) :
    Mirrors (transcript.record .reasoningStarted now) (reduceExternalReasoningStarted state) := by
  have hclosed := h.closed
  have hgrows := grows_appendText transcript.closeThinking.1 .thinking ""
  have hparts : (reduceExternalReasoningStarted state).parts =
      shownParts (transcript.closeThinking.1.appendText .thinking "").parts := by
    show appendTrailingText (closeThinkingAt _ _).1 .thinking "" = _
    rw [shown_appendText hclosed.linked, ← hclosed.parts]
  refine ⟨(hclosed.linked.appendText .thinking "").open, ?_, ?_, ?_, hparts, ?_⟩
  · exact (congrArg ExternalTurnPart.status hgrows.turnPart).trans hclosed.active
  · exact hgrows.terminated.trans hclosed.running
  · exact hclosed.text.trans hgrows.text.symm
  · show PhaseAt _ (some ((reduceExternalReasoningStarted state).parts.length - 1))
    have hlength : (reduceExternalReasoningStarted state).parts.length =
        (transcript.closeThinking.1.appendText .thinking "").parts.length := by
      rw [hparts]
      exact List.length_map _
    rw [hlength]
    exact phaseAt_last transcript.closeThinking.1 ""

end

theorem reduceExternalReasoning_frame (state : TextGenerationStreamState) (delta : String) :
    (reduceExternalReasoning state delta).text = state.text ∧
      (reduceExternalReasoning state delta).openExternalThinkingIndex =
        state.openExternalThinkingIndex := by
  unfold reduceExternalReasoning
  split
  · split
    · split_ifs
      · exact ⟨rfl, rfl⟩
      · exact ⟨rfl, rfl⟩
    · exact ⟨rfl, rfl⟩
  · exact ⟨rfl, rfl⟩

variable {event : ExternalAgentEvent}

theorem Mirrors.record (h : Mirrors transcript state) (hfresh : ¬ transcript.Restarts event)
    (haccepts : transcript.accepts event = true) (binding : ExternalTurnAccountBinding)
    (now : Nat) :
    Mirrors (transcript.record event now)
      (receive parse state (eventChunk transcript.turnPart.targetId binding event)) := by
  have hlinked := h.linked.record hfresh now
  have hclear : Mirrors transcript state.clearChunkUpdates :=
    ⟨h.linked, h.active, h.running, h.text, h.parts, h.phase⟩
  cases event with
  | sessionStarted | completed => exact h
  | commandsAvailable | threadUsage | accountLimits => cases haccepts
  | textDelta text =>
    refine h.received ?_
    have hsaid : Mirrors { transcript with text := transcript.text ++ text }
        { state.clearChunkUpdates with text := state.text ++ text } :=
      ⟨h.linked.of_shapes rfl rfl rfl rfl (.inl rfl), h.active, h.running,
        congrArg (· ++ text) h.text, h.parts, h.phase⟩
    refine hsaid.grow (grows_appendText _ _ _) hlinked ?_ rfl rfl
    show appendTrailingText state.parts .text text = _
    rw [h.parts]
    exact (shown_appendText hsaid.linked .text text).symm
  | reasoningDelta text =>
    refine h.received ?_
    refine h.grow (grows_appendReasoning _ _) hlinked
      (shown_appendReasoning h.linked h.phase text h.parts rfl) ?_ ?_
    · exact (reduceExternalReasoning_frame state.clearChunkUpdates text).1
    · exact (reduceExternalReasoning_frame state.clearChunkUpdates text).2
  | reasoningStarted =>
    refine h.received ?_
    exact hclear.reasoningStarted now
  | reasoningEnded =>
    refine h.received ?_
    exact hclear.reasoningEnded now
  | activityStarted callId activity =>
    refine h.received ?_
    refine h.grow ⟨rfl, rfl, rfl, rfl, _, Objects.refs_append _ _ _⟩ hlinked ?_ rfl rfl
    refine Eq.trans ?_ (shown_push transcript _).symm
    show state.parts ++ [MessagePart.externalActivity
      { targetId := externalTargetId state.parts, callId, name := activity.name,
        kind := activity.kind, title := activity.title, detail := activity.detail,
        status := .running, truncated := activity.truncated }] = _
    rw [h.parts]
    rfl
  | activityUpdated callId | activityCompleted callId =>
    refine h.received ?_
    refine h.grow (grows_updateActivity transcript callId _) hlinked ?_ rfl rfl
    show updateExternalActivity state.parts callId _ = _
    rw [h.parts]
    exact (shown_updateActivity h.linked callId _).symm
  | approvalRequested request =>
    refine h.received ?_
    have hunknown := approval_unknown h.linked (not_not.mp hfresh)
    rw [← h.parts] at hunknown
    have hreduce : reduceExternalApprovalRequest state.clearChunkUpdates request =
        state.clearChunkUpdates.withParts (state.parts ++ [MessagePart.externalApproval
          { targetId := externalTargetId state.parts, requestId := request.requestId,
            kind := request.kind, title := request.title, detail := request.detail,
            options := request.options, expiresAtMs := request.expiresAtMs,
            truncated := request.truncated }]) :=
      if_neg (ne_true_of_eq_false hunknown)
    show Mirrors _ (reduceExternalApprovalRequest state.clearChunkUpdates request)
    rw [hreduce]
    refine h.grow ⟨rfl, rfl, rfl, rfl, _, Objects.refs_append _ _ _⟩ hlinked ?_ rfl rfl
    refine Eq.trans ?_ (shown_push transcript _).symm
    show state.parts ++ [_] = _
    rw [h.parts]
    rfl
  | approvalResolved requestId decision =>
    refine h.received ?_
    exact h.grow (grows_resolveApproval _ _ _ _ _) hlinked
      (shown_resolveApproval h.linked requestId decision now hclear.parts) rfl rfl
  | usage | error =>
    refine h.received ?_
    refine h.turn h.active ?_ rfl rfl
    show updateExternalTurn state.parts _ = _
    rw [h.parts, updateExternalTurn_shown h.linked _ rfl]
    rfl
  | notice notice =>
    refine h.received ?_
    have hroom : canAddExternalNotice state.parts = true := by
      rw [h.parts, canAddExternalNotice_shown]
      exact haccepts
    show Mirrors _ (if canAddExternalNotice state.parts then _ else _)
    rw [if_pos hroom]
    refine h.grow (grows_push _ _) hlinked ?_ rfl rfl
    show state.parts ++ [_] = _
    rw [h.parts]
    exact (shown_push transcript (.externalNotice notice)).symm
  | cancelled => exact ⟨hlinked, h.active, h.running, h.text, h.parts, h.phase⟩

theorem Mirrors.ignored (h : Mirrors transcript state) (hrefused : transcript.accepts event = false)
    (targetId : ExternalAgentTargetId) (binding : ExternalTurnAccountBinding) :
    Mirrors transcript (receive parse state (eventChunk targetId binding event)) := by
  have hclear : Mirrors transcript state.clearChunkUpdates :=
    ⟨h.linked, h.active, h.running, h.text, h.parts, h.phase⟩
  cases event with
  | commandsAvailable | accountLimits =>
    refine h.received ?_
    exact hclear
  | threadUsage usage =>
    refine h.received ?_
    exact ⟨h.linked, h.active, h.running, h.text, h.parts, h.phase⟩
  | notice notice =>
    refine h.received ?_
    have hfull : ¬ canAddExternalNotice state.parts = true := by
      rw [h.parts, canAddExternalNotice_shown]
      exact ne_true_of_eq_false hrefused
    show Mirrors _ (if canAddExternalNotice state.parts then _ else _)
    rw [if_neg hfull]
    exact hclear
  | _ => cases hrefused

/-! ## The end -/

theorem Mirrors.finalize (h : Mirrors transcript state) (reason : ExternalTurnTerminalReason)
    (now : Nat) :
    (reduceTextGenerationStreamChunk parse state (.externalTurnCompleted reason)).parts =
        shownParts (transcript.finalize reason now).parts ∧
      state.text = (transcript.finalize reason now).text := by
  rw [h.reduce]
  have hclosed := h.closed
  have hagrees := close_agrees h.linked h.phase
  rw [← h.parts] at hagrees
  show updateExternalTurn (List.map _ (if reason = .completed then
    (closeThinkingAt state.parts state.openExternalThinkingIndex).1 else
      markIncompleteAt (closeThinkingAt state.parts state.openExternalThinkingIndex).1
        (closeThinkingAt state.parts state.openExternalThinkingIndex).2)) _ = _ ∧ _
  grind [finalize, shown_ended, shown_markIncomplete, markIncomplete_frame, Linked.markIncomplete,
      cases Mirrors]

/-! ## Whole turns -/

/-- An event with its number and its time. -/
structure Arrival where
  event : ExternalAgentEvent
  sequence : Nat
  now : Nat

def startedCall : ExternalAgentEvent → Option String
  | .activityStarted callId _ => some callId
  | _ => none

def requestedApproval : ExternalAgentEvent → Option String
  | .approvalRequested request => some request.requestId
  | _ => none

/-- The transcript after a list of events. -/
def applyAll (byteLengthOf : ExternalAgentEvent → Nat) (transcript : ExternalTurnTranscript)
    (arrivals : List Arrival) : ExternalTurnTranscript :=
  arrivals.foldl (fun transcript arrival =>
    (transcript.apply byteLengthOf arrival.event arrival.sequence arrival.now).1) transcript

/-- The events up to the one that ends the turn. -/
def appliedEvents (byteLengthOf : ExternalAgentEvent → Nat) :
    ExternalTurnTranscript → List Arrival → List ExternalAgentEvent
  | _, [] => []
  | transcript, arrival :: rest =>
    if transcript.terminated then []
    else
      arrival.event :: appliedEvents byteLengthOf
        (transcript.apply byteLengthOf arrival.event arrival.sequence arrival.now).1 rest

/-- The events of a turn on the screen. -/
def receiveAll (parse : String → Option Json) (targetId : ExternalAgentTargetId)
    (binding : ExternalTurnAccountBinding) (state : TextGenerationStreamState)
    (events : List ExternalAgentEvent) : TextGenerationStreamState :=
  events.foldl (fun state event => receive parse state (eventChunk targetId binding event)) state

/-- The transcript of a session that has just opened. -/
def openTranscript (session : ExternalStreamSession) (startedAt maxBytes maxEvents : Nat) :
    ExternalTurnTranscript :=
  let created := create session.targetId session.sessionId startedAt maxBytes maxEvents
  match session.conversationReset with
  | some reason => created.markConversationReset reason
  | none => created

/-- What an event leaves alone: the vendor of the turn, and the identifiers that
it does not start. -/
structure Keeps (event : ExternalAgentEvent) (before after : ExternalTurnTranscript) : Prop where
  targetId : after.turnPart.targetId = before.turnPart.targetId
  calls : ∀ callId, startedCall event ≠ some callId →
    after.activityByCallId.get callId = before.activityByCallId.get callId
  requests : ∀ requestId, requestedApproval event ≠ some requestId →
    after.approvalByRequestId.get requestId = before.approvalByRequestId.get requestId

/-- The turn's record, and the two maps. -/
def links (transcript : ExternalTurnTranscript) :
    ExternalTurnPart × OrderedMap String Nat × OrderedMap String Nat :=
  (transcript.turnPart, transcript.activityByCallId, transcript.approvalByRequestId)

section

variable (transcript : ExternalTurnTranscript)

theorem links_appendText (kind : ProseKind) (delta : String) :
    links (transcript.appendText kind delta) = links transcript := by
  unfold appendText
  split
  · split_ifs
    · rfl
    · rfl
  · rfl

theorem links_appendReasoning (delta : String) :
    links (transcript.appendReasoning delta) = links transcript := by
  unfold appendReasoning
  split
  · split_ifs
    · rfl
    · exact links_appendText _ _ _
  · exact links_appendText _ _ _

theorem links_closeThinking : links transcript.closeThinking.1 = links transcript := by
  grind [closeThinking, links]

theorem links_updateActivity (callId : String)
    (change : ExternalActivityPart → ExternalActivityPart) :
    links (transcript.updateActivity callId change) = links transcript := by
  unfold updateActivity
  split
  · rfl
  · rfl

theorem links_resolveApproval (requestId : String) (optionId : Option String)
    (source : ExternalDecisionSource) (now : Nat) :
    links (transcript.resolveApproval requestId optionId source now) = links transcript := by
  unfold resolveApproval
  split
  · rfl
  · rfl

end

theorem keeps_of_links {before after : ExternalTurnTranscript}
    (h : links after = links before) : Keeps event before after := by
  obtain ⟨hturn, hmaps⟩ := Prod.mk.inj h
  obtain ⟨hcalls, hrequests⟩ := Prod.mk.inj hmaps
  refine ⟨congrArg _ hturn, fun callId _ => ?_, fun requestId _ => ?_⟩
  · rw [hcalls]
  · rw [hrequests]

theorem keeps_record (transcript : ExternalTurnTranscript) (event : ExternalAgentEvent)
    (now : Nat) : Keeps event transcript (transcript.record event now) := by
  cases event with
  | textDelta text => exact keeps_of_links (links_appendText _ .text text)
  | reasoningDelta text => exact keeps_of_links (links_appendReasoning transcript text)
  | reasoningStarted =>
    exact keeps_of_links ((links_appendText transcript.closeThinking.1 .thinking "").trans
      (links_closeThinking transcript))
  | reasoningEnded => exact keeps_of_links (links_closeThinking transcript)
  | activityStarted callId activity =>
    refine ⟨rfl, fun other hother => ?_, fun _ _ => rfl⟩
    refine (OrderedMap.get_set _ _ _ _).trans (if_neg fun heq => hother ?_)
    exact congrArg some heq.symm
  | activityUpdated callId | activityCompleted callId =>
    exact keeps_of_links (links_updateActivity _ callId _)
  | approvalRequested request =>
    refine ⟨rfl, fun _ _ => rfl, fun other hother => ?_⟩
    refine (OrderedMap.get_set _ _ _ _).trans (if_neg fun heq => hother ?_)
    exact congrArg some heq.symm
  | approvalResolved requestId decision =>
    exact keeps_of_links (links_resolveApproval _ requestId _ decision.source now)
  | _ => exact ⟨rfl, fun _ _ => rfl, fun _ _ => rfl⟩

/-- The identifiers that a list of events starts are new, and are started once. -/
structure Fresh (transcript : ExternalTurnTranscript) (events : List ExternalAgentEvent) :
    Prop where
  calls : (events.filterMap startedCall).Nodup
  requests : (events.filterMap requestedApproval).Nodup
  newCalls : ∀ callId ∈ events.filterMap startedCall,
    transcript.activityByCallId.get callId = none
  newRequests : ∀ requestId ∈ events.filterMap requestedApproval,
    transcript.approvalByRequestId.get requestId = none

variable {rest : List ExternalAgentEvent}

theorem Fresh.not_restarts
    (h : Fresh transcript (event :: rest)) : ¬ transcript.Restarts event := by
  cases event with
  | activityStarted callId activity =>
    exact not_not.mpr (h.newCalls callId (List.mem_cons_self ..))
  | approvalRequested request =>
    exact not_not.mpr (h.newRequests request.requestId (List.mem_cons_self ..))
  | _ => exact id

theorem nodup_filterMap_cons {κ α : Type} {f : α → Option κ} {first : α} {rest : List α}
    (h : ((first :: rest).filterMap f).Nodup) :
    (rest.filterMap f).Nodup ∧ ∀ key ∈ rest.filterMap f, f first ≠ some key := by
  grind

theorem Fresh.step (h : Fresh transcript (event :: rest)) (hkeeps : Keeps event transcript next) :
    Fresh next rest := by
  obtain ⟨hcalls, hother⟩ := nodup_filterMap_cons h.calls
  obtain ⟨hrequests, hotherRequest⟩ := nodup_filterMap_cons h.requests
  refine ⟨hcalls, hrequests, fun callId hmem => ?_, fun requestId hmem => ?_⟩
  all_goals grind [cases Keeps, cases Fresh]

theorem Mirrors.charge (h : Mirrors transcript state) (sequence now bytes : Nat) :
    Mirrors (transcript.charge sequence now bytes) state :=
  h.turn h.active h.parts rfl rfl

theorem Mirrors.apply (h : Mirrors transcript state) {arrival : Arrival}
    (hfresh : Fresh transcript (arrival.event :: rest)) (byteLengthOf : ExternalAgentEvent → Nat)
    (binding : ExternalTurnAccountBinding) :
    let next := (transcript.apply byteLengthOf arrival.event arrival.sequence arrival.now).1
    let shown := receive parse state (eventChunk transcript.turnPart.targetId binding arrival.event)
    (Mirrors next shown ∧ Keeps arrival.event transcript next) ∨
      ∃ recorded reason, next = recorded.finalize reason arrival.now ∧ Mirrors recorded shown := by
  intro next shown
  cases haccepts : transcript.accepts arrival.event with
  | false =>
    have hnext : next = transcript := by
      grind [apply]
    rw [hnext]
    exact .inl ⟨h.ignored haccepts _ binding, rfl, fun _ _ => rfl, fun _ _ => rfl⟩
  | true =>
    have hcharged := h.charge arrival.sequence arrival.now (byteLengthOf arrival.event)
    have hrecorded : Mirrors _ shown :=
      hcharged.record hfresh.not_restarts haccepts binding arrival.now
    rcases apply_accepted h.running haccepts byteLengthOf arrival.sequence arrival.now with
      hnext | ⟨reason, hnext⟩
    · refine .inl ⟨?_, ?_⟩
      · rw [← hnext] at hrecorded
        exact hrecorded
      · show Keeps _ _ (ExternalTurnTranscript.apply _ _ _ _ _).1
        rw [hnext]
        have hkeeps := keeps_record
          (transcript.charge arrival.sequence arrival.now (byteLengthOf arrival.event))
          arrival.event arrival.now
        exact ⟨hkeeps.targetId, hkeeps.calls, hkeeps.requests⟩
    · exact .inr ⟨_, reason, hnext, hrecorded⟩

section

variable (byteLengthOf : ExternalAgentEvent → Nat) (hterminated : transcript.terminated = true)
  (arrivals : List Arrival)

include hterminated

theorem applyAll_of_terminated : applyAll byteLengthOf transcript arrivals = transcript := by
  induction arrivals <;> grind [apply, applyAll]

theorem appliedEvents_of_terminated : appliedEvents byteLengthOf transcript arrivals = [] := by
  cases arrivals with
  | nil => rfl
  | cons arrival rest => exact if_pos hterminated

end

theorem Mirrors.applyAll (byteLengthOf : ExternalAgentEvent → Nat)
    (binding : ExternalTurnAccountBinding) {arrivals : List Arrival}
    (h : Mirrors transcript state) (hfresh : Fresh transcript (arrivals.map Arrival.event)) :
    let stored := applyAll byteLengthOf transcript arrivals
    let shown := receiveAll parse transcript.turnPart.targetId binding state
      (appliedEvents byteLengthOf transcript arrivals)
    Mirrors stored shown ∨
      ∃ recorded reason now, stored = recorded.finalize reason now ∧ Mirrors recorded shown := by
  induction arrivals generalizing transcript state with
  | nil => exact .inl h
  | cons arrival rest ih =>
    have hevents : appliedEvents byteLengthOf transcript (arrival :: rest) =
        arrival.event :: appliedEvents byteLengthOf
          (transcript.apply byteLengthOf arrival.event arrival.sequence arrival.now).1 rest :=
      if_neg (ne_true_of_eq_false h.running)
    rw [hevents]
    rcases h.apply hfresh byteLengthOf binding with ⟨hnext, hkeeps⟩ | ⟨recorded, reason, hnext, hend⟩
    · have hrest := ih hnext (hfresh.step hkeeps)
      rw [hkeeps.targetId] at hrest
      exact hrest
    · refine .inr ⟨recorded, reason, arrival.now, ?_, ?_⟩
      · show applyAll byteLengthOf (transcript.apply _ _ _ _).1 rest = _
        rw [hnext]
        exact applyAll_of_terminated _ (finalize_terminated _ _ _) rest
      · rw [hnext, appliedEvents_of_terminated _ (finalize_terminated _ _ _)]
        exact hend

section

variable (session : ExternalStreamSession) (startedAt maxBytes maxEvents : Nat)

theorem mirrors_open :
    Mirrors (openTranscript session startedAt maxBytes maxEvents)
      (reduceTextGenerationStreamChunk parse {} (externalSessionStartedChunk session)) := by
  unfold openTranscript
  cases hreset : session.conversationReset with
  | none =>
    refine ⟨linked_create _ _ _ _ _, rfl, rfl, rfl, ?_, rfl⟩
    show [MessagePart.externalTurn _] = _
    rw [hreset]
    rfl
  | some reason =>
    have hcreated := linked_create session.targetId session.sessionId startedAt maxBytes maxEvents
    refine ⟨hcreated.of_shapes rfl rfl rfl rfl (.inl rfl), rfl, rfl, rfl, ?_, rfl⟩
    show [MessagePart.externalTurn _] = _
    rw [hreset]
    rfl

theorem openTranscript_eq :
    links (openTranscript session startedAt maxBytes maxEvents) =
      ({ targetId := session.targetId, sessionId := session.sessionId, status := .active,
         conversationReset := session.conversationReset, startedAt, updatedAt := startedAt },
        [], []) := by
  unfold openTranscript
  cases session.conversationReset with
  | none | some => rfl

end

/-- What a browser shows at the end of an external turn is what a reload of the
stored transcript shows, if no activity and no approval is started twice.  The
budgets may be any: a turn that they end is settled in the same way. -/
theorem live_view_eq_reload (parse : String → Option Json)
    (byteLengthOf : ExternalAgentEvent → Nat) (session : ExternalStreamSession)
    (binding : ExternalTurnAccountBinding) (startedAt maxBytes maxEvents : Nat)
    (arrivals : List Arrival) (reason : ExternalTurnTerminalReason) (endedAt : Nat)
    (hcalls : ((arrivals.map Arrival.event).filterMap startedCall).Nodup)
    (hrequests : ((arrivals.map Arrival.event).filterMap requestedApproval).Nodup) :
    let opened := openTranscript session startedAt maxBytes maxEvents
    let stored := (applyAll byteLengthOf opened arrivals).finalize reason endedAt
    let announced := reduceTextGenerationStreamChunk parse {} (externalSessionStartedChunk session)
    let streamed := receiveAll parse session.targetId binding announced
      (appliedEvents byteLengthOf opened arrivals)
    ∃ ended, stored.turnPart.terminalReason = some ended ∧
      let live := reduceTextGenerationStreamChunk parse streamed (externalTurnCompletedChunk ended)
      live.text = stored.text ∧ shownParts live.parts = shownParts stored.parts := by
  intro opened stored announced streamed
  obtain ⟨hturn, hmaps⟩ := Prod.mk.inj (openTranscript_eq session startedAt maxBytes maxEvents)
  obtain ⟨hnoCalls, hnoRequests⟩ := Prod.mk.inj hmaps
  have htarget : opened.turnPart.targetId = session.targetId := congrArg _ hturn
  have hfresh : Fresh opened (arrivals.map Arrival.event) := by
    refine ⟨hcalls, hrequests, fun callId _ => ?_, fun requestId _ => ?_⟩
    · rw [hnoCalls]
      rfl
    · rw [hnoRequests]
      rfl
  have hopened : Mirrors opened announced := mirrors_open session startedAt maxBytes maxEvents
  have hrun := @Mirrors.applyAll parse _ _ byteLengthOf binding arrivals hopened hfresh
  rw [htarget] at hrun
  -- in both cases the transcript is ended once, and the screen has seen all but the last chunk
  obtain ⟨recorded, ended, now, hstored, hmirrors⟩ :
      ∃ recorded ended now, stored = recorded.finalize ended now ∧ Mirrors recorded streamed := by
    rcases hrun with hrunning | ⟨recorded, ended, now, hended, hmirrors⟩
    · exact ⟨_, reason, endedAt, rfl, hrunning⟩
    · refine ⟨recorded, ended, now, ?_, hmirrors⟩
      show ExternalTurnTranscript.finalize _ reason endedAt = _
      rw [hended]
      exact finalize_of_terminated (finalize_terminated _ _ _) _ _
  have hagrees := @Mirrors.finalize parse _ _ hmirrors ended now
  refine ⟨ended, ?_, ?_, ?_⟩
  · rw [hstored]
    exact finalize_reason hmirrors.running ended now
  · rw [hstored, ← hagrees.2, hmirrors.reduce]
    rfl
  · rw [hstored]
    exact (congrArg shownParts hagrees.1).trans (shownParts_idem _)

/-- A turn with a phase that stays empty, an activity, an approval, a notice and an
interrupt. -/
def sampleArrivals : List Arrival :=
  [⟨.textDelta "Looking", 1, 11⟩,
    ⟨.reasoningStarted, 2, 12⟩,
    ⟨.activityStarted "call-1" { name := "shell", kind := .command, title := "ls" }, 3, 13⟩,
    ⟨.reasoningEnded, 4, 14⟩,
    ⟨.approvalRequested
      { requestId := "ask-1", kind := .command, title := "rm",
        options := [{ id := "allow", isDestructive := true }], expiresAtMs := 900 }, 5, 15⟩,
    ⟨.approvalResolved "ask-1" ⟨"allow", .user⟩, 6, 16⟩,
    ⟨.notice { severity := .info, title := "Compacting" }, 7, 17⟩,
    ⟨.cancelled, 8, 18⟩,
    ⟨.completed, 9, 19⟩]

def sampleSession : ExternalStreamSession :=
  { sessionId := "s", targetId := .codex, resumed := true, conversationReset := some .unavailable }

theorem live_view_eq_reload_sample :
    let opened := openTranscript sampleSession 10 4096 64
    let stored := (applyAll (fun _ => 1) opened sampleArrivals).finalize .sessionLost 20
    let announced := reduceTextGenerationStreamChunk (fun _ => none) {}
      (externalSessionStartedChunk sampleSession)
    let streamed := receiveAll (fun _ => none) .codex ⟨none⟩ announced
      (appliedEvents (fun _ => 1) opened sampleArrivals)
    ∃ ended, stored.turnPart.terminalReason = some ended ∧
      let live := reduceTextGenerationStreamChunk (fun _ => none) streamed
        (externalTurnCompletedChunk ended)
      live.text = stored.text ∧ shownParts live.parts = shownParts stored.parts :=
  live_view_eq_reload (fun _ => none) (fun _ => 1) sampleSession ⟨none⟩ 10 4096 64 sampleArrivals
    .sessionLost 20 (by decide) (by decide)

end MangoStudio.Conversation
