import MangoStudio.Conversation.ExternalTranscript

/-!
# What the transcript holds on to

The references that the transcript keeps, against the parts they point to.  A
change by reference never changes which kind a part is of, nor the identifier
it goes by, so what the references say depends on the *shapes* of the parts
only.

`Linked` says that the activities and the approvals of the parts are those of
the two maps, each under its own identifier, and that the open phase is a
reasoning block.  It holds of every transcript in which no identifier is
started twice.
-/

namespace MangoStudio.Conversation

open List ExternalTurnTranscript

/-- The kind of a part, and the identifier that it goes by. -/
inductive PartShape where
  | text
  | thinking
  | activity (callId : String)
  | approval (requestId : String)
  | turn
  | other
  deriving DecidableEq

def MessagePart.shape : MessagePart → PartShape
  | .text _ _ => .text
  | .thinking _ _ _ => .thinking
  | .externalActivity activity => .activity activity.callId
  | .externalApproval approval => .approval approval.requestId
  | .externalTurn _ => .turn
  | _ => .other

/-- Changes that leave a part of the kind it is. -/
def KeepsShape (change : MessagePart → MessagePart) : Prop :=
  ∀ part, (change part).shape = part.shape

theorem shape_of_appended {kind : ProseKind} {delta : String} {part grown : MessagePart}
    (h : part.appended kind delta = some grown) : grown.shape = part.shape := by
  cases part with
  | text | thinking =>
    obtain ⟨_, rfl⟩ := Option.ite_some_none_eq_some.mp h
    rfl
  | _ => cases h

theorem keepsShape_appended (kind : ProseKind) (delta : String) :
    KeepsShape fun part => (part.appended kind delta).getD part := by
  intro part
  show ((part.appended kind delta).getD part).shape = part.shape
  cases hgrown : part.appended kind delta with
  | none => rfl
  | some grown => exact shape_of_appended hgrown

theorem keepsShape_markIncomplete : KeepsShape MessagePart.markIncomplete := by
  intro part
  cases part with
  | _ => rfl

theorem keepsShape_settleActivity (status : ExternalActivityStatus) :
    KeepsShape (MessagePart.settleActivity status) := by
  intro part
  cases part with
  | externalActivity activity =>
    unfold MessagePart.settleActivity
    dsimp only
    split_ifs
    · rfl
    · rfl
  | _ => rfl

namespace ExternalTurnTranscript

def shapes (transcript : ExternalTurnTranscript) : Objects PartShape :=
  transcript.objects.map fun object => (object.1, object.2.shape)

theorem refs_shapes (transcript : ExternalTurnTranscript) :
    transcript.shapes.refs = transcript.objects.refs := by
  unfold shapes Objects.refs
  rw [map_map]
  rfl

theorem shapes_mutate {change : MessagePart → MessagePart} (hchange : KeepsShape change)
    (transcript : ExternalTurnTranscript) (ref : Nat) :
    (transcript.mutate ref change).shapes = transcript.shapes := by
  unfold shapes mutate Objects.mutate
  rw [map_map]
  refine map_congr_left fun object _ => ?_
  show (fun object : Nat × MessagePart => (object.1, object.2.shape))
    (if object.1 = ref then (object.1, change object.2) else object) = _
  split_ifs
  · exact Prod.ext rfl (hchange object.2)
  · rfl

theorem shapes_push (transcript : ExternalTurnTranscript) (part : MessagePart) :
    (transcript.push part).shapes = transcript.shapes ++ [(transcript.nextRef, part.shape)] :=
  map_append

/-- What the maps and the open phase point to. -/
structure Linked (transcript : ExternalTurnTranscript) : Prop where
  nodup : transcript.objects.refs.Nodup
  fresh : ∀ ref ∈ transcript.objects.refs, 0 < ref ∧ ref < transcript.nextRef
  positive : 0 < transcript.nextRef
  calls : (transcript.activityByCallId.map Prod.fst).Nodup
  activities : ∀ callId ref, transcript.activityByCallId.get callId = some ref ↔
    (ref, PartShape.activity callId) ∈ transcript.shapes
  approvals : ∀ requestId ref, transcript.approvalByRequestId.get requestId = some ref ↔
    (ref, PartShape.approval requestId) ∈ transcript.shapes
  phase : ∀ ref, transcript.openThinking = some ref → (ref, PartShape.thinking) ∈ transcript.shapes
  turn : ∀ ref, (ref, PartShape.turn) ∉ transcript.shapes

variable {transcript : ExternalTurnTranscript}

theorem linked_create (targetId : ExternalAgentTargetId) (sessionId : String)
    (startedAt maxBytes maxEvents : Nat) :
    Linked (create targetId sessionId startedAt maxBytes maxEvents) where
  nodup := nodup_nil
  fresh := fun _ hmem => absurd hmem not_mem_nil
  positive := Nat.one_pos
  calls := nodup_nil
  activities := fun _ _ => ⟨fun h => (nomatch h), fun h => absurd h not_mem_nil⟩
  approvals := fun _ _ => ⟨fun h => (nomatch h), fun h => absurd h not_mem_nil⟩
  phase := fun _ h => by cases h
  turn := fun _ => not_mem_nil

theorem Linked.of_shapes (h : Linked transcript) {next : ExternalTurnTranscript}
    (hshapes : next.shapes = transcript.shapes) (href : next.nextRef = transcript.nextRef)
    (hactivities : next.activityByCallId = transcript.activityByCallId)
    (happrovals : next.approvalByRequestId = transcript.approvalByRequestId)
    (hphase : next.openThinking = transcript.openThinking ∨ next.openThinking = none) :
    Linked next := by
  have hrefs : next.objects.refs = transcript.objects.refs := by
    rw [← refs_shapes, hshapes, refs_shapes]
  constructor
  all_goals grind [cases Linked]

theorem Linked.mutate (h : Linked transcript) {change : MessagePart → MessagePart}
    (hchange : KeepsShape change) (ref : Nat) : Linked (transcript.mutate ref change) :=
  h.of_shapes (shapes_mutate hchange transcript ref) rfl rfl rfl (.inl rfl)

theorem Linked.grow (h : Linked transcript) {next : ExternalTurnTranscript} {shape : PartShape}
    (hshapes : next.shapes = transcript.shapes ++ [(transcript.nextRef, shape)])
    (href : next.nextRef = transcript.nextRef + 1)
    (hcalls : (next.activityByCallId.map Prod.fst).Nodup)
    (hactivities : ∀ callId ref, next.activityByCallId.get callId = some ref ↔
      transcript.activityByCallId.get callId = some ref ∨
        ref = transcript.nextRef ∧ shape = .activity callId)
    (happrovals : ∀ requestId ref, next.approvalByRequestId.get requestId = some ref ↔
      transcript.approvalByRequestId.get requestId = some ref ∨
        ref = transcript.nextRef ∧ shape = .approval requestId)
    (hphase : next.openThinking = transcript.openThinking) (hturn : shape ≠ .turn) :
    Linked next := by
  have hrefs : next.objects.refs = transcript.objects.refs ++ [transcript.nextRef] := by
    rw [← refs_shapes, hshapes, Objects.refs_append, refs_shapes]
  have hmem : ∀ ref found, (ref, found) ∈ next.shapes ↔
      (ref, found) ∈ transcript.shapes ∨ ref = transcript.nextRef ∧ shape = found := by
    intro ref found
    rw [hshapes, mem_append, mem_singleton, Prod.mk.injEq, eq_comm (a := found)]
  constructor
  all_goals grind [cases Linked]

theorem Linked.push (h : Linked transcript) {part : MessagePart}
    (hshape : part.shape = .text ∨ part.shape = .thinking ∨ part.shape = .other) :
    Linked (transcript.push part) := by
  have hplain : (∀ callId, part.shape ≠ .activity callId) ∧
      (∀ requestId, part.shape ≠ .approval requestId) ∧ part.shape ≠ .turn := by
    grind
  refine h.grow (shapes_push transcript part) rfl h.calls (fun callId ref => ?_) (fun requestId ref => ?_)
    rfl hplain.2.2
  · exact ⟨.inl, fun hor => hor.resolve_right fun hnew => hplain.1 callId hnew.2⟩
  · exact ⟨.inl, fun hor => hor.resolve_right fun hnew => hplain.2.1 requestId hnew.2⟩

theorem get_set_iff {map : OrderedMap String Nat} {key : String} (hkey : map.get key = none)
    (value : Nat) (other : String) (ref : Nat) :
    (map.set key value).get other = some ref ↔
      map.get other = some ref ∨ ref = value ∧ key = other := by
  grind [OrderedMap.get_set]

/-! ## Prose and phases -/

theorem Linked.extend (h : Linked transcript) (ref : Nat) (kind : ProseKind) (delta : String) :
    Linked (transcript.extend ref kind delta) :=
  h.mutate (keepsShape_appended kind delta) ref

theorem Linked.appendText (h : Linked transcript) (kind : ProseKind) (delta : String) :
    Linked (transcript.appendText kind delta) := by
  have hpush : Linked (transcript.push (.ofProse kind delta)) := by
    apply h.push
    cases kind with
    | text => exact .inl rfl
    | thinking => exact .inr (.inl rfl)
  grind [appendText, Linked.extend]

theorem Linked.appendReasoning (h : Linked transcript) (delta : String) :
    Linked (transcript.appendReasoning delta) := by
  grind [appendReasoning, Linked.extend, Linked.appendText]

theorem shape_unique (h : Linked transcript) {ref : Nat} {first second : PartShape}
    (hfirst : (ref, first) ∈ transcript.shapes) (hsecond : (ref, second) ∈ transcript.shapes) :
    first = second := by
  have hnodup : (transcript.shapes.map Prod.fst).Nodup := by
    have hrefs := h.nodup
    rw [← refs_shapes] at hrefs
    exact hrefs
  exact congrArg Prod.snd (inj_on_of_nodup_map hnodup hfirst hsecond rfl)

theorem shapes_remove (objects : Objects MessagePart) (ref : Nat) :
    (objects.remove ref).map (fun object => (object.1, object.2.shape)) =
      Objects.remove (objects.map fun object => (object.1, object.2.shape)) ref := by
  unfold Objects.remove
  rw [eraseP_map]
  rfl

theorem Linked.remove (h : Linked transcript) {ref : Nat}
    (hopen : transcript.openThinking = some ref) :
    Linked { transcript with
      openThinking := none, objects := transcript.objects.remove ref } := by
  have hphase := h.phase ref hopen
  have hshapes : shapes { transcript with
      openThinking := none, objects := transcript.objects.remove ref } =
      transcript.shapes.remove ref := shapes_remove transcript.objects ref
  have hkept : ∀ other shape, shape ≠ PartShape.thinking →
      ((other, shape) ∈ transcript.shapes.remove ref ↔ (other, shape) ∈ transcript.shapes) := by
    intro other shape hshape
    constructor
    · exact fun hmem => mem_of_mem_eraseP hmem
    · intro hmem
      have hother : other ≠ ref := fun heq => hshape (shape_unique h (heq ▸ hmem) hphase)
      exact (mem_eraseP_of_neg (by simpa using hother)).mpr hmem
  have hsub := Objects.refs_remove_sublist transcript.objects ref
  constructor
  all_goals grind [cases Linked]

theorem Linked.closeThinking (h : Linked transcript) : Linked transcript.closeThinking.1 := by
  unfold ExternalTurnTranscript.closeThinking
  cases hopen : transcript.openThinking with
  | none => exact h.of_shapes rfl rfl rfl rfl (.inr rfl)
  | some ref =>
    dsimp only
    split_ifs
    · exact h.remove hopen
    · exact h.of_shapes rfl rfl rfl rfl (.inr rfl)

theorem trailingThinking_mem {ref : Nat} (h : transcript.trailingThinking = some ref) :
    (ref, PartShape.thinking) ∈ transcript.shapes := by
  unfold trailingThinking at h
  split at h
  · rename_i last part hlast
    split_ifs at h with hthinking
    obtain rfl := Option.some.inj h
    have hshape : part.shape = .thinking := by
      cases part with
      | thinking => rfl
      | _ => cases hthinking
    rw [← hshape]
    exact mem_map_of_mem (f := fun object => (object.1, object.2.shape))
      (mem_of_getLast? hlast)
  · cases h

theorem Linked.open (h : Linked transcript) :
    Linked { transcript with openThinking := transcript.trailingThinking } :=
  ⟨h.nodup, h.fresh, h.positive, h.calls, h.activities, h.approvals, fun _ => trailingThinking_mem, h.turn⟩

/-! ## Activities and approvals -/

theorem keepsShape_activity {change : ExternalActivityPart → ExternalActivityPart}
    (hchange : ∀ activity, (change activity).callId = activity.callId) :
    KeepsShape (MessagePart.onActivity change) := by
  intro part
  cases part with
  | externalActivity activity => exact congrArg PartShape.activity (hchange activity)
  | _ => rfl

theorem keepsShape_approval {change : ExternalApprovalPart → ExternalApprovalPart}
    (hchange : ∀ approval, (change approval).requestId = approval.requestId) :
    KeepsShape (MessagePart.onApproval change) := by
  intro part
  cases part with
  | externalApproval approval => exact congrArg PartShape.approval (hchange approval)
  | _ => rfl

theorem Linked.updateActivity (h : Linked transcript)
    {change : ExternalActivityPart → ExternalActivityPart}
    (hchange : ∀ activity, (change activity).callId = activity.callId) (callId : String) :
    Linked (transcript.updateActivity callId change) := by
  unfold ExternalTurnTranscript.updateActivity
  split
  · exact h
  · exact h.mutate (keepsShape_activity hchange) _

theorem Linked.resolveApproval (h : Linked transcript) (requestId : String)
    (optionId : Option String) (source : ExternalDecisionSource) (now : Nat) :
    Linked (transcript.resolveApproval requestId optionId source now) := by
  grind [resolveApproval, Linked.mutate, keepsShape_approval]

/-! ## Frames -/

/-- A change of the objects that removes none and leaves the rest alone. -/
structure Grows (before after : ExternalTurnTranscript) : Prop where
  turnPart : after.turnPart = before.turnPart
  terminated : after.terminated = before.terminated
  text : after.text = before.text
  phase : after.openThinking = before.openThinking
  refs : ∃ added, after.objects.refs = before.objects.refs ++ added

section

variable (transcript : ExternalTurnTranscript)

theorem grows_mutate (ref : Nat) (change : MessagePart → MessagePart) :
    Grows transcript (transcript.mutate ref change) :=
  ⟨rfl, rfl, rfl, rfl, [], (Objects.refs_mutate _ _ _).trans (append_nil _).symm⟩

theorem grows_push (part : MessagePart) : Grows transcript (transcript.push part) :=
  ⟨rfl, rfl, rfl, rfl, [transcript.nextRef], Objects.refs_append _ _ _⟩

theorem grows_refl : Grows transcript transcript :=
  ⟨rfl, rfl, rfl, rfl, [], (append_nil _).symm⟩

theorem grows_appendText (kind : ProseKind) (delta : String) :
    Grows transcript (transcript.appendText kind delta) := by
  unfold appendText
  split
  · split_ifs
    · exact grows_mutate _ _ _
    · exact grows_push _ _
  · exact grows_push _ _

theorem grows_appendReasoning (delta : String) :
    Grows transcript (transcript.appendReasoning delta) := by
  unfold appendReasoning
  split
  · split_ifs
    · exact grows_mutate _ _ _
    · exact grows_appendText _ _ _
  · exact grows_appendText _ _ _

theorem grows_updateActivity (callId : String)
    (change : ExternalActivityPart → ExternalActivityPart) :
    Grows transcript (transcript.updateActivity callId change) := by
  unfold ExternalTurnTranscript.updateActivity
  split
  · exact grows_refl _
  · exact grows_mutate _ _ _

theorem grows_resolveApproval (requestId : String) (optionId : Option String)
    (source : ExternalDecisionSource) (now : Nat) :
    Grows transcript (transcript.resolveApproval requestId optionId source now) := by
  unfold resolveApproval
  split
  · exact grows_refl _
  · exact grows_mutate _ _ _

theorem closeThinking_frame :
    transcript.closeThinking.1.turnPart = transcript.turnPart ∧
      transcript.closeThinking.1.terminated = transcript.terminated ∧
      transcript.closeThinking.1.text = transcript.text ∧
      transcript.closeThinking.1.openThinking = none := by
  grind [closeThinking]

end

/-! ## Events -/

/-- Whether an event starts an activity or an approval that is known already. -/
def Restarts (transcript : ExternalTurnTranscript) : ExternalAgentEvent → Prop
  | .activityStarted callId _ => transcript.activityByCallId.get callId ≠ none
  | .approvalRequested request => transcript.approvalByRequestId.get request.requestId ≠ none
  | _ => False

/-- What an event does to the transcript before it may end the turn. -/
def record (transcript : ExternalTurnTranscript) (event : ExternalAgentEvent) (now : Nat) :
    ExternalTurnTranscript :=
  match event with
  | .completed => transcript
  | .error error => transcript.recordError error none
  | event => (transcript.applyEvent event now).1

/-- How an event ends the turn, if it does. -/
def ending (transcript : ExternalTurnTranscript) :
    ExternalAgentEvent → Option ExternalTurnTerminalReason
  | .completed => some (if transcript.vendorInterrupted then .interrupted else .completed)
  | .error _ => some .vendorError
  | _ => none

theorem applyEvent_eq (transcript : ExternalTurnTranscript) (event : ExternalAgentEvent)
    (now : Nat) :
    (transcript.applyEvent event now).1 =
      match transcript.ending event with
      | none => transcript.record event now
      | some reason => (transcript.record event now).finalize reason now := by
  cases event with
  | _ => rfl

variable {event : ExternalAgentEvent}

theorem Linked.record (h : Linked transcript) (hfresh : ¬ transcript.Restarts event) (now : Nat) :
    Linked (transcript.record event now) := by
  have hsame : ∀ next : ExternalTurnTranscript, next.shapes = transcript.shapes →
      next.nextRef = transcript.nextRef → next.activityByCallId = transcript.activityByCallId →
      next.approvalByRequestId = transcript.approvalByRequestId →
      next.openThinking = transcript.openThinking → Linked next :=
    fun next hshapes href hactivities happrovals hphase =>
      h.of_shapes hshapes href hactivities happrovals (.inl hphase)
  cases event with
  | textDelta text =>
    have hsaid : Linked { transcript with text := transcript.text ++ text } :=
      hsame _ rfl rfl rfl rfl rfl
    exact hsaid.appendText .text text
  | reasoningDelta text => exact h.appendReasoning text
  | reasoningStarted => exact (h.closeThinking.appendText .thinking "").open
  | reasoningEnded => exact h.closeThinking
  | activityStarted callId activity =>
    have hnone : transcript.activityByCallId.get callId = none := not_not.mp hfresh
    refine h.grow (shapes_push transcript _) rfl (OrderedMap.nodup_keys_set h.calls _ _)
      (fun other ref => ?_) (fun other ref => ?_) rfl (fun heq => nomatch heq)
    · refine (get_set_iff hnone _ other ref).trans (or_congr_right (and_congr_right fun _ => ?_))
      exact ⟨fun heq => congrArg PartShape.activity heq, fun heq => PartShape.activity.inj heq⟩
    · exact ⟨.inl, fun hor => hor.resolve_right fun hnew => nomatch hnew.2⟩
  | activityUpdated callId | activityCompleted callId =>
    refine Linked.updateActivity h ?_ callId
    exact fun _ => rfl
  | approvalRequested request =>
    have hnone : transcript.approvalByRequestId.get request.requestId = none := not_not.mp hfresh
    refine h.grow (shapes_push transcript _) rfl h.calls (fun other ref => ?_)
      (fun other ref => ?_) rfl (fun heq => nomatch heq)
    · exact ⟨.inl, fun hor => hor.resolve_right fun hnew => nomatch hnew.2⟩
    · refine (get_set_iff hnone _ other ref).trans (or_congr_right (and_congr_right fun _ => ?_))
      exact ⟨fun heq => congrArg PartShape.approval heq, fun heq => PartShape.approval.inj heq⟩
  | approvalResolved requestId decision => exact h.resolveApproval requestId _ decision.source now
  | notice notice => exact h.push (.inr (.inr rfl))
  | _ => exact hsame _ rfl rfl rfl rfl rfl

/-! ## The end of the turn -/

theorem finalize_terminated (transcript : ExternalTurnTranscript)
    (reason : ExternalTurnTerminalReason) (now : Nat) :
    (transcript.finalize reason now).terminated = true := by
  grind [finalize]

theorem finalize_reason (hrunning : transcript.terminated = false)
    (reason : ExternalTurnTerminalReason) (now : Nat) :
    (transcript.finalize reason now).turnPart.terminalReason = some reason := by
  unfold finalize
  rw [if_neg (ne_true_of_eq_false hrunning)]

theorem finalize_of_terminated (hterminated : transcript.terminated = true)
    (reason : ExternalTurnTerminalReason) (now : Nat) :
    transcript.finalize reason now = transcript :=
  if_pos hterminated

section

variable (hrunning : transcript.terminated = false) (haccepts : transcript.accepts event = true)
  (byteLengthOf : ExternalAgentEvent → Nat) (sequence now : Nat)

include hrunning haccepts

theorem apply_eq :
    (transcript.apply byteLengthOf event sequence now).1 =
      if (transcript.charge sequence now (byteLengthOf event)).budgetExceeded then
        ((transcript.charge sequence now (byteLengthOf event)).applyEvent event now).1.finalize
          .limitExceeded now
      else ((transcript.charge sequence now (byteLengthOf event)).applyEvent event now).1 := by
  grind [apply]

theorem apply_accepted :
    let recorded := (transcript.charge sequence now (byteLengthOf event)).record event now
    (transcript.apply byteLengthOf event sequence now).1 = recorded ∨
      ∃ reason, (transcript.apply byteLengthOf event sequence now).1 =
        recorded.finalize reason now := by
  grind [apply_eq, applyEvent_eq, finalize_of_terminated, finalize_terminated]

end

end ExternalTurnTranscript

end MangoStudio.Conversation
