import MangoStudio.Conversation.LiveView
import MangoStudio.Conversation.TranscriptLinks

/-!
# The parts of the transcript as a browser shows them

Each operation of the transcript, which goes by reference, against the
operation of the live view on the parts that are shown, which goes by index or
by identifier.

* `MessagePart.shown` is a part without what only the hub can know: times,
  counters and the vendor's name of the turn.
* Prose grows at the same place (`shown_appendText`, `shown_appendReasoning`),
  and a phase closes in the same way (`close_agrees`).
* An activity or an approval that is found by its identifier is the one that
  the transcript holds on to (`shown_updateActivity`, `shown_resolveApproval`).
* `Grows` is the frame of the operations that remove nothing.
-/

namespace MangoStudio.Conversation

open MessagePart ExternalTurnTranscript Objects List

/-! ## What both sides show -/

def MessagePart.shown : MessagePart → MessagePart
  | .externalTurn turn =>
    .externalTurn { turn with
      nativeTurnId := none, startedAt := 0, updatedAt := 0, lastSequence := 0, eventCount := 0,
      persistedBytes := 0 }
  | .externalApproval approval => .externalApproval { approval with resolvedAt := none }
  | part => part

/-- The parts of a message as both sides show them. -/
def shownParts (parts : List MessagePart) : List MessagePart := parts.map MessagePart.shown

theorem shownParts_idem (parts : List MessagePart) :
    shownParts (shownParts parts) = shownParts parts := by
  unfold shownParts
  rw [map_map]
  refine map_congr_left fun part _ => ?_
  cases part with
  | _ => rfl

theorem isNotice_shown (part : MessagePart) : part.shown.isNotice = part.isNotice := by
  cases part with
  | _ => rfl

theorem appended_shown (kind : ProseKind) (delta : String) (part : MessagePart) :
    part.shown.appended kind delta = (part.appended kind delta).map MessagePart.shown := by
  cases part with
  | text | thinking =>
    show (if _ then _ else _) = Option.map _ (if _ then _ else _)
    split_ifs
    · rfl
    · rfl
  | _ => rfl

theorem markIncomplete_shown (part : MessagePart) :
    part.markIncomplete.shown = part.shown.markIncomplete := by
  cases part with
  | _ => rfl

theorem settleActivity_shown (status : ExternalActivityStatus) (part : MessagePart) :
    (part.settleActivity status).shown = part.shown.settleActivity status := by
  cases part with
  | externalActivity activity =>
    show MessagePart.shown (if _ then _ else _) = if _ then _ else _
    split_ifs
    · rfl
    · rfl
  | _ => rfl

theorem canAddExternalNotice_shown (parts : List MessagePart) :
    canAddExternalNotice (shownParts parts) = canAddExternalNotice parts := by
  unfold canAddExternalNotice shownParts
  rw [countP_map]
  simp only [Function.comp_def, isNotice_shown]

theorem lastContentIndex_shown (parts : List MessagePart) :
    lastContentIndex (shownParts parts) = lastContentIndex parts := by
  unfold lastContentIndex shownParts
  rw [length_map]
  congr 1
  funext index
  rw [List.getElem?_map]
  cases parts[index]? with
  | none => rfl
  | some part => exact congrArg (!·) (isNotice_shown part)

/-! ## Operations by reference and by index -/

namespace ExternalTurnTranscript

variable {transcript : ExternalTurnTranscript}

theorem shownParts_eq (transcript : ExternalTurnTranscript) :
    shownParts transcript.parts =
      (externalTurn transcript.turnPart).shown :: shownParts transcript.objects.values :=
  rfl

theorem shown_push (transcript : ExternalTurnTranscript) (part : MessagePart) :
    shownParts (transcript.push part).parts = shownParts transcript.parts ++ [part.shown] := by
  rw [shownParts_eq, shownParts_eq]
  show _ :: shownParts (values (transcript.objects ++ [(transcript.nextRef, part)])) = _
  rw [values_append]
  exact congrArg (_ :: ·) map_append

theorem shown_ofProse (kind : ProseKind) (delta : String) :
    (ofProse kind delta).shown = .ofProse kind delta := by
  cases kind with
  | _ => rfl

theorem shown_appendText (h : Linked transcript) (kind : ProseKind) (delta : String) :
    shownParts (transcript.appendText kind delta).parts =
      appendTrailingText (shownParts transcript.parts) kind delta := by
  unfold appendText
  rcases eq_nil_or_concat transcript.objects with hnil | ⟨init, ⟨ref, last⟩, hobjects⟩
  · rw [hnil]
    show shownParts (transcript.push _).parts = _
    rw [shown_push, shown_ofProse, shownParts_eq, hnil]
    rfl
  · rw [concat_eq_append] at hobjects
    have hparts : shownParts transcript.parts =
        ((externalTurn transcript.turnPart).shown ::
          shownParts (values init)) ++ [last.shown] := by
      rw [shownParts_eq, hobjects, values_append]
      exact congrArg (_ :: ·) map_append
    have hlast : transcript.objects.getLast? = some (ref, last) := by
      rw [hobjects, getLast?_concat]
    simp only [hlast]
    cases hgrown : last.appended kind delta with
    | none =>
      have hshown : last.shown.appended kind delta = none := by
        rw [appended_shown, hgrown]
        rfl
      rw [Option.isSome_none, if_neg Bool.false_ne_true, shown_push, shown_ofProse, hparts,
        appendTrailingText_opened hshown]
    | some grown =>
      have hshown : last.shown.appended kind delta = some grown.shown := by
        rw [appended_shown, hgrown]
        rfl
      have hfresh : ref ∉ Objects.refs init := by
        have hnodup := h.nodup
        rw [hobjects, refs_append, ← concat_eq_append, nodup_concat] at hnodup
        exact hnodup.1
      rw [Option.isSome_some, if_pos rfl, hparts, appendTrailingText_grown hshown]
      show _ :: shownParts (values (transcript.objects.mutate ref
        fun part => (part.appended kind delta).getD part)) = _
      rw [hobjects, mutate_concat hfresh, values_append, hgrown]
      exact congrArg (_ :: ·) map_append

/-- The open phase is at an index of the parts. -/
def PhaseAt (transcript : ExternalTurnTranscript) (index : Option Nat) : Prop :=
  match transcript.openThinking with
  | none => index = none
  | some ref => ∃ place, index = some (place + 1) ∧ transcript.objects.refs[place]? = some ref

theorem nodup_refs (h : Linked transcript) : transcript.refs.Nodup :=
  nodup_cons.mpr ⟨fun hmem => absurd (h.fresh 0 hmem).1 (Nat.lt_irrefl 0), h.nodup⟩

variable {ref place : Nat}

theorem trailing_iff (h : Linked transcript) (hplace : transcript.objects.refs[place]? = some ref) :
    transcript.trailing = some ref ↔
      lastContentIndex (shownParts transcript.parts) = some (place + 1) := by
  have hat : transcript.refs[place + 1]? = some ref := hplace
  unfold trailing
  rw [lastContentIndex_shown]
  cases lastContentIndex transcript.parts with
  | none => exact ⟨fun heq => (nomatch heq), fun heq => (nomatch heq)⟩
  | some index =>
    rw [Option.bind_some, Option.some.injEq]
    constructor
    · intro hindex
      have hlt : index < transcript.refs.length := (List.getElem?_eq_some_iff.mp hindex).1
      exact (List.getElem?_inj hlt (nodup_refs h)).mp (hindex.trans hat.symm)
    · rintro rfl
      exact hat

theorem shownParts_modify {change shown : MessagePart → MessagePart}
    (hchange : ∀ part, (change part).shown = shown part.shown) (parts : List MessagePart)
    (index : Nat) :
    shownParts (parts.modify index change) = (shownParts parts).modify index shown := by
  unfold shownParts
  apply ext_getElem?
  intro other
  rw [List.getElem?_map, List.getElem?_modify, List.getElem?_modify, List.getElem?_map]
  cases parts[other]? with
  | none => rfl
  | some part =>
    show some (MessagePart.shown (if index = other then change part else part)) =
      some (if index = other then shown part.shown else part.shown)
    split_ifs
    · rw [hchange]
    · rfl

section

variable (h : Linked transcript) (hplace : transcript.objects.refs[place]? = some ref)

include h hplace

theorem shown_mutate_at {change shown : MessagePart → MessagePart}
    (hchange : ∀ part, (change part).shown = shown part.shown) :
    shownParts (transcript.mutate ref change).parts =
      (shownParts transcript.parts).modify (place + 1) shown := by
  rw [shownParts_eq, shownParts_eq, modify_succ_cons]
  show _ :: shownParts (transcript.objects.mutate ref change).values = _
  rw [values_mutate_at hplace h.nodup, shownParts_modify hchange]
  rfl

theorem shown_extend (kind : ProseKind) (delta : String) :
    shownParts (transcript.extend ref kind delta).parts =
      (shownParts transcript.parts).modify (place + 1) fun part =>
        (part.appended kind delta).getD part := by
  refine shown_mutate_at h hplace fun part => ?_
  rw [appended_shown]
  cases part.appended kind delta with
  | none | some => rfl

theorem shown_at :
    (shownParts transcript.parts)[place + 1]? =
      (transcript.objects.find ref).map MessagePart.shown := by
  rw [find_at hplace h.nodup, shownParts_eq, List.getElem?_cons_succ, shownParts,
    List.getElem?_map]

theorem shown_remove :
    shownParts { transcript with
        openThinking := none, objects := transcript.objects.remove ref }.parts =
      (shownParts transcript.parts).eraseIdx (place + 1) := by
  rw [shownParts_eq, shownParts_eq, eraseIdx_cons_succ]
  show _ :: shownParts (transcript.objects.remove ref).values = _
  rw [values_remove_at hplace h.nodup]
  unfold shownParts
  rw [eraseIdx_map]

end

theorem phase_isSome (h : Linked transcript) {ref : Nat}
    (hopen : transcript.openThinking = some ref) :
    ∃ prose redacted incomplete,
      transcript.objects.find ref = some (.thinking prose redacted incomplete) := by
  obtain ⟨⟨other, part⟩, hmem, hshape⟩ := mem_map.mp (h.phase ref hopen)
  obtain ⟨rfl, hthinking⟩ := Prod.mk.inj hshape
  cases part with
  | thinking prose redacted incomplete =>
    exact ⟨prose, redacted, incomplete, find_of_mem h.nodup hmem⟩
  | _ => cases hthinking

variable {index : Option Nat}

theorem shown_appendReasoning (h : Linked transcript) (hphase : transcript.PhaseAt index)
    (delta : String) {state : TextGenerationStreamState}
    (hparts : state.parts = shownParts transcript.parts)
    (hindex : state.openExternalThinkingIndex = index) :
    (reduceExternalReasoning state delta).parts =
      shownParts (transcript.appendReasoning delta).parts := by
  unfold reduceExternalReasoning appendReasoning
  unfold PhaseAt at hphase
  cases hopen : transcript.openThinking with
  | none =>
    rw [hopen] at hphase
    simp only [hindex, hphase]
    rw [shown_appendText h, ← hparts]
    rfl
  | some ref =>
    rw [hopen] at hphase
    obtain ⟨place, rfl, hplace⟩ := hphase
    obtain ⟨prose, redacted, incomplete, hfind⟩ := phase_isSome h hopen
    have hat : state.parts[place + 1]? = some (.thinking prose redacted incomplete) := by
      rw [hparts, shown_at h hplace, hfind]
      rfl
    have hgrown : state.parts[place + 1]?.bind (appended .thinking delta) =
        some (.thinking (prose ++ delta) redacted incomplete) := by
      rw [hat]
      rfl
    simp only [hindex, hgrown]
    by_cases htrailing : transcript.trailing = some ref
    · have hlast := (trailing_iff h hplace).mp htrailing
      rw [← hparts] at hlast
      rw [if_pos hlast, if_pos htrailing, shown_extend h hplace, ← hparts,
        modify_eq_set_getElem?, hat]
      rfl
    · have hlast := mt (trailing_iff h hplace).mpr htrailing
      rw [← hparts] at hlast
      rw [if_neg hlast, if_neg htrailing, shown_appendText h, ← hparts]
      rfl

/-! ## Closing a phase -/

/-- The part at an index, by reference. -/
def At (transcript : ExternalTurnTranscript) (ref index : Option Nat) : Prop :=
  ref = index.bind fun index => transcript.refs[index]?

theorem shown_markIncomplete (h : Linked transcript) {ref index : Option Nat}
    (hat : transcript.At ref index) :
    shownParts (transcript.markIncomplete ref).parts =
      markIncompleteAt (shownParts transcript.parts) index := by
  unfold At at hat
  cases index with
  | none =>
    rw [hat]
    rfl
  | some index =>
    cases index with
    | zero =>
      have href : ref = some 0 := hat
      have hnone : (0 : Nat) ∉ transcript.objects.refs :=
        fun hmem => absurd (h.fresh 0 hmem).1 (Nat.lt_irrefl 0)
      rw [href, shownParts_eq]
      show _ :: shownParts (values (transcript.objects.mutate 0 _)) = _
      rw [mutate_of_notMem hnone]
      rfl
    | succ place =>
      have href : ref = transcript.objects.refs[place]? := hat
      cases hplace : transcript.objects.refs[place]? with
      | some found =>
        rw [href, hplace]
        exact shown_mutate_at h hplace markIncomplete_shown
      | none =>
        have hlength : (shownParts transcript.parts).length ≤ place + 1 := by
          have hrefs := List.getElem?_eq_none_iff.mp hplace
          unfold Objects.refs at hrefs
          rw [length_map] at hrefs
          show (map _ (_ :: map _ _)).length ≤ _
          rw [length_map, length_cons, length_map]
          omega
        rw [href, hplace]
        show shownParts transcript.parts = modify _ _ _
        rw [modify_eq_self hlength]

theorem at_trailing (transcript : ExternalTurnTranscript) {parts : List MessagePart}
    (hparts : parts = shownParts transcript.parts) :
    transcript.At transcript.trailing (lastContentIndex parts) := by
  unfold At trailing
  rw [hparts, lastContentIndex_shown]

theorem close_agrees (h : Linked transcript) (hphase : transcript.PhaseAt index) :
    shownParts transcript.closeThinking.1.parts =
        (closeThinkingAt (shownParts transcript.parts) index).1 ∧
      transcript.closeThinking.1.At
        (if transcript.openThinking.isSome ∧ transcript.openThinking = transcript.trailing
          then transcript.closeThinking.2 else transcript.closeThinking.1.trailing)
        (closeThinkingAt (shownParts transcript.parts) index).2 := by
  unfold PhaseAt at hphase
  cases hopen : transcript.openThinking with
  | none =>
    rw [hopen] at hphase
    subst hphase
    have hclose : transcript.closeThinking = ({ transcript with openThinking := none }, none) := by
      simp [closeThinking, hopen]
    rw [hclose, if_neg fun hstopped => Bool.false_ne_true hstopped.1]
    exact ⟨rfl, at_trailing _ rfl⟩
  | some ref =>
    rw [hopen] at hphase
    obtain ⟨place, rfl, hplace⟩ := hphase
    obtain ⟨prose, redacted, incomplete, hfind⟩ := phase_isSome h hopen
    have htext : (shownParts transcript.parts)[place + 1]?.bind thinkingText? =
        some prose := by
      rw [shown_at h hplace, hfind]
      rfl
    have hstopped : (some ref).isSome ∧ some ref = transcript.trailing ↔
        ¬ lastContentIndex (shownParts transcript.parts) ≠ some (place + 1) := by
      rw [not_not, ← trailing_iff h hplace]
      exact ⟨fun hstopped => hstopped.2.symm, fun htrailing => ⟨rfl, htrailing.symm⟩⟩
    simp only [hstopped, closeThinkingAt, htext]
    by_cases hempty : prose = ""
    · have hclose : transcript.closeThinking = ({ transcript with
          openThinking := none, objects := transcript.objects.remove ref }, none) := by
        have htest : (transcript.objects.find ref).bind thinkingText? = some "" := by
          rw [hfind, hempty]
          rfl
        simp [closeThinking, hopen, if_pos htest]
      have hkept := shown_remove h hplace
      rw [hclose, if_neg (not_not.mpr hempty)]
      refine ⟨hkept, ?_⟩
      by_cases hdisplaced : lastContentIndex (shownParts transcript.parts) ≠ some (place + 1)
      · rw [if_neg (not_not.mpr hdisplaced), if_pos hdisplaced]
        exact at_trailing _ hkept.symm
      · rw [if_pos hdisplaced, if_neg hdisplaced]
        rfl
    · have hclose : transcript.closeThinking =
          ({ transcript with openThinking := none }, some ref) := by
        have htest : ¬ (transcript.objects.find ref).bind thinkingText? = some "" := by
          rw [hfind]
          exact fun heq => hempty (Option.some.inj heq)
        simp [closeThinking, hopen, if_neg htest]
      rw [hclose, if_pos hempty]
      refine ⟨rfl, ?_⟩
      by_cases hdisplaced : lastContentIndex (shownParts transcript.parts) ≠ some (place + 1)
      · rw [if_neg (not_not.mpr hdisplaced), if_pos hdisplaced]
        exact at_trailing _ rfl
      · rw [if_pos hdisplaced, if_neg hdisplaced]
        exact hplace.symm

/-! ## Frames -/

theorem PhaseAt.grow {next : ExternalTurnTranscript} (h : transcript.PhaseAt index)
    (hgrows : Grows transcript next) : next.PhaseAt index := by
  unfold PhaseAt at h ⊢
  rw [hgrows.phase]
  cases hopen : transcript.openThinking with
  | none =>
    rw [hopen] at h
    exact h
  | some ref =>
    rw [hopen] at h
    obtain ⟨place, hindex, hplace⟩ := h
    obtain ⟨added, hadded⟩ := hgrows.refs
    refine ⟨place, hindex, ?_⟩
    rw [hadded, List.getElem?_append_left (List.getElem?_eq_some_iff.mp hplace).1]
    exact hplace

/-! ## Updates by identifier -/

theorem values_not_turn (h : Linked transcript) {part : MessagePart}
    (hmem : part ∈ transcript.objects.values) : part.shape ≠ .turn := by
  obtain ⟨⟨ref, _⟩, hobject, rfl⟩ := mem_map.mp hmem
  intro hshape
  apply h.turn ref
  rw [← hshape]
  exact mem_map.mpr ⟨_, hobject, rfl⟩

theorem updateExternalTurn_shown (h : Linked transcript)
    (update : ExternalTurnPart → ExternalTurnPart) {turn : ExternalTurnPart}
    (hturn : (externalTurn transcript.turnPart).shown = .externalTurn turn) :
    updateExternalTurn (shownParts transcript.parts) update =
      .externalTurn (update turn) :: shownParts transcript.objects.values := by
  rw [shownParts_eq, hturn]
  unfold updateExternalTurn
  rw [map_cons]
  refine congrArg (_ :: ·) ?_
  conv_rhs => rw [← map_id (shownParts transcript.objects.values)]
  refine map_congr_left fun part hpart => ?_
  obtain ⟨before, hbefore, rfl⟩ := mem_map.mp hpart
  cases before with
  | externalTurn turn => exact absurd rfl (values_not_turn h hbefore)
  | _ => rfl

theorem appendText_last (transcript : ExternalTurnTranscript) (delta : String) :
    ∃ before ref prose redacted incomplete,
      (transcript.appendText .thinking delta).objects =
        before ++ [(ref, thinking prose redacted incomplete)] := by
  unfold appendText
  rcases eq_nil_or_concat transcript.objects with hnil | ⟨init, ⟨ref, last⟩, hobjects⟩
  · rw [hnil]
    exact ⟨[], _, _, _, _, congrArg (· ++ _) hnil⟩
  · rw [concat_eq_append] at hobjects
    have hlast : transcript.objects.getLast? = some (ref, last) := by
      rw [hobjects, getLast?_concat]
    simp only [hlast]
    split_ifs with hgrown
    · cases last with
      | thinking prose redacted incomplete =>
        let grow := fun part : MessagePart => (part.appended .thinking delta).getD part
        refine ⟨Objects.mutate init ref grow, ref, prose ++ delta, redacted, incomplete, ?_⟩
        show transcript.objects.mutate ref grow = _
        rw [hobjects]
        unfold Objects.mutate
        rw [map_append, map_singleton, if_pos rfl]
        rfl
      | _ => cases hgrown
    · exact ⟨transcript.objects, _, _, _, _, rfl⟩

theorem phaseAt_last (transcript : ExternalTurnTranscript) (delta : String) :
    PhaseAt
      { transcript.appendText .thinking delta with
        openThinking := (transcript.appendText .thinking delta).trailingThinking }
      (some ((transcript.appendText .thinking delta).parts.length - 1)) := by
  obtain ⟨before, ref, prose, redacted, incomplete, hobjects⟩ := appendText_last transcript delta
  have hthinking : (transcript.appendText .thinking delta).trailingThinking = some ref := by
    unfold trailingThinking
    rw [hobjects, getLast?_concat]
    rfl
  unfold PhaseAt
  rw [hthinking]
  refine ⟨before.length, ?_, ?_⟩
  · unfold parts values
    rw [hobjects, length_cons, length_map, length_append, length_singleton]
    exact congrArg some (by omega)
  · show (Objects.refs _)[before.length]? = some ref
    rw [hobjects, refs_append]
    unfold Objects.refs
    rw [← length_map Prod.fst, List.getElem?_concat_length]

theorem turnEnded_shown (h : Linked transcript) (hactive : transcript.turnPart.status = .active) :
    turnEnded (shownParts transcript.parts) = false := by
  unfold turnEnded
  rw [any_eq_false]
  intro part hpart
  rcases mem_cons.mp hpart with rfl | hobject
  · show ¬ (transcript.turnPart.status == .terminal) = true
    rw [hactive]
    decide
  · obtain ⟨before, hbefore, rfl⟩ := mem_map.mp hobject
    cases before with
    | externalTurn turn => exact absurd rfl (values_not_turn h hbefore)
    | _ => exact Bool.false_ne_true

theorem values_update (h : Linked transcript) {found : Option Nat} {shape : PartShape}
    (hfound : ∀ ref, found = some ref ↔ (ref, shape) ∈ transcript.shapes)
    (change : MessagePart → MessagePart) :
    (found.elim transcript (transcript.mutate · change)).objects.values =
      transcript.objects.values.map fun part => if part.shape = shape then change part else part := by
  have hshape : ∀ object ∈ transcript.objects, (object.1, object.2.shape) ∈ transcript.shapes :=
    fun _ hobject => mem_map_of_mem hobject
  cases found with
  | none =>
    refine (map_id _).symm.trans (map_congr_left fun part hpart => (if_neg fun heq => ?_).symm)
    obtain ⟨object, hobject, rfl⟩ := mem_map.mp hpart
    have hmem := hshape object hobject
    rw [heq, ← hfound] at hmem
    cases hmem
  | some ref =>
    refine @Objects.values_mutate_of _ _ _ (fun part => part.shape = shape) _ ?_ change
    intro object hobject
    have hmem := hshape object hobject
    constructor
    · intro href
      rw [href] at hmem
      exact shape_unique h hmem ((hfound ref).mp rfl)
    · intro heq
      rw [heq, ← hfound] at hmem
      exact (Option.some.inj hmem).symm

theorem shown_updateActivity (h : Linked transcript) (callId : String)
    (change : ExternalActivityPart → ExternalActivityPart) :
    shownParts (transcript.updateActivity callId change).parts =
      updateExternalActivity (shownParts transcript.parts) callId change := by
  have hvalues : (transcript.updateActivity callId change).objects.values =
      transcript.objects.values.map fun part =>
        if part.shape = .activity callId then part.onActivity change else part := by
    rw [← values_update h (h.activities callId), updateActivity]
    cases transcript.activityByCallId.get callId <;> rfl
  have hturn := (grows_updateActivity transcript callId change).turnPart
  rw [shownParts_eq, shownParts_eq, hvalues, hturn]
  unfold updateExternalActivity shownParts
  rw [map_cons, map_map, map_map]
  refine congrArg (_ :: ·) (map_congr_left fun part _ => ?_)
  cases part with
  | externalActivity activity =>
    show MessagePart.shown (if PartShape.activity _ = _ then _ else _) =
      .externalActivity (if _ then _ else _)
    simp only [PartShape.activity.injEq]
    split_ifs
    · rfl
    · rfl
  | _ => rfl

theorem shown_resolveApproval (h : Linked transcript) (requestId : String)
    (decision : ExternalApprovalDecision) (now : Nat) {state : TextGenerationStreamState}
    (hparts : state.parts = shownParts transcript.parts) :
    (reduceExternalApprovalStatus state requestId decision).parts =
      shownParts (transcript.resolveApproval requestId (some decision.optionId) decision.source
        now).parts := by
  have hvalues : (transcript.resolveApproval requestId (some decision.optionId) decision.source
      now).objects.values =
      transcript.objects.values.map fun part =>
        if part.shape = .approval requestId then
          part.onApproval fun approval =>
            if approval.decisionSource = none then
              { approval with
                decision := some decision.optionId <|> approval.decision
                decisionSource := some decision.source
                resolvedAt := some now }
            else approval
        else part := by
    rw [← values_update h (h.approvals requestId), resolveApproval]
    cases transcript.approvalByRequestId.get requestId <;> rfl
  have hturn := (grows_resolveApproval transcript requestId (some decision.optionId)
    decision.source now).turnPart
  unfold reduceExternalApprovalStatus
  show state.parts.map _ = _
  rw [hparts, shownParts_eq, shownParts_eq, hvalues, hturn]
  unfold shownParts
  rw [map_cons, map_map, map_map]
  refine congrArg (_ :: ·) (map_congr_left fun part _ => ?_)
  cases part with
  | externalApproval approval =>
    show externalApproval (if _ ∧ _ then _ else _) =
      MessagePart.shown (if PartShape.approval _ = _ then .externalApproval (if _ then _ else _)
        else _)
    simp only [PartShape.approval.injEq]
    by_cases hid : approval.requestId = requestId
    · by_cases hpending : approval.decisionSource = none
      · rw [if_pos ⟨hid, hpending⟩, if_pos hid, if_pos hpending]
        rfl
      · rw [if_neg fun hboth => hpending hboth.2, if_pos hid, if_neg hpending]
        rfl
    · rw [if_neg fun hboth => hid hboth.1, if_neg hid]
      rfl
  | _ => rfl

theorem approval_unknown (h : Linked transcript) {requestId : String}
    (hnone : transcript.approvalByRequestId.get requestId = none) :
    ((shownParts transcript.parts).any fun part =>
      match part with
      | .externalApproval approval => approval.requestId == requestId
      | _ => false) = false := by
  rw [any_eq_false]
  intro part hpart
  rcases mem_cons.mp hpart with rfl | hobject
  · exact Bool.false_ne_true
  · obtain ⟨before, hbefore, rfl⟩ := mem_map.mp hobject
    obtain ⟨⟨ref, _⟩, hmem, rfl⟩ := mem_map.mp hbefore
    rename_i part
    cases part with
    | externalApproval approval =>
      intro hid
      have hshape : (ref, PartShape.approval approval.requestId) ∈ transcript.shapes :=
        mem_map.mpr ⟨_, hmem, rfl⟩
      rw [beq_iff_eq.mp hid, ← h.approvals, hnone] at hshape
      cases hshape
    | _ => exact Bool.false_ne_true

/-! ## The end of the turn -/

theorem settleActivity_idem (status : ExternalActivityStatus) (part : MessagePart) :
    (part.settleActivity status).settleActivity status = part.settleActivity status := by
  cases part with
  | externalActivity activity =>
    unfold settleActivity
    by_cases hrunning : activity.status = .running
    · simp only [hrunning, if_true]
      exact if_neg fun heq => nomatch heq
    · simp [if_neg hrunning]
  | _ => rfl

theorem activity_mem (h : Linked transcript) {object : Nat × MessagePart}
    (hobject : object ∈ transcript.objects) :
    object.1 ∈ transcript.activityByCallId.map Prod.snd ↔
      ∃ callId, object.2.shape = .activity callId := by
  have hshape : (object.1, object.2.shape) ∈ transcript.shapes :=
    mem_map.mpr ⟨object, hobject, rfl⟩
  constructor
  · intro hmem
    obtain ⟨⟨callId, ref⟩, hentry, href⟩ := mem_map.mp hmem
    have hactivity := (h.activities callId ref).mp ((OrderedMap.mem_iff_get h.calls).mp hentry)
    rw [show ref = object.1 from href] at hactivity
    exact ⟨callId, shape_unique h hshape hactivity⟩
  · rintro ⟨callId, hcall⟩
    rw [hcall] at hshape
    have hget := (h.activities callId object.1).mpr hshape
    exact mem_map.mpr ⟨(callId, object.1), (OrderedMap.mem_iff_get h.calls).mpr hget, rfl⟩

open Classical in
theorem values_settle (h : Linked transcript) (status : ExternalActivityStatus) :
    (transcript.objects.mutateAll (transcript.activityByCallId.map Prod.snd)
        (settleActivity status)).values =
      transcript.objects.values.map (settleActivity status) := by
  rw [@Objects.values_mutateAll_of _ _ _ (fun part => ∃ callId, part.shape = .activity callId) _ _
    (fun object hobject => activity_mem h hobject) (settleActivity_idem status)]
  refine map_congr_left fun part _ => ?_
  cases part with
  | externalActivity activity => exact if_pos ⟨activity.callId, rfl⟩
  | _ => exact ite_self _

theorem Linked.markIncomplete (h : Linked transcript) (ref : Option Nat) :
    Linked (transcript.markIncomplete ref) := by
  cases ref with
  | none => exact h
  | some ref => exact h.mutate keepsShape_markIncomplete ref

theorem markIncomplete_frame (transcript : ExternalTurnTranscript) (ref : Option Nat) :
    (transcript.markIncomplete ref).turnPart = transcript.turnPart ∧
      (transcript.markIncomplete ref).text = transcript.text := by
  cases ref with
  | none | some => exact ⟨rfl, rfl⟩

theorem shown_ended (h : Linked transcript) (hactive : transcript.turnPart.status = .active)
    (reason : ExternalTurnTerminalReason) (now : Nat) :
    shownParts { transcript with
        terminated := true
        objects := transcript.objects.mutateAll (transcript.activityByCallId.map Prod.snd)
          (settleActivity (externalActivityStatusForTerminal reason))
        turnPart := { transcript.turnPart with
          status := .terminal, terminalReason := some reason, updatedAt := now } }.parts =
      updateExternalTurn
        ((shownParts transcript.parts).map
          (settleActivity (externalActivityStatusForTerminal reason)))
        fun turn => if turn.status = .terminal then turn
          else { turn with status := .terminal, terminalReason := some reason } := by
  let status := externalActivityStatusForTerminal reason
  have hsettled : ∀ part ∈ (shownParts transcript.objects.values).map
      (settleActivity status), part.shape ≠ .turn := by
    intro part hpart
    obtain ⟨shown, hshown, rfl⟩ := mem_map.mp hpart
    obtain ⟨before, hbefore, rfl⟩ := mem_map.mp hshown
    rw [keepsShape_settleActivity status]
    cases before with
    | externalTurn turn => exact absurd rfl (values_not_turn h hbefore)
    | _ => exact fun heq => nomatch heq
  rw [shownParts_eq, shownParts_eq, map_cons]
  show _ :: shownParts (values (mutateAll _ _ _)) = map _ (_ :: _)
  rw [values_settle h, map_cons]
  refine cons_eq_cons.mpr ⟨?_, ?_⟩
  · have hnot : ¬ transcript.turnPart.status = .terminal := by
      rw [hactive]
      exact fun heq => nomatch heq
    exact congrArg externalTurn (if_neg hnot).symm
  · have hshown : shownParts (transcript.objects.values.map (settleActivity status)) =
        (shownParts transcript.objects.values).map (settleActivity status) := by
      unfold shownParts
      rw [map_map, map_map]
      exact map_congr_left fun part _ => settleActivity_shown status part
    rw [hshown]
    conv_lhs => rw [← map_id ((shownParts _).map _)]
    refine map_congr_left fun part hpart => ?_
    cases part with
    | externalTurn turn => exact absurd rfl (hsettled _ hpart)
    | _ => rfl

end ExternalTurnTranscript

end MangoStudio.Conversation
