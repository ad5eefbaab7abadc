import MangoStudio.Conversation.TranscriptLinks
import MangoStudio.ExternalAgents.TurnController

/-!
# One terminal reason

A turn has two latches: the controller's `terminalReason`, and the transcript's
own end.  The transcript closes itself inside `apply` and inside
`recordSteerAttempt`, and the controller closes it once the attempts to steer
are settled.

* `Change` is what one action can do to the latches, and `step_change` says that
  no action does anything else.  What is stored is never replaced
  (`Change.stored`).
* After an event the two latches are set in one action.  After a steer that goes
  over the budget, the transcript is closed at once and the controller only
  after the durable write.  Another end that arrives in between is the one that
  the result reports (`result_reason_ne_stored`).
* `Agree` is the invariant of the runs without such an end, and
  `result_reason_eq_stored` is what it gives.
-/

namespace MangoStudio.Conversation.ExternalTurnTranscript

variable {transcript : ExternalTurnTranscript}

/-! ## The end of a transcript -/

/-- Whether the transcript is closed, and its reason. -/
def verdict (transcript : ExternalTurnTranscript) : Bool × Option ExternalTurnTerminalReason :=
  (transcript.terminated, transcript.turnPart.terminalReason)

theorem verdict_of_grows {next : ExternalTurnTranscript} (h : Grows transcript next) :
    next.verdict = transcript.verdict := by
  unfold verdict
  rw [h.terminated, h.turnPart]

theorem verdict_closeThinking (transcript : ExternalTurnTranscript) :
    transcript.closeThinking.1.verdict = transcript.verdict := by
  obtain ⟨hturn, hterminated, _⟩ := closeThinking_frame transcript
  unfold verdict
  rw [hturn, hterminated]

theorem verdict_record (transcript : ExternalTurnTranscript) (event : ExternalAgentEvent)
    (now : Nat) : (transcript.record event now).verdict = transcript.verdict := by
  cases event with
  | textDelta text =>
    have happended := verdict_of_grows
      (grows_appendText { transcript with text := transcript.text ++ text } .text text)
    exact happended
  | reasoningDelta text => exact verdict_of_grows (grows_appendReasoning transcript text)
  | reasoningStarted =>
    have happended := verdict_of_grows (grows_appendText transcript.closeThinking.1 .thinking "")
    exact happended.trans (verdict_closeThinking transcript)
  | reasoningEnded => exact verdict_closeThinking transcript
  | activityUpdated callId | activityCompleted callId =>
    exact verdict_of_grows (grows_updateActivity transcript callId _)
  | approvalResolved requestId decision =>
    exact verdict_of_grows (grows_resolveApproval transcript requestId _ decision.source now)
  | _ => rfl

theorem verdict_finalize (hopen : transcript.terminated = false)
    (reason : ExternalTurnTerminalReason) (now : Nat) :
    (transcript.finalize reason now).verdict = (true, some reason) := by
  unfold verdict
  rw [finalize_terminated, finalize_reason hopen]

theorem closed_finalize
    (hclosed : transcript.terminated = transcript.turnPart.terminalReason.isSome)
    (reason : ExternalTurnTerminalReason) (now : Nat) :
    (transcript.finalize reason now).terminated =
      (transcript.finalize reason now).turnPart.terminalReason.isSome := by
  cases hopen : transcript.terminated with
  | true =>
    rw [finalize_of_terminated hopen]
    exact hclosed
  | false =>
    rw [finalize_terminated, finalize_reason hopen]
    rfl

theorem applyEvent_terminal (transcript : ExternalTurnTranscript) (event : ExternalAgentEvent)
    (now : Nat) : (transcript.applyEvent event now).2.terminal = transcript.ending event := by
  cases event with
  | _ => rfl

theorem verdict_applyEvent (hopen : transcript.verdict = (false, none))
    (event : ExternalAgentEvent) (now : Nat) :
    (transcript.applyEvent event now).1.verdict =
      ((transcript.ending event).isSome, transcript.ending event) := by
  have hrecord := (verdict_record transcript event now).trans hopen
  rw [applyEvent_eq]
  cases transcript.ending event with
  | none => exact hrecord
  | some reason => exact verdict_finalize (congrArg Prod.fst hrecord) reason now

theorem apply_of_terminated (hterminated : transcript.terminated = true)
    (byteLengthOf : ExternalAgentEvent → Nat) (event : ExternalAgentEvent) (sequence now : Nat) :
    transcript.apply byteLengthOf event sequence now = (transcript, { durable := false }) := by
  unfold ExternalTurnTranscript.apply
  rw [if_pos hterminated]

theorem ending_ne_hubRestarted (transcript : ExternalTurnTranscript) (event : ExternalAgentEvent) :
    transcript.ending event ≠ some .hubRestarted := by
  cases event <;> grind [ending]

/-- An open transcript after an event is closed with the reason that the caller is told,
and a restart is not among these reasons. -/
theorem verdict_apply (hopen : transcript.verdict = (false, none))
    (byteLengthOf : ExternalAgentEvent → Nat) (event : ExternalAgentEvent) (sequence now : Nat) :
    (transcript.apply byteLengthOf event sequence now).1.verdict =
        ((transcript.apply byteLengthOf event sequence now).2.terminal.isSome,
          (transcript.apply byteLengthOf event sequence now).2.terminal) ∧
      (transcript.apply byteLengthOf event sequence now).2.terminal ≠ some .hubRestarted := by
  have hrunning : transcript.terminated = false := congrArg Prod.fst hopen
  cases haccepts : transcript.accepts event with
  | false =>
    grind [apply]
  | true =>
    let charged := transcript.charge sequence now (byteLengthOf event)
    have happlied := @verdict_applyEvent charged hopen event now
    have hterminal := applyEvent_terminal charged event now
    have hreason := ending_ne_hubRestarted charged event
    rcases hevent : charged.applyEvent event now with ⟨applied, application⟩
    rw [hevent] at happlied hterminal
    have hevent' : (transcript.charge sequence now (byteLengthOf event)).applyEvent event now =
      (applied, application) := hevent
    have hstored : applied.turnPart.terminalReason = charged.ending event :=
      congrArg Prod.snd happlied
    have hclosed : applied.terminated = applied.turnPart.terminalReason.isSome := by
      rw [hstored]
      exact congrArg Prod.fst happlied
    simp only [ExternalTurnTranscript.apply, hrunning, haccepts, hevent', Bool.not_true,
      Bool.false_eq_true, if_false]
    split_ifs with hexceeded
    · refine ⟨Prod.ext (closed_finalize hclosed .limitExceeded now) rfl, ?_⟩
      cases hopen' : applied.terminated <;> grind [finalize_of_terminated, finalize_reason]
    · rw [hterminal]
      exact ⟨happlied, hreason⟩

/-- The budget has room for a steer. -/
def fits (transcript : ExternalTurnTranscript) (text : String) : Bool :=
  !(transcript.turnPart.persistedBytes + Utf8.byteLength text.toList > transcript.maxBytes ||
    transcript.turnPart.eventCount + 1 > transcript.maxEvents)

theorem verdict_recordSteerAttempt (hopen : transcript.verdict = (false, none))
    (clientMessageId text : String) (now : Nat) :
    (transcript.fits text = true ∧
      (transcript.recordSteerAttempt clientMessageId text now).2 = none ∧
      (transcript.recordSteerAttempt clientMessageId text now).1.verdict = (false, none)) ∨
    (transcript.fits text = false ∧
      (transcript.recordSteerAttempt clientMessageId text now).2 = some .limitExceeded ∧
      (transcript.recordSteerAttempt clientMessageId text now).1.verdict =
        (true, some .limitExceeded)) := by
  unfold ExternalTurnTranscript.recordSteerAttempt
  dsimp only
  split_ifs with hexceeded
  · refine .inr ⟨congrArg not hexceeded, rfl, verdict_finalize ?_ .limitExceeded now⟩
    exact congrArg Prod.fst hopen
  · exact .inl ⟨congrArg not (Bool.eq_false_of_not_eq_true hexceeded), rfl, hopen⟩

theorem verdict_resolveSteerRejected (transcript : ExternalTurnTranscript)
    (clientMessageId : String) (reasonCode : ExternalSteerRejectionReason) :
    (transcript.resolveSteerRejected clientMessageId reasonCode).verdict = transcript.verdict := by
  unfold ExternalTurnTranscript.resolveSteerRejected
  split
  · rfl
  · rfl

theorem verdict_recordError (transcript : ExternalTurnTranscript) (error : ExternalAgentError)
    (refusal : Option OpenRefusalPresentation) :
    (transcript.recordError error refusal).verdict = transcript.verdict := by
  cases refusal with
  | none | some => rfl

end MangoStudio.Conversation.ExternalTurnTranscript

namespace MangoStudio.ExternalAgents.ExternalTurn

open Conversation ExternalTurnTranscript

variable {turn : ExternalTurn} (byteLengthOf : ExternalAgentEvent → Nat)

/-! ## The two latches -/

/-- Whether there is an end, and its reason. -/
abbrev Latch := Bool × Option ExternalTurnTerminalReason

/-- What a turn knows of its end. -/
@[ext]
structure Latches where
  transcript : Latch
  controller : Latch
  settled : Option ExternalTurnTerminalReason
  result : Option ExternalTurnTerminalReason

def latches (turn : ExternalTurn) : Latches where
  transcript := turn.transcript.verdict
  controller := (turn.terminating, turn.terminalReason)
  settled := turn.settled
  result := turn.result

/-- What an action may do: end the turn without the transcript, go over the budget with a
steer, or close the transcript for the controller. -/
structure Powers where
  outside : Prop
  breaches : Prop
  settles : Prop

/-- What one action can do to the latches. -/
inductive Change (powers : Powers) (before : Latches) : Latches → Prop where
  | stay : Change powers before before
  /-- An end that the transcript does not know. -/
  | stop (reason : ExternalTurnTerminalReason) (houtside : powers.outside)
      (hrunning : before.controller = (false, none)) :
      Change powers before { before with controller := (true, some reason) }
  /-- The end that a steer has given the transcript. -/
  | follow (reason : ExternalTurnTerminalReason) (hrunning : before.controller = (false, none))
      (hclosed : before.transcript.2 = some reason) :
      Change powers before { before with controller := (true, some reason) }
  /-- An event that ends the turn. -/
  | event (reason : ExternalTurnTerminalReason) (hrunning : before.controller = (false, none))
      (hopen : before.transcript = (false, none)) :
      Change powers before { before with
        transcript := (true, some reason)
        controller := (true, some reason) }
  /-- A steer that goes over the budget. -/
  | breach (hbreaches : powers.breaches) (hrunning : before.controller = (false, none))
      (hopen : before.transcript = (false, none)) :
      Change powers before { before with transcript := (true, some .limitExceeded) }
  | settle (reason : ExternalTurnTerminalReason) (hsettles : powers.settles)
      (hended : before.controller.2 = some reason) (hunsettled : before.settled = none) :
      Change powers before { before with
        transcript := if before.transcript.1 then before.transcript else (true, some reason)
        settled := some reason }
  | complete : Change powers before { before with result := before.settled }

variable {after before : Latches}

theorem Change.stored {powers : Powers} (h : Change powers before after)
    (hclosed : before.transcript.1 = before.transcript.2.isSome)
    {reason : ExternalTurnTerminalReason} (hstored : before.transcript.2 = some reason) :
    after.transcript.2 = some reason := by
  cases h <;> grind

/-- What holds of the latches in every run. -/
structure Sound (latches : Latches) : Prop where
  transcript : latches.transcript.1 = latches.transcript.2.isSome
  controller : latches.controller.1 = latches.controller.2.isSome
  settled : ∀ reason, latches.settled = some reason →
    latches.controller.2 = some reason ∧ latches.transcript.1 = true
  result : ∀ reason, latches.result = some reason → latches.settled = some reason

theorem Sound.change {powers : Powers} (h : Sound before) (hchange : Change powers before after) :
    Sound after := by
  -- Before the controller has a reason, nothing is settled.
  have hnone : before.controller = (false, none) →
      ∀ reason, before.settled = some reason → False := by
    grind [cases Sound]
  cases hchange with
  | stay => exact h
  | stop _ _ hrunning | follow _ hrunning =>
    exact ⟨h.transcript, rfl, fun other hsettled => (hnone hrunning other hsettled).elim, h.result⟩
  | event reason hrunning _ =>
    exact ⟨rfl, rfl, fun other hsettled => (hnone hrunning other hsettled).elim, h.result⟩
  | breach _ hrunning _ =>
    exact ⟨rfl, h.controller, fun other hsettled => (hnone hrunning other hsettled).elim, h.result⟩
  | settle reason _ hended hunsettled =>
    refine ⟨?_, h.controller, ?_, ?_⟩
    all_goals grind [cases Sound]
  | complete =>
    exact ⟨h.transcript, h.controller, h.settled, fun _ hresult => hresult⟩

theorem Sound.result_stays {powers : Powers} (h : Sound before)
    (hchange : Change powers before after) {reason : ExternalTurnTerminalReason}
    (hresult : before.result = some reason) : after.result = some reason := by
  cases hchange with
  | complete => exact h.result reason hresult
  | _ => exact hresult

/-- Where both latches are set, they have one reason. -/
def Agree (latches : Latches) : Prop :=
  ∀ reason stored, latches.controller.2 = some reason → latches.transcript.2 = some stored →
    reason = stored

theorem Agree.change {powers : Powers} (h : Agree before) (hsound : Sound before)
    (hchange : Change powers before after)
    (hquiet : powers.outside → before.controller = (false, none) → before.transcript.1 = false) :
    Agree after := by
  cases hchange with
  | stay | complete => exact h
  | stop reason houtside hrunning =>
    intro ended stored _ hstored
    grind [cases Sound]
  | follow reason _ hclosed =>
    intro ended stored hended hstored
    exact Option.some.inj (hended.symm.trans (hclosed.symm.trans hstored))
  | event reason =>
    intro ended stored hended hstored
    exact Option.some.inj (hended.symm.trans hstored)
  | breach _ hrunning _ =>
    intro ended stored hended _
    grind
  | settle reason _ hended _ =>
    intro ended stored hended' hstored
    dsimp only at hstored
    split_ifs at hstored
    · exact h ended stored hended' hstored
    · exact Option.some.inj (hended'.symm.trans (hended.trans hstored))

/-! ## The actions -/

/-- The action may end the turn without the transcript. -/
def mayEnd (turn : ExternalTurn) : TurnAction → Bool
  | .envelope .gap => true
  | .submission outcome => outcome.ends
  | .teardown reason => decide ¬ (turn.submitting ∧ reason = .runtimeDisconnected)
  | .revoke _ => turn.submitting
  | .abort _ => true
  | _ => false

/-- A call of `steer` that makes an attempt, and is neither refused nor a repetition. -/
def recordsSteer (turn : ExternalTurn) (userId clientMessageId : String) : Bool :=
  !(turn.terminating || turn.transcript.terminated || turn.userId ≠ userId) && !turn.review &&
    (turn.steerAttempts.get clientMessageId).isNone

def powers (turn : ExternalTurn) (action : TurnAction) : Powers where
  outside := turn.mayEnd action
  breaches := match action with
    | .steer userId clientMessageId text =>
      turn.recordsSteer userId clientMessageId = true ∧ turn.transcript.fits text = false
    | _ => False
  settles := match action with
    | .settle _ => True
    | _ => False

section

variable (turn : ExternalTurn) (clientMessageId : String)

theorem latches_setPhase (phase : SteerPhase) :
    (turn.setPhase clientMessageId phase).latches = turn.latches := by
  obtain ⟨_, hphase⟩ := setPhase_touches turn clientMessageId phase
  rw [hphase]
  rfl

theorem latches_settleSteer : (turn.settleSteer clientMessageId).latches = turn.latches := by
  obtain ⟨_, _, _, _, hsettled⟩ := settleSteer_touches turn clientMessageId
  rw [hsettled]
  rfl

theorem latches_rejectSteer (reasonCode : ExternalSteerRejectionReason) :
    (turn.rejectSteer clientMessageId reasonCode).latches = turn.latches :=
  Latches.ext (verdict_resolveSteerRejected turn.transcript clientMessageId reasonCode) rfl rfl rfl

end

theorem latches_recordStartError (turn : ExternalTurn) (error : ExternalAgentError)
    (refusal : Option OpenRefusalPresentation) :
    (turn.recordStartError error refusal).latches = turn.latches :=
  Latches.ext (verdict_recordError turn.transcript error refusal) rfl rfl rfl

theorem verdict_release (transcript : ExternalTurnTranscript) (requestIds : List String)
    (source : ExternalDecisionSource) (now : Nat) :
    (requestIds.foldl (fun transcript requestId =>
      transcript.resolveApproval requestId none source now) transcript).verdict =
        transcript.verdict := by
  induction requestIds generalizing transcript with
  | nil => rfl
  | cons requestId requestIds ih =>
    rw [List.foldl_cons, ih]
    exact verdict_of_grows (grows_resolveApproval transcript requestId none source now)

theorem latches_release (turn : ExternalTurn) (now : Nat) :
    (turn.release now).latches = turn.latches := by
  unfold release
  split
  · split_ifs
    · rfl
    · exact Latches.ext (verdict_release _ _ _ now) rfl rfl rfl
  · rfl

theorem latches_reopen (turn : ExternalTurn) (sessionId : String)
    (conversationReset : Option ExternalConversationResetReason) :
    (turn.reopen sessionId conversationReset).latches = turn.latches := by
  unfold reopen
  split_ifs
  · rfl
  · cases conversationReset with
    | none | some => rfl

variable {powers : Powers}

theorem Change.of_eq (h : after = before) : Change powers before after := by
  rw [h]
  exact .stay

theorem Sound.running (hsound : Sound turn.latches) (hrunning : turn.terminalReason = none) :
    turn.latches.controller = (false, none) := by
  have hlatch : turn.terminating = turn.terminalReason.isSome := hsound.controller
  rw [hrunning] at hlatch
  exact Prod.ext hlatch hrunning

theorem latches_terminate (hrunning : turn.latches.controller = (false, none))
    (requested : ExternalTurnTerminalReason) :
    ∃ reason, (turn.terminate requested).latches =
        { turn.latches with controller := (true, some reason) } ∧
      (requested ≠ .hubRestarted → reason = requested) := by
  have hreason : turn.terminalReason = none := congrArg Prod.snd hrunning
  unfold terminate
  rw [hreason]
  refine ⟨_, rfl, fun hrequested => if_neg ?_⟩
  intro hrestart
  exact hrequested hrestart.1

theorem change_terminate (hsound : Sound turn.latches) (houtside : powers.outside)
    (requested : ExternalTurnTerminalReason) :
    Change powers turn.latches (turn.terminate requested).latches := by
  cases hreason : turn.terminalReason with
  | none =>
    have hrunning := hsound.running hreason
    obtain ⟨reason, hterminated, _⟩ := latches_terminate hrunning requested
    rw [hterminated]
    exact .stop reason houtside hrunning
  | some reason =>
    refine .of_eq ?_
    unfold terminate
    rw [hreason]

theorem Sound.opened (hsound : Sound turn.latches) (hopen : turn.transcript.terminated = false) :
    turn.transcript.verdict = (false, none) := by
  refine Prod.ext hopen (Option.not_isSome_iff_eq_none.mp ?_)
  rw [← show turn.transcript.terminated = turn.transcript.verdict.2.isSome from hsound.transcript,
    hopen]
  exact Bool.false_ne_true

theorem latches_applied (turn : ExternalTurn)
    (event : ExternalAgentEvent) (sequence now : Nat) :
    (turn.applied byteLengthOf event sequence now).1.latches = { turn.latches with
      transcript := (turn.transcript.apply byteLengthOf event sequence now).1.verdict } := by
  obtain ⟨_, _, _, _, happlied⟩ := applied_touches turn byteLengthOf event sequence now
  rw [happlied]
  rfl

theorem change_apply (hsound : Sound turn.latches) (hrunning : turn.terminalReason = none)
    (event : ExternalAgentEvent) (sequence now : Nat) :
    Change powers turn.latches
      (turn.onEnvelope byteLengthOf (.apply event sequence) now).1.latches := by
  have hcontroller := hsound.running hrunning
  have happlied := latches_applied byteLengthOf turn event sequence now
  rw [onEnvelope_apply hrunning]
  cases hopen : turn.transcript.terminated with
  | true =>
    rw [apply_of_terminated hopen] at happlied ⊢
    exact .of_eq happlied
  | false =>
    have hverdict := hsound.opened hopen
    obtain ⟨hclosed, hreason⟩ := verdict_apply hverdict byteLengthOf event sequence now
    rw [hclosed] at happlied
    cases hterminal : (turn.transcript.apply byteLengthOf event sequence now).2.terminal with
    | none =>
      rw [hterminal] at happlied
      refine .of_eq (happlied.trans ?_)
      exact Latches.ext hverdict.symm rfl rfl rfl
    | some reason =>
      rw [hterminal] at happlied hreason
      have hstill : (turn.applied byteLengthOf event sequence now).1.latches.controller =
          (false, none) := by
        rw [happlied]
        exact hcontroller
      obtain ⟨ended, hended, hsame⟩ := latches_terminate hstill reason
      have hvendor : reason ≠ .hubRestarted := fun hrestart => hreason (congrArg some hrestart)
      show Change powers turn.latches
        ((turn.applied byteLengthOf event sequence now).1.terminate reason).latches
      rw [hended, hsame hvendor, happlied]
      exact .event reason hcontroller hverdict

theorem change_onEnvelope (hsound : Sound turn.latches)
    (verdict : Verdict) (now : Nat) :
    Change (turn.powers (.envelope verdict)) turn.latches
      (turn.onEnvelope byteLengthOf verdict now).1.latches := by
  cases hrunning : turn.terminalReason with
  | some reason =>
    rw [onEnvelope_ended (by rw [hrunning]; rfl)]
    exact .stay
  | none =>
    cases verdict with
    | ignored =>
      rw [onEnvelope_ignored]
      exact .stay
    | gap =>
      rw [onEnvelope_gap hrunning]
      exact change_terminate hsound rfl .sequenceGap
    | apply event sequence => exact change_apply byteLengthOf hsound hrunning event sequence now

theorem steer_cases (turn : ExternalTurn) (userId clientMessageId text : String) (now : Nat) :
    (turn.steer userId clientMessageId text now).1 = turn ∨
      turn.recordsSteer userId clientMessageId = true ∧
        turn.terminating = false ∧ turn.transcript.terminated = false ∧
        turn.steerAttempts.get clientMessageId = none ∧
        (turn.steer userId clientMessageId text now).1 = { turn with
          transcript := (turn.transcript.recordSteerAttempt clientMessageId text now).1
          taken := turn.taken ++ [.steer clientMessageId]
          pendingSteerIds := turn.pendingSteerIds ++ [clientMessageId]
          steerAttempts := turn.steerAttempts.set clientMessageId
            ⟨text, .writing (turn.transcript.recordSteerAttempt clientMessageId text now).2⟩ } := by
  grind [steer, recordsSteer]

theorem change_steer (hsound : Sound turn.latches) (userId clientMessageId text : String)
    (now : Nat) :
    Change (turn.powers (.steer userId clientMessageId text)) turn.latches
      (turn.steer userId clientMessageId text now).1.latches := by
  rcases steer_cases turn userId clientMessageId text now with hsame | hrecords
  · rw [hsame]
    exact .stay
  · obtain ⟨hrecords, hterminating, hopen, _, hsteered⟩ := hrecords
    have hlatch : turn.terminating = turn.terminalReason.isSome := hsound.controller
    have hrunning : turn.terminalReason = none := by
      rw [hterminating] at hlatch
      exact Option.not_isSome_iff_eq_none.mp (by rw [← hlatch]; exact Bool.false_ne_true)
    have hverdict := hsound.opened hopen
    rw [hsteered]
    rcases verdict_recordSteerAttempt hverdict clientMessageId text now with
      ⟨_, _, hrecorded⟩ | ⟨hexceeded, _, hrecorded⟩
    · exact .of_eq (Latches.ext (hrecorded.trans hverdict.symm) rfl rfl rfl)
    · have hbreach := @Change.breach (turn.powers (.steer userId clientMessageId text))
        turn.latches ⟨hrecords, hexceeded⟩ (hsound.running hrunning) hverdict
      rw [← hrecorded] at hbreach
      exact hbreach

/-- A steer that has gone over the budget has closed the transcript for that reason. -/
def Breached (turn : ExternalTurn) : Prop :=
  ∀ clientMessageId text reason,
    turn.steerAttempts.get clientMessageId = some ⟨text, .writing (some reason)⟩ →
      reason = .limitExceeded ∧ turn.transcript.verdict.2 = some reason

theorem change_steerWritten (hsound : Sound turn.latches) (hbreached : Breached turn)
    (clientMessageId : String) (written : Bool) :
    Change powers turn.latches (turn.steerWritten clientMessageId written).latches := by
  unfold steerWritten
  split
  · rename_i text breach hwriting
    cases written with
    | false =>
      grind [Change.of_eq, latches_settleSteer, latches_rejectSteer]
    | true =>
      cases breach with
      | some reason =>
        obtain ⟨hlimit, hstored⟩ := hbreached clientMessageId text reason hwriting
        show Change powers turn.latches ((turn.terminate reason).settleSteer clientMessageId).latches
        rw [latches_settleSteer]
        cases hreason : turn.terminalReason with
        | none =>
          have hrunning := hsound.running hreason
          obtain ⟨ended, hterminated, hsame⟩ := latches_terminate hrunning reason
          rw [hterminated, hsame (by rw [hlimit]; decide)]
          exact .follow reason hrunning hstored
        | some reason =>
          refine .of_eq ?_
          unfold terminate
          rw [hreason]
      | none =>
        dsimp only
        split_ifs
        · contradiction
        · refine .of_eq ?_
          rw [latches_settleSteer]
          exact latches_rejectSteer turn clientMessageId .turnAlreadyCompleted
        · exact .of_eq (latches_setPhase turn clientMessageId _)
  · split_ifs
    · exact .of_eq (latches_settleSteer turn clientMessageId)
    · exact .of_eq (latches_settleSteer _ clientMessageId)
  · exact .stay

theorem latches_steerAnswered (turn : ExternalTurn) (clientMessageId : String)
    (answer : SteerAnswer) :
    (turn.steerAnswered clientMessageId answer).latches = turn.latches := by
  unfold steerAnswered
  split
  · split
    · exact latches_settleSteer _ clientMessageId
    · rw [latches_setPhase, latches_rejectSteer]
    · exact latches_settleSteer turn clientMessageId
  · rfl

theorem change_failStart (hsound : Sound turn.latches) (houtside : powers.outside)
    (error : ExternalAgentError) (refusal : Option OpenRefusalPresentation)
    (reason : ExternalTurnTerminalReason) :
    Change powers turn.latches ((turn.recordStartError error refusal).terminate reason).latches := by
  grind [latches_recordStartError, change_terminate]

theorem change_applySubmission (hsound : Sound turn.latches) (outcome : SubmissionOutcome) :
    Change (turn.powers (.submission outcome)) turn.latches
      (turn.applySubmission outcome).1.latches := by
  have hcases := applySubmission_cases turn outcome
  generalize (turn.applySubmission outcome).1 = after at hcases ⊢
  cases hcases with
  | stay | accepted => exact .stay
  | lost nativeTurnId hsubmitting hends =>
    exact @change_terminate { turn with
      submitting := false
      nativeTurnId := some nativeTurnId
      transcript := turn.transcript.bindNativeTurn nativeTurnId
      deferredApprovals := [] } _ hsound hends .runtimeDisconnected
  | ended reason hends => exact change_terminate hsound hends reason
  | failed error refusal reason hends hstores =>
    exact change_failStart hsound hends error refusal reason

theorem change_settle (turn : ExternalTurn) (graceLapsed : Bool) (now : Nat) :
    Change (turn.powers (.settle graceLapsed)) turn.latches (turn.settle graceLapsed now).latches := by
  unfold settle
  split
  · rename_i reason hreason hsettled
    split_ifs
    · have hsettle := @Change.settle (turn.powers (.settle graceLapsed)) turn.latches reason trivial hreason
        hsettled
      refine Eq.subst (motive := Change _ turn.latches) ?_ hsettle
      refine Latches.ext ?_ rfl rfl rfl
      show (if turn.transcript.terminated then turn.transcript.verdict else (true, some reason)) =
        (turn.transcript.finalize reason now).verdict
      cases hopen : turn.transcript.terminated with
      | true => rw [finalize_of_terminated hopen]; rfl
      | false => rw [verdict_finalize hopen]; rfl
    · exact .stay
  · exact .stay

theorem step_change (hsound : Sound turn.latches) (hbreached : Breached turn)
    (timed : TurnAction × Nat) :
    Change (turn.powers timed.1) turn.latches (turn.step byteLengthOf timed).latches := by
  obtain ⟨action, now⟩ := timed
  cases action with
  | envelope verdict => exact change_onEnvelope byteLengthOf hsound verdict now
  | steer userId clientMessageId text => exact change_steer hsound userId clientMessageId text now
  | steerWritten clientMessageId written =>
    exact change_steerWritten hsound hbreached clientMessageId written
  | steerAnswered clientMessageId answer =>
    exact .of_eq (latches_steerAnswered turn clientMessageId answer)
  | dispatch pending => exact .stay
  | reopen sessionId conversationReset =>
    exact .of_eq (latches_reopen turn sessionId conversationReset)
  | submission outcome => exact change_applySubmission hsound outcome
  | teardown reason =>
    show Change _ turn.latches (turn.onTeardown reason).latches
    unfold onTeardown
    split_ifs with hdropped
    · exact .stay
    · exact change_terminate hsound (decide_eq_true hdropped) reason
  | revoke reason =>
    show Change _ turn.latches (if turn.submitting then turn.terminate reason else turn).latches
    split_ifs with hsubmitting
    · exact change_terminate hsound hsubmitting reason
    · exact .stay
  | abort reasonCode => exact change_terminate hsound rfl (terminalReasonForAbort reasonCode)
  | approvalForwarded requestId optionId =>
    have hgrows := grows_resolveApproval turn.transcript requestId (some optionId) .user now
    exact .of_eq (Latches.ext (verdict_of_grows hgrows) rfl rfl rfl)
  | settle graceLapsed => exact change_settle turn graceLapsed now
  | release => exact .of_eq (latches_release turn now)
  | complete =>
    show Change _ turn.latches turn.complete.latches
    unfold complete
    split_ifs
    · exact .complete
    · exact .stay

/-! ## The attempts to steer -/

/-- What a turn knows of its steers. -/
def steers (turn : ExternalTurn) : OrderedMap String SteerAttempt × List String :=
  (turn.steerAttempts, turn.pendingSteerIds)

theorem steers_terminate (turn : ExternalTurn) (requested : ExternalTurnTerminalReason) :
    (turn.terminate requested).steers = turn.steers := by
  obtain ⟨_, _, hended⟩ := terminate_touches turn requested
  rw [hended]
  rfl

theorem steers_onEnvelope (turn : ExternalTurn)
    (verdict : Verdict) (now : Nat) :
    (turn.onEnvelope byteLengthOf verdict now).1.steers = turn.steers := by
  obtain ⟨_, _, _, _, _, _, _, htouched⟩ := onEnvelope_touches turn byteLengthOf verdict now
  rw [htouched]
  rfl

theorem steers_applySubmission (turn : ExternalTurn) (outcome : SubmissionOutcome) :
    (turn.applySubmission outcome).1.steers = turn.steers := by
  have hcases := applySubmission_cases turn outcome
  generalize (turn.applySubmission outcome).1 = after at hcases ⊢
  cases hcases with
  | stay | accepted => rfl
  | lost nativeTurnId hsubmitting hends => exact steers_terminate _ .runtimeDisconnected
  | ended reason hends => exact steers_terminate turn reason
  | failed error refusal reason hends hstores => exact steers_terminate _ reason

/-- The actions of an attempt to steer. -/
def isSteering : TurnAction → Bool
  | .steer _ _ _ => true
  | .steerWritten _ _ => true
  | .steerAnswered _ _ => true
  | _ => false

theorem steers_step {action : TurnAction}
    (haction : isSteering action = false) (now : Nat) :
    (turn.step byteLengthOf (action, now)).steers = turn.steers := by
  cases action with
  | envelope verdict => exact steers_onEnvelope byteLengthOf turn verdict now
  | steer | steerWritten | steerAnswered => exact absurd haction Bool.noConfusion
  | dispatch | approvalForwarded => rfl
  | reopen sessionId conversationReset =>
    show (turn.reopen sessionId conversationReset).steers = turn.steers
    unfold reopen
    split_ifs
    · rfl
    · rfl
  | submission outcome => exact steers_applySubmission turn outcome
  | teardown reason =>
    show (turn.onTeardown reason).steers = turn.steers
    unfold onTeardown
    split_ifs
    · rfl
    · exact steers_terminate turn reason
  | revoke reason =>
    show (if turn.submitting then turn.terminate reason else turn).steers = turn.steers
    split_ifs
    · exact steers_terminate turn reason
    · rfl
  | abort reasonCode => exact steers_terminate turn _
  | settle graceLapsed =>
    show (turn.settle graceLapsed now).steers = turn.steers
    unfold settle
    split
    · split_ifs
      · rfl
      · rfl
    · rfl
  | release =>
    show (turn.release now).steers = turn.steers
    unfold release
    split
    · split_ifs
      · rfl
      · rfl
    · rfl
  | complete =>
    show turn.complete.steers = turn.steers
    unfold complete
    split_ifs
    · rfl
    · rfl

theorem get_setPhase (turn : ExternalTurn) (clientMessageId other : String) (phase : SteerPhase) :
    (turn.setPhase clientMessageId phase).steerAttempts.get other =
      if other = clientMessageId then
        (turn.steerAttempts.get clientMessageId).map fun attempt => { attempt with phase }
      else turn.steerAttempts.get other := by
  grind [setPhase, OrderedMap.get_set]

theorem attempts_settleSteer (turn : ExternalTurn) (clientMessageId : String) :
    (turn.settleSteer clientMessageId).steerAttempts =
      (turn.setPhase clientMessageId .settled).steerAttempts := by
  unfold settleSteer
  dsimp only
  split_ifs
  · rfl
  · rfl

section Writing

variable {clientMessageId other text : String} {breach : Option ExternalTurnTerminalReason}

theorem writing_of_setPhase {phase : SteerPhase}
    (h : (turn.setPhase clientMessageId phase).steerAttempts.get other =
      some ⟨text, .writing breach⟩) (hphase : phase ≠ .writing breach) :
    turn.steerAttempts.get other = some ⟨text, .writing breach⟩ := by
  grind [get_setPhase, Option.map_eq_some_iff]

theorem writing_of_settleSteer
    (h : (turn.settleSteer clientMessageId).steerAttempts.get other =
      some ⟨text, .writing breach⟩) :
    turn.steerAttempts.get other = some ⟨text, .writing breach⟩ := by
  rw [attempts_settleSteer] at h
  exact writing_of_setPhase h (fun h => by cases h)

theorem writing_of_steerWritten {written : Bool}
    (h : (turn.steerWritten clientMessageId written).steerAttempts.get other =
      some ⟨text, .writing breach⟩) :
    turn.steerAttempts.get other = some ⟨text, .writing breach⟩ := by
  unfold steerWritten at h
  split at h
  · rename_i attempt found hwriting
    cases written with
    | false => exact @writing_of_settleSteer (turn.rejectSteer _ _) _ _ _ _ h
    | true =>
      cases found with
      | some reason =>
        have hsettled := @writing_of_settleSteer (turn.terminate reason) _ _ _ _ h
        rw [show (turn.terminate reason).steerAttempts = turn.steerAttempts from
          congrArg Prod.fst (steers_terminate turn reason)] at hsettled
        exact hsettled
      | none =>
        dsimp only at h
        split_ifs at h
        · contradiction
        · exact @writing_of_settleSteer ((turn.rejectSteer _ _).reportSteer _ _ _) _ _ _ _ h
        · exact writing_of_setPhase h (fun h => by cases h)
  · split_ifs at h
    · exact writing_of_settleSteer h
    · exact @writing_of_settleSteer (turn.reportSteer _ _ _) _ _ _ _ h
  · exact h

theorem writing_of_steerAnswered {answer : SteerAnswer}
    (h : (turn.steerAnswered clientMessageId answer).steerAttempts.get other =
      some ⟨text, .writing breach⟩) :
    turn.steerAttempts.get other = some ⟨text, .writing breach⟩ := by
  unfold steerAnswered at h
  split at h
  · split at h
    · exact @writing_of_settleSteer (turn.reportSteer _ _ _) _ _ _ _ h
    · exact @writing_of_setPhase (turn.rejectSteer _ _) _ _ _ _ _ h (fun h => by cases h)
    · exact writing_of_settleSteer h
  · exact h

end Writing

theorem writing_of_steer {userId fresh said clientMessageId text : String} {now : Nat}
    {breach : Option ExternalTurnTerminalReason}
    (h : (turn.steer userId fresh said now).1.steerAttempts.get clientMessageId =
      some ⟨text, .writing breach⟩) :
    turn.steerAttempts.get clientMessageId = some ⟨text, .writing breach⟩ ∨
      turn.transcript.terminated = false ∧
        (turn.steer userId fresh said now).1.transcript =
          (turn.transcript.recordSteerAttempt fresh said now).1 ∧
        (turn.transcript.recordSteerAttempt fresh said now).2 = breach := by
  grind [steer_cases, OrderedMap.get_set]

theorem Breached.step (h : Breached turn) (hsound : Sound turn.latches)
    (timed : TurnAction × Nat) :
    Breached (turn.step byteLengthOf timed) := by
  -- The reason of an attempt that was there before is still stored.
  have hkeep : ∀ clientMessageId text reason,
      turn.steerAttempts.get clientMessageId = some ⟨text, .writing (some reason)⟩ →
        reason = .limitExceeded ∧
          (turn.step byteLengthOf timed).transcript.verdict.2 = some reason := by
    intro clientMessageId text reason hattempt
    obtain ⟨hlimit, hstored⟩ := h clientMessageId text reason hattempt
    exact ⟨hlimit, (step_change byteLengthOf hsound h timed).stored hsound.transcript hstored⟩
  intro clientMessageId text reason hattempt
  obtain ⟨action, now⟩ := timed
  cases hsteering : isSteering action with
  | false =>
    have hsame := congrArg Prod.fst (@steers_step turn byteLengthOf _ hsteering now)
    have hattempts : (turn.step byteLengthOf (action, now)).steerAttempts = turn.steerAttempts :=
      hsame
    rw [hattempts] at hattempt
    exact hkeep clientMessageId text reason hattempt
  | true =>
    cases action with
    | steer userId fresh said =>
      rcases writing_of_steer hattempt with hbefore | ⟨hopen, hrecorded, hbreach⟩
      · exact hkeep clientMessageId text reason hbefore
      · rcases verdict_recordSteerAttempt (hsound.opened hopen) fresh said now with
          ⟨_, hnone, _⟩ | ⟨_, hlimit, hclosed⟩
        · rw [hnone] at hbreach
          exact absurd hbreach (Option.some_ne_none _).symm
        · rw [hlimit] at hbreach
          have hreason : reason = .limitExceeded := (Option.some.inj hbreach).symm
          refine ⟨hreason, ?_⟩
          rw [hreason]
          exact (congrArg (fun next => next.verdict.2) hrecorded).trans (congrArg Prod.snd hclosed)
    | steerWritten other written =>
      exact hkeep clientMessageId text reason (writing_of_steerWritten hattempt)
    | steerAnswered other answer =>
      exact hkeep clientMessageId text reason (writing_of_steerAnswered hattempt)
    | _ => exact absurd hsteering Bool.noConfusion

/-! ## Runs -/

/-- The latches of a turn, and its steers that are over the budget. -/
structure Latched (turn : ExternalTurn) : Prop where
  sound : Sound turn.latches
  breached : Breached turn

theorem Latched.create (userId chatId sessionId : String) (targetId : ExternalAgentTargetId)
    (review steering : Bool) (startedAt : Nat) :
    Latched (create userId chatId sessionId targetId review steering startedAt) where
  sound := ⟨rfl, rfl, fun _ h => (nomatch h), fun _ h => (nomatch h)⟩
  breached := fun _ _ _ h => nomatch h

theorem Latched.next (h : Latched turn)
    (timed : TurnAction × Nat) : Latched (turn.step byteLengthOf timed) where
  sound := h.sound.change (step_change byteLengthOf h.sound h.breached timed)
  breached := h.breached.step byteLengthOf h.sound timed

/-- No end from outside finds the transcript closed and the controller running. -/
def Orderly (turn : ExternalTurn) (timed : TurnAction × Nat) : Prop :=
  turn.mayEnd timed.1 → turn.terminalReason = none → turn.transcript.terminated = false

theorem Latched.stays (h : Latched turn)
    (actions : List (TurnAction × Nat)) (reason : ExternalTurnTerminalReason) :
    (turn.transcript.turnPart.terminalReason = some reason →
      (Run.run (step byteLengthOf) turn actions).transcript.turnPart.terminalReason =
        some reason) ∧
    (turn.result = some reason →
      (Run.run (step byteLengthOf) turn actions).result = some reason) := by
  induction actions generalizing turn with
  | nil => exact ⟨id, id⟩
  | cons timed actions ih =>
    have hchange := step_change byteLengthOf h.sound h.breached timed
    obtain ⟨hstored, hresult⟩ := ih (h.next byteLengthOf timed)
    rw [Run.run_cons]
    exact ⟨fun hreason => hstored (hchange.stored h.sound.transcript hreason),
      fun hreason => hresult (h.sound.result_stays hchange hreason)⟩

/-- In a run where no end from outside finds a steer between its record and its write,
the reason that the turn returns is the stored one.  In every run both are set once. -/
theorem result_reason_eq_stored (userId chatId sessionId : String)
    (targetId : ExternalAgentTargetId) (review steering : Bool) (startedAt : Nat)
    (byteLengthOf : ExternalAgentEvent → Nat) (actions : List (TurnAction × Nat))
    (horderly : Run.Along (step byteLengthOf) Orderly
      (create userId chatId sessionId targetId review steering startedAt) actions) :
    let start := create userId chatId sessionId targetId review steering startedAt
    let reached := Run.run (step byteLengthOf) start actions
    (∀ reason, reached.result = some reason →
      reached.transcript.turnPart.terminalReason = some reason) ∧
    ∀ more reason,
      (reached.transcript.turnPart.terminalReason = some reason →
        (Run.run (step byteLengthOf) start (actions ++ more)).transcript.turnPart.terminalReason =
          some reason) ∧
      (reached.result = some reason →
        (Run.run (step byteLengthOf) start (actions ++ more)).result = some reason) := by
  intro start reached
  have hstart : Latched start :=
    Latched.create userId chatId sessionId targetId review steering startedAt
  have hstep : ∀ turn, ∀ timed ∈ actions, Latched turn ∧ Agree turn.latches →
      Orderly turn timed → Latched (turn.step byteLengthOf timed) ∧
        Agree (turn.step byteLengthOf timed).latches := by
    intro turn timed _ hinv hquiet
    obtain ⟨hlatched, hagree⟩ := hinv
    have hchange := step_change byteLengthOf hlatched.sound hlatched.breached timed
    refine ⟨hlatched.next byteLengthOf timed, hagree.change hlatched.sound hchange ?_⟩
    intro houtside hrunning
    exact hquiet houtside (congrArg Prod.snd hrunning)
  have hreached : Latched reached ∧ Agree reached.latches :=
    Run.run_invariant_along hstep ⟨hstart, fun _ _ h => nomatch h⟩ horderly
  obtain ⟨hlatched, hagree⟩ := hreached
  refine ⟨fun reason hresult => ?_, fun more reason => ?_⟩
  · have hsettled := hlatched.sound.result reason hresult
    obtain ⟨hcontroller, hclosed⟩ := hlatched.sound.settled reason hsettled
    rw [hlatched.sound.transcript] at hclosed
    obtain ⟨stored, hstored⟩ := Option.isSome_iff_exists.mp hclosed
    rw [hagree reason stored hcontroller hstored]
    exact hstored
  · rw [Run.run_append]
    exact hlatched.stays byteLengthOf more reason

instance (turn : ExternalTurn) (timed : TurnAction × Nat) : Decidable (Orderly turn timed) :=
  inferInstanceAs (Decidable (_ → _ → _))

/-- A turn that is steered once, and ends with its vendor. -/
theorem result_reason_eq_stored_steered :
    let reached := Run.run (step fun _ => 64) (create "user" "chat" "session" .codex false true 0)
      [(.submission (.accepted "turn" true), 1), (.steer "user" "steer" "shorter", 2),
        (.steerWritten "steer" true, 3), (.envelope (.apply .completed 1), 4),
        (.abort .userCancelled, 5), (.steerAnswered "steer" .accepted, 6), (.settle false, 7),
        (.release, 8), (.complete, 9)]
    reached.result = some .completed ∧
      reached.transcript.turnPart.terminalReason = some .completed := by
  refine ⟨by decide, (result_reason_eq_stored "user" "chat" "session" .codex false true 0
    (fun _ => 64) _ ?_).1 .completed (by decide +kernel)⟩
  exact ⟨by decide, by decide, by decide, by decide, by decide, by decide, by decide, by decide,
    by decide, trivial⟩

theorem stopped_over_budget {text : String}
    (hbig : externalTurnPayloadMaxBytes < Utf8.byteLength text.toList) :
    let reached := Run.run (step fun _ => 64) (create "user" "chat" "session" .codex false true 0)
      [(.steer "user" "steer" text, 1), (.abort .userCancelled, 2),
        (.steerWritten "steer" true, 3), (.settle false, 4), (.release, 5), (.complete, 6)]
    reached.result = some .cancelledByUser ∧
      reached.transcript.turnPart.terminalReason = some .limitExceeded := by
  intro reached
  let start := create "user" "chat" "session" .codex false true 0
  have hexceeded : start.transcript.fits text = false := by
    have hbytes : 0 + Utf8.byteLength text.toList > externalTurnPayloadMaxBytes := by omega
    exact congrArg not (Bool.or_eq_true_iff.mpr (.inl (decide_eq_true hbytes)))
  have hclosing : (start.transcript.recordSteerAttempt "steer" text 1).2 = some .limitExceeded ∧
      (start.transcript.recordSteerAttempt "steer" text 1).1.verdict =
        (true, some .limitExceeded) := by
    rcases @verdict_recordSteerAttempt start.transcript rfl "steer" text 1 with h | h
    · rw [h.1] at hexceeded
      exact absurd hexceeded Bool.noConfusion
    · exact h.2
  rcases hrecorded : start.transcript.recordSteerAttempt "steer" text 1 with ⟨closed, breach⟩
  rw [hrecorded] at hclosing
  obtain ⟨hbreach, hverdict⟩ := hclosing
  change breach = some .limitExceeded at hbreach
  subst hbreach
  let steered : ExternalTurn := { start with
    transcript := closed
    taken := [.steer "steer"]
    pendingSteerIds := ["steer"]
    steerAttempts := [("steer", ⟨text, .writing (some .limitExceeded)⟩)] }
  have hsteer : start.step (fun _ => 64) (.steer "user" "steer" text, 1) = steered := by
    show (start.steer "user" "steer" text 1).1 = steered
    simp only [steer, hrecorded]
    rfl
  have hclosed : closed.terminated = true := congrArg Prod.fst hverdict
  let ended : ExternalTurn := { steered with
    terminalReason := some .cancelledByUser
    terminating := true
    pendingSteerIds := []
    steerAttempts := [("steer", ⟨text, .settled⟩)]
    transcript := closed.finalize .cancelledByUser 4
    settled := some .cancelledByUser }
  have hended : Run.run (step fun _ => 64) start
      [(.steer "user" "steer" text, 1), (.abort .userCancelled, 2),
        (.steerWritten "steer" true, 3), (.settle false, 4)] = ended := by
    rw [Run.run_cons, hsteer]
    rfl
  have hreleased : (ended.release 5).transcript.verdict = ended.transcript.verdict :=
    congrArg Latches.transcript (latches_release ended 5)
  have hstored : ended.transcript.verdict = (true, some .limitExceeded) := by
    show (closed.finalize .cancelledByUser 4).verdict = _
    rw [finalize_of_terminated hclosed]
    exact hverdict
  have hsplit := Run.run_append (step fun _ => 64) start
    [(.steer "user" "steer" text, 1), (.abort .userCancelled, 2),
      (.steerWritten "steer" true, 3), (.settle false, 4)] [(.release, 5), (.complete, 6)]
  rw [hended] at hsplit
  have hreached : reached = (ended.release 5).complete := hsplit
  rw [hreached]
  exact ⟨rfl, congrArg Prod.snd (hreleased.trans hstored)⟩

/-- The turn returns the stop, and has stored the budget. -/
theorem result_reason_ne_stored :
    let text := String.ofList (List.replicate 700000 '€')
    let reached := Run.run (step fun _ => 64) (create "user" "chat" "session" .codex false true 0)
      [(.steer "user" "steer" text, 1), (.abort .userCancelled, 2),
        (.steerWritten "steer" true, 3), (.settle false, 4), (.release, 5), (.complete, 6)]
    reached.result = some .cancelledByUser ∧
      reached.transcript.turnPart.terminalReason = some .limitExceeded := by
  have hbytes : ∀ count,
      Utf8.byteLength (String.ofList (List.replicate count '€')).toList = count * 3 := by
    intro count
    rw [String.toList_ofList, Utf8.byteLength, List.map_replicate, List.sum_replicate]
    rfl
  have hbig : externalTurnPayloadMaxBytes <
      Utf8.byteLength (String.ofList (List.replicate 700000 '€')).toList := by
    rw [hbytes]
    decide
  exact stopped_over_budget hbig

end MangoStudio.ExternalAgents.ExternalTurn
