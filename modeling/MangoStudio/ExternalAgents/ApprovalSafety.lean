import MangoStudio.ExternalAgents.Approvals
import MangoStudio.ExternalAgents.TerminalReason

/-!
# An answer reaches the turn that asked

Which answers a hub forwards, over any interleaving of the actions of the turns
of any chats and of the answers of anybody.

* `Registered` is the invariant: an entry of the registry belongs to the live
  turn of its chat, under the name and the user of that turn, and that turn has
  not yet dropped its entries.
* A turn drops its entries in `finish`, some awaits after it was given its
  terminal reason, and `answerApproval` does not ask for that reason.  An answer
  in between is forwarded (`forwarded_after_stop`).
* `forwarded_safe` says what holds of every forward, and that the last condition
  holds too in the runs in which nobody answers a turn that has its reason.
-/

namespace MangoStudio.ExternalAgents.ExternalTurn

open Conversation ExternalTurnTranscript

variable {turn : ExternalTurn}

/-! ## What an action does to the name of a turn -/

/-- Who a turn is. -/
@[ext]
structure Identity where
  userId : String
  chatId : String
  nativeTurnId : Option String
  submitting : Bool
  released : Bool

def identity (turn : ExternalTurn) : Identity where
  userId := turn.userId
  chatId := turn.chatId
  nativeTurnId := turn.nativeTurnId
  submitting := turn.submitting
  released := turn.released

/-- A turn is named once, while it is submitted, and released once, when its end is
settled. -/
inductive Renamed (turn : ExternalTurn) : Identity → Prop where
  | stay : Renamed turn turn.identity
  | accept (nativeTurnId : String) (hsubmitting : turn.submitting = true) :
      Renamed turn { turn.identity with
        nativeTurnId := some nativeTurnId
        submitting := false }
  | release (hsettled : turn.settled.isSome = true) :
      Renamed turn { turn.identity with released := true }

theorem Renamed.of_eq {after : ExternalTurn} (h : after.identity = turn.identity) :
    Renamed turn after.identity := by
  rw [h]
  exact .stay

section

variable (turn : ExternalTurn) (byteLengthOf : ExternalAgentEvent → Nat)

theorem identity_terminate (requested : ExternalTurnTerminalReason) :
    (turn.terminate requested).identity = turn.identity := by
  obtain ⟨_, _, hended⟩ := terminate_touches turn requested
  rw [hended]
  rfl

theorem identity_setPhase (clientMessageId : String) (phase : SteerPhase) :
    (turn.setPhase clientMessageId phase).identity = turn.identity := by
  obtain ⟨_, hphase⟩ := setPhase_touches turn clientMessageId phase
  rw [hphase]
  rfl

theorem identity_settleSteer (clientMessageId : String) :
    (turn.settleSteer clientMessageId).identity = turn.identity := by
  obtain ⟨_, _, _, _, hsettled⟩ := settleSteer_touches turn clientMessageId
  rw [hsettled]
  rfl

theorem identity_onEnvelope (verdict : Verdict)
    (now : Nat) : (turn.onEnvelope byteLengthOf verdict now).1.identity = turn.identity := by
  obtain ⟨_, _, _, _, _, _, _, htouched⟩ := onEnvelope_touches turn byteLengthOf verdict now
  rw [htouched]
  rfl

theorem identity_steer (userId clientMessageId text : String) (now : Nat) :
    (turn.steer userId clientMessageId text now).1.identity = turn.identity := by
  grind [steer, identity]

theorem identity_steerWritten (clientMessageId : String) (written : Bool) :
    (turn.steerWritten clientMessageId written).identity = turn.identity := by
  unfold steerWritten
  split
  · rename_i breach _
    cases written with
    | false => exact identity_settleSteer _ clientMessageId
    | true =>
      cases breach with
      | some reason =>
        exact (identity_settleSteer _ clientMessageId).trans (identity_terminate turn reason)
      | none =>
        show identity (if turn.hasEnded then _ else _) = turn.identity
        split_ifs
        · exact identity_settleSteer _ clientMessageId
        · exact identity_setPhase turn clientMessageId _
  · split_ifs
    · exact identity_settleSteer turn clientMessageId
    · exact identity_settleSteer _ clientMessageId
  · rfl

theorem identity_steerAnswered (clientMessageId : String) (answer : SteerAnswer) :
    (turn.steerAnswered clientMessageId answer).identity = turn.identity := by
  unfold steerAnswered
  split
  · split
    · exact identity_settleSteer _ clientMessageId
    · exact identity_setPhase _ clientMessageId _
    · exact identity_settleSteer turn clientMessageId
  · rfl

theorem renamed_applySubmission (outcome : SubmissionOutcome) :
    Renamed turn (turn.applySubmission outcome).1.identity := by
  have hcases := applySubmission_cases turn outcome
  generalize (turn.applySubmission outcome).1 = after at hcases ⊢
  cases hcases with
  | stay => exact .stay
  | accepted nativeTurnId hsubmitting hlive => exact .accept nativeTurnId hsubmitting
  | lost nativeTurnId hsubmitting hends =>
    rw [identity_terminate]
    exact .accept nativeTurnId hsubmitting
  | ended reason hends => exact .of_eq (identity_terminate turn reason)
  | failed error refusal reason hends hstores => exact .of_eq (identity_terminate _ reason)

theorem renamed_act (action : TurnAction) (now : Nat) :
    Renamed turn (turn.act byteLengthOf action now).1.identity := by
  cases action with
  | envelope verdict => exact .of_eq (identity_onEnvelope turn byteLengthOf verdict now)
  | steer userId clientMessageId text =>
    exact .of_eq (identity_steer turn userId clientMessageId text now)
  | steerWritten clientMessageId written =>
    exact .of_eq (identity_steerWritten turn clientMessageId written)
  | steerAnswered clientMessageId answer =>
    exact .of_eq (identity_steerAnswered turn clientMessageId answer)
  | dispatch | approvalForwarded => exact .stay
  | reopen sessionId conversationReset =>
    show Renamed turn (turn.reopen sessionId conversationReset).identity
    unfold reopen
    split_ifs
    · exact .stay
    · exact .stay
  | submission outcome => exact renamed_applySubmission turn outcome
  | teardown reason =>
    grind [onTeardown, Renamed.of_eq, identity_terminate, act]
  | revoke reason =>
    grind [Renamed.of_eq, identity_terminate, act]
  | abort reasonCode => exact .of_eq (identity_terminate turn _)
  | settle graceLapsed =>
    show Renamed turn (turn.settle graceLapsed now).identity
    unfold settle
    split
    · split_ifs
      · exact .stay
      · exact .stay
    · exact .stay
  | release =>
    show Renamed turn (turn.release now).identity
    unfold release
    split
    · rename_i reason hsettled
      split_ifs
      · exact .stay
      · exact .release (by rw [hsettled]; rfl)
    · exact .stay
  | complete =>
    show Renamed turn turn.complete.identity
    unfold complete
    split_ifs
    · exact .stay
    · exact .stay

end

variable (byteLengthOf : ExternalAgentEvent → Nat) (action : TurnAction) (now : Nat)

theorem act_requests_ended (hended : turn.terminalReason.isSome = true) :
    (turn.act byteLengthOf action now).2 = [] := by
  cases action with
  | envelope verdict =>
    show (turn.onEnvelope byteLengthOf verdict now).2 = []
    rw [onEnvelope_ended hended]
  | submission outcome =>
    show (turn.applySubmission outcome).2 = []
    unfold applySubmission
    rw [hended]
    rfl
  | _ => rfl

/-- What holds of a turn in every run: it has a name once it is accepted, and it is
released after its end is settled. -/
structure Steady (turn : ExternalTurn) : Prop where
  latched : Latched turn
  named : turn.submitting = turn.nativeTurnId.isNone
  released : turn.released = true → turn.settled.isSome = true

theorem Steady.create (userId chatId sessionId : String) (targetId : ExternalAgentTargetId)
    (review steering : Bool) (startedAt : Nat) :
    Steady (create userId chatId sessionId targetId review steering startedAt) where
  latched := Latched.create userId chatId sessionId targetId review steering startedAt
  named := rfl
  released := fun h => nomatch h

theorem Change.settled_keeps {powers : Powers} {before after : Latches}
    (h : Change powers before after) (hsettled : before.settled.isSome = true) :
    after.settled.isSome = true := by
  cases h with
  | settle => rfl
  | _ => exact hsettled

theorem Steady.settled_of_renamed (h : Steady turn) {after : Identity}
    (hrenamed : Renamed turn after) (hreleased : after.released = true) :
    turn.settled.isSome = true := by
  cases hrenamed with
  | stay | accept => exact h.released hreleased
  | release hsettled => exact hsettled

theorem Steady.act (h : Steady turn) : Steady (turn.act byteLengthOf action now).1 := by
  have hrenamed := renamed_act turn byteLengthOf action now
  have hchange := step_change byteLengthOf h.latched.sound h.latched.breached (action, now)
  have hkeeps : turn.settled.isSome = true →
      (turn.act byteLengthOf action now).1.settled.isSome = true := hchange.settled_keeps
  refine ⟨h.latched.next byteLengthOf (action, now), ?_, ?_⟩
  · show (turn.act byteLengthOf action now).1.identity.submitting =
      (turn.act byteLengthOf action now).1.identity.nativeTurnId.isNone
    generalize (turn.act byteLengthOf action now).1.identity = after at hrenamed ⊢
    cases hrenamed with
    | stay | release => exact h.named
    | accept => rfl
  · intro hreleased
    exact hkeeps (h.settled_of_renamed hrenamed hreleased)

theorem Steady.act_released (h : Steady turn) {byteLengthOf : ExternalAgentEvent → Nat}
    {action : TurnAction} {now : Nat}
    (hreleased : (turn.act byteLengthOf action now).1.released = true) :
    turn.terminalReason.isSome = true := by
  have hsettled : turn.settled.isSome = true :=
    h.settled_of_renamed (renamed_act turn byteLengthOf action now) hreleased
  obtain ⟨reason, hsettled⟩ := Option.isSome_iff_exists.mp hsettled
  have hreason : turn.terminalReason = some reason := (h.latched.sound.settled reason hsettled).1
  rw [hreason]
  rfl

theorem Steady.act_named (h : Steady turn) {nativeTurnId : String}
    (hnamed : turn.nativeTurnId = some nativeTurnId) :
    (turn.act byteLengthOf action now).1.nativeTurnId = some nativeTurnId := by
  have hrenamed := renamed_act turn byteLengthOf action now
  show (turn.act byteLengthOf action now).1.identity.nativeTurnId = some nativeTurnId
  generalize (turn.act byteLengthOf action now).1.identity = after at hrenamed ⊢
  cases hrenamed with
  | stay | release => exact hnamed
  | accept other hsubmitting =>
    grind [cases Steady]

theorem act_owner (turn : ExternalTurn) :
    (turn.act byteLengthOf action now).1.userId = turn.userId ∧
      (turn.act byteLengthOf action now).1.chatId = turn.chatId := by
  have hrenamed := renamed_act turn byteLengthOf action now
  show (turn.act byteLengthOf action now).1.identity.userId = turn.userId ∧
    (turn.act byteLengthOf action now).1.identity.chatId = turn.chatId
  generalize (turn.act byteLengthOf action now).1.identity = after at hrenamed ⊢
  cases hrenamed with
  | _ => exact ⟨rfl, rfl⟩

end MangoStudio.ExternalAgents.ExternalTurn

namespace MangoStudio.ExternalAgents.Hub

open Conversation ExternalTurn

variable {hub : Hub} {chatId : String} {live : LiveExternalTurn}
  (byteLengthOf : ExternalAgentEvent → Nat) (action : TurnAction) (now : Nat)

/-! ## The invariant of a hub -/

/-- An entry of the registry belongs to the live turn of its chat. -/
structure Owned (hub : Hub) (key : String × String) (pending : PendingApproval)
    (registration : Registration) (live : LiveExternalTurn) : Prop where
  registered : hub.registrations[pending.registration]? = some registration
  user : registration.userId = pending.binding.userId
  options : registration.request.options.map (·.id) = pending.optionIds
  expires : registration.request.expiresAtMs = pending.expiresAtMs
  current : hub.liveTurns.lookup key.1 = some live
  turn : live.turnId = registration.turnId
  liveUser : live.turn.userId = pending.binding.userId
  named : live.turn.nativeTurnId = some pending.binding.nativeTurnId
  unreleased : live.turn.released = false

/-- What holds of a forward in every run. -/
structure Justified (registrations : List Registration) (forward : Forward)
    (registration : Registration) (live : LiveExternalTurn) : Prop where
  registered : registrations[forward.registration]? = some registration
  caller : forward.userId = registration.userId
  current : forward.live = some live
  turn : live.turnId = registration.turnId
  liveUser : live.turn.userId = forward.userId
  offered : forward.optionId ∈ registration.request.options.map (·.id)
  unexpired : forward.atMs < registration.request.expiresAtMs

structure Registered (hub : Hub) : Prop where
  turns : ∀ chatId live, hub.liveTurns.lookup chatId = some live →
    Steady live.turn ∧ live.turn.chatId = chatId
  entries : ∀ key pending, hub.approvals.lookup key = some pending →
    ∃ registration live, Owned hub key pending registration live
  apart : ∀ key pending other second, hub.approvals.lookup key = some pending →
    hub.approvals.lookup other = some second → pending.registration = second.registration →
      key = other
  answered : ∀ forward ∈ hub.forwarded, ∀ key pending,
    hub.approvals.lookup key = some pending → pending.registration = forward.registration →
      pending.resolved.isSome = true
  justified : ∀ forward ∈ hub.forwarded, ∃ registration live,
    Justified hub.registrations forward registration live
  once : (hub.forwarded.map Forward.registration).Nodup

open Registered

theorem Registered.empty : Registered {} where
  turns := fun _ _ h => nomatch h
  entries := fun _ _ h => nomatch h
  apart := fun _ _ _ _ h => nomatch h
  answered := fun _ h => nomatch h
  justified := fun _ h => nomatch h
  once := List.nodup_nil

theorem Registered.of_fewer {after : Hub} (h : Registered hub)
    (hturns : ∀ chatId live, after.liveTurns.lookup chatId = some live →
      Steady live.turn ∧ live.turn.chatId = chatId)
    (hfewer : ∀ key pending, after.approvals.lookup key = some pending →
      hub.approvals.lookup key = some pending)
    (howned : ∀ key pending, after.approvals.lookup key = some pending →
      ∀ registration live, Owned hub key pending registration live →
        ∃ next, Owned after key pending registration next)
    (hregistrations : after.registrations = hub.registrations)
    (hforwarded : after.forwarded = hub.forwarded) : Registered after where
  turns := hturns
  entries := by
    intro key pending hentry
    obtain ⟨registration, live, hlive⟩ := h.entries key pending (hfewer key pending hentry)
    obtain ⟨next, hnext⟩ := howned key pending hentry registration live hlive
    exact ⟨registration, next, hnext⟩
  apart := fun key pending other second hfirst hsecond =>
    h.apart key pending other second (hfewer key pending hfirst) (hfewer other second hsecond)
  answered := by
    intro forward hmem key pending hentry
    rw [hforwarded] at hmem
    exact h.answered forward hmem key pending (hfewer key pending hentry)
  justified := by
    intro forward hmem
    rw [hforwarded] at hmem
    rw [hregistrations]
    exact h.justified forward hmem
  once := by
    rw [hforwarded]
    exact h.once

theorem Registered.start (h : Registered hub) (userId chatId sessionId : String)
    (targetId : ExternalAgentTargetId) (review steering : Bool) (now : Nat) :
    Registered (hub.start userId chatId sessionId targetId review steering now) := by
  unfold Hub.start
  cases hlive : hub.liveTurns.lookup chatId with
  | some live => exact h
  | none =>
    refine h.of_fewer ?_ (fun _ _ hentry => hentry) ?_ rfl rfl
    · intro chat live hchat
      by_cases hsame : chat = chatId
      · subst hsame
        rw [AList.lookup_insert] at hchat
        rw [← Option.some.inj hchat]
        exact ⟨Steady.create userId chat sessionId targetId review steering now, rfl⟩
      · rw [AList.lookup_insert_ne hsame] at hchat
        exact h.turns chat live hchat
    · intro key pending _ registration live howned
      have hother : key.1 ≠ chatId := by
        grind [cases Owned]
      exact ⟨live, { howned with current := (AList.lookup_insert_ne hother).trans howned.current }⟩

theorem Registered.leave (h : Registered hub) (chatId : String) : Registered (hub.leave chatId) := by
  unfold Hub.leave
  cases hlive : hub.liveTurns.lookup chatId with
  | none => exact h
  | some leaving =>
    dsimp only
    split_ifs with hgone
    · refine h.of_fewer ?_ (fun _ _ hentry => hentry) ?_ rfl rfl
      · grind [AList.lookup_erase, AList.lookup_erase_ne, cases Registered]
      · intro key pending _ registration live howned
        have hother : key.1 ≠ chatId := by
          grind [cases Owned]
        exact ⟨live, { howned with current := (AList.lookup_erase_ne hother).trans howned.current }⟩
    · exact h

theorem Registered.act (h : Registered hub) (hlive : hub.liveTurns.lookup chatId = some live) {approvals : ExternalApprovalRegistry}
    (hfewer : ∀ key pending, approvals.lookup key = some pending →
      hub.approvals.lookup key = some pending ∧
        (key.1 = chatId → (live.turn.act byteLengthOf action now).1.released = false)) :
    Registered { hub with
      liveTurns := hub.liveTurns.insert chatId
        { live with turn := (live.turn.act byteLengthOf action now).1 }
      approvals } := by
  obtain ⟨hsteady, hchat⟩ := h.turns chatId live hlive
  obtain ⟨huser, hsame⟩ := act_owner byteLengthOf action now live.turn
  refine h.of_fewer ?_ (fun key pending hentry => (hfewer key pending hentry).1) ?_ rfl rfl
  · intro chat other hother
    by_cases hthis : chat = chatId
    · rw [hthis, AList.lookup_insert] at hother
      rw [← Option.some.inj hother, hthis]
      exact ⟨hsteady.act byteLengthOf action now, hsame.trans hchat⟩
    · rw [AList.lookup_insert_ne hthis] at hother
      exact h.turns chat other hother
  · intro key pending hentry registration owner howned
    by_cases hthis : key.1 = chatId
    · have hfound := howned.current
      rw [hthis, hlive] at hfound
      obtain rfl := Option.some.inj hfound
      refine ⟨{ live with turn := (live.turn.act byteLengthOf action now).1 }, { howned with
        current := ?_
        turn := howned.turn
        liveUser := huser.trans howned.liveUser
        named := hsteady.act_named byteLengthOf action now howned.named
        unreleased := (hfewer key pending hentry).2 hthis }⟩
      rw [hthis]
      exact AList.lookup_insert _
    · exact ⟨owner, { howned with
        current := (AList.lookup_insert_ne hthis).trans howned.current }⟩

theorem registration_kept {registrations : List Registration} {place : Nat}
    {registration : Registration} (h : registrations[place]? = some registration)
    (fresh : Registration) :
    (registrations ++ [fresh])[place]? = some registration ∧ place ≠ registrations.length := by
  grind

theorem Registered.place_ne (h : Registered hub) {key : String × String}
    {pending : PendingApproval} (hentry : hub.approvals.lookup key = some pending) :
    pending.registration ≠ hub.registrations.length := by
  obtain ⟨registration, live, howned⟩ := h.entries key pending hentry
  exact (registration_kept howned.registered registration).2

theorem Registered.register (h : Registered hub)
    (hlive : hub.liveTurns.lookup live.turn.chatId = some live)
    (hunreleased : live.turn.released = false) (request : ExternalApprovalRequest) :
    Registered (hub.register live request) := by
  unfold Hub.register
  cases hnamed : live.turn.nativeTurnId with
  | none => exact h
  | some nativeTurnId =>
    let key := (live.turn.chatId, request.requestId)
    let binding : ExternalApprovalBinding :=
      { userId := live.turn.userId, chatId := live.turn.chatId, sessionId := live.turn.sessionId,
        nativeTurnId, requestId := request.requestId }
    let fresh : PendingApproval :=
      { binding, optionIds := request.options.map (·.id), expiresAtMs := request.expiresAtMs,
        registration := hub.registrations.length }
    have hcases : ∀ other pending, (hub.approvals.register binding request
        hub.registrations.length).lookup other = some pending →
          (other = key ∧ pending = fresh) ∨
            (other ≠ key ∧ hub.approvals.lookup other = some pending) :=
      fun _ _ => Table.lookup_insert_cases
    refine ⟨h.turns, ?_, ?_, ?_, ?_, h.once⟩
    · intro other pending hentry
      rcases hcases other pending hentry with ⟨hother, hpending⟩ | ⟨_, hold⟩
      · subst hother hpending
        refine ⟨⟨live.turnId, live.turn.userId, request⟩, live, ?_⟩
        exact ⟨List.getElem?_concat_length, rfl, rfl, rfl, hlive, rfl, rfl, hnamed, hunreleased⟩
      · obtain ⟨registration, owner, howned⟩ := h.entries other pending hold
        exact ⟨registration, owner, { howned with
          registered := (registration_kept howned.registered _).1 }⟩
    · grind [place_ne, cases Registered]
    · grind [cases Registered, cases Justified]
    · intro forward hmem
      obtain ⟨registration, owner, hjustified⟩ := h.justified forward hmem
      exact ⟨registration, owner, { hjustified with
        registered := (registration_kept hjustified.registered _).1 }⟩

theorem liveTurns_register (hub : Hub) (live : LiveExternalTurn)
    (request : ExternalApprovalRequest) :
    (hub.register live request).liveTurns = hub.liveTurns := by
  unfold Hub.register
  split
  · rfl
  · rfl

theorem Registered.registerAll (h : Registered hub)
    (hlive : hub.liveTurns.lookup live.turn.chatId = some live)
    (hunreleased : live.turn.released = false) (requests : List ExternalApprovalRequest) :
    Registered (requests.foldl (fun hub request => hub.register live request) hub) := by
  induction requests generalizing hub <;> grind [register, liveTurns_register]

theorem Registered.release (h : Registered hub) (hlive : hub.liveTurns.lookup chatId = some live)
    (hreleased : (live.turn.act byteLengthOf action now).1.released = true) :
    Registered ({ hub with
      liveTurns := hub.liveTurns.insert chatId
        { live with turn := (live.turn.act byteLengthOf action now).1 } }.resolvePending
          (live.turn.act byteLengthOf action now).1 now) := by
  obtain ⟨hsteady, hchat⟩ := h.turns chatId live hlive
  obtain ⟨_, hsame⟩ := act_owner byteLengthOf action now live.turn
  obtain ⟨reason, hsettled⟩ :=
    Option.isSome_iff_exists.mp ((hsteady.act byteLengthOf action now).released hreleased)
  -- An entry of the chat has the name of the turn.
  have hentry : ∀ key pending, hub.approvals.lookup key = some pending → key.1 = chatId →
      (live.turn.act byteLengthOf action now).1.nativeTurnId =
        some pending.binding.nativeTurnId := by
    grind [Steady.act_named, cases Registered, cases Owned]
  unfold Hub.resolvePending
  rw [hsettled]
  cases hnamed : (live.turn.act byteLengthOf action now).1.nativeTurnId with
  | none =>
    grind [act]
  | some nativeTurnId =>
    refine h.act byteLengthOf action now hlive ?_
    intro key pending hfound
    obtain ⟨hfound, hkept⟩ := Table.lookup_filter_eq_some.mp hfound
    grind

theorem Registered.actTurn (h : Registered hub) (chatId : String) :
    Registered (hub.actTurn byteLengthOf chatId action now) := by
  unfold Hub.actTurn
  cases hlive : hub.liveTurns.lookup chatId with
  | none => exact h
  | some live =>
    obtain ⟨hsteady, hchat⟩ := h.turns chatId live hlive
    obtain ⟨_, hsame⟩ := act_owner byteLengthOf action now live.turn
    have hrequests : (live.turn.act byteLengthOf action now).1.released = true →
        (live.turn.act byteLengthOf action now).2 = [] := fun hreleased =>
      act_requests_ended byteLengthOf action now (hsteady.act_released hreleased)
    dsimp only
    by_cases hnew : ((live.turn.act byteLengthOf action now).1.released && !live.turn.released) = true
    · grind [release]
    · rw [if_neg hnew]
      have hacted := @Registered.act hub chatId live byteLengthOf action now h hlive
        hub.approvals ?_
      · cases hreleased : (live.turn.act byteLengthOf action now).1.released with
        | true =>
          rw [hrequests hreleased]
          exact hacted
        | false =>
          refine hacted.registerAll ?_ hreleased _
          grind [AList.lookup_insert]
      · grind [cases Registered, cases Owned]

/-! ## Answers -/

theorem answer_cases (registry : ExternalApprovalRegistry) (input : AnswerExternalApprovalInput)
    (now : Nat) :
    ((registry.answer input now).1 = registry ∧ (registry.answer input now).2.2 = none) ∨
      ∃ pending resolution,
        registry.lookup (input.chatId, input.requestId) = some pending ∧
        pending.binding.userId = input.userId ∧
        pending.resolved = none ∧ input.optionId ∈ pending.optionIds ∧
        now < pending.expiresAtMs ∧
        (registry.answer input now).1 = registry.insert (input.chatId, input.requestId)
          { pending with resolved := some resolution } ∧
        (registry.answer input now).2.2 = some pending := by
  grind [ExternalApprovalRegistry.answer]

theorem identified_eq (hub : Hub) (input : AnswerExternalApprovalInput) :
    (hub.identified input).userId = input.userId ∧ (hub.identified input).chatId = input.chatId ∧
      (hub.identified input).requestId = input.requestId ∧
      (hub.identified input).optionId = input.optionId := by
  unfold Hub.identified
  split
  · exact ⟨rfl, rfl, rfl, rfl⟩
  · exact ⟨rfl, rfl, rfl, rfl⟩

theorem Registered.answer (h : Registered hub) (input : AnswerExternalApprovalInput) (now : Nat) :
    Registered (hub.answerApproval input now).1 := by
  obtain ⟨huser, hchat, hrequest, hoption⟩ := identified_eq hub input
  unfold Hub.answerApproval
  rcases hanswer : hub.approvals.answer (hub.identified input) now with
    ⟨approvals, result, forwarded⟩
  have hcases := answer_cases hub.approvals (hub.identified input) now
  rw [hanswer, huser, hchat, hrequest, hoption] at hcases
  dsimp only at hcases ⊢
  rcases hcases with ⟨hsame, hnone⟩ | ⟨pending, resolution, hentry, hbound, hopen, hoffered,
    hunexpired, hmarked, hforwarded⟩
  · subst hsame hnone
    rw [Option.toList_none, List.map_nil, List.append_nil]
    exact h
  · subst hmarked hforwarded
    obtain ⟨registration, live, howned⟩ := h.entries _ pending hentry
    let key := (input.chatId, input.requestId)
    let marked : PendingApproval := { pending with resolved := some resolution }
    have hcases : ∀ other found, (hub.approvals.insert key marked).lookup other = some found →
        (other = key ∧ found = marked) ∨
          (other ≠ key ∧ hub.approvals.lookup other = some found) :=
      fun _ _ => Table.lookup_insert_cases
    refine ⟨h.turns, ?_, ?_, ?_, ?_, ?_⟩
    · intro other found hfound
      rcases hcases other found hfound with ⟨hother, hmarked⟩ | ⟨_, hold⟩
      · subst hother hmarked
        exact ⟨registration, live, { howned with }⟩
      · obtain ⟨registration, owner, howned⟩ := h.entries other found hold
        exact ⟨registration, owner, { howned with }⟩
    · grind [cases Registered]
    · grind [cases Registered]
    · intro forward hmem
      rcases List.mem_append.mp hmem with hbefore | hnew
      · exact h.justified forward hbefore
      · rw [List.mem_singleton.mp hnew]
        refine ⟨registration, live, howned.registered, ?_, howned.current, howned.turn, ?_, ?_, ?_⟩
        all_goals grind [cases Owned]
    · grind [cases Registered]

/-! ## Runs -/

theorem Registered.step (h : Registered hub)
    (timed : HubAction × Nat) : Registered (hub.step byteLengthOf timed) := by
  obtain ⟨action, now⟩ := timed
  cases action with
  | start userId chatId sessionId targetId review steering =>
    exact h.start userId chatId sessionId targetId review steering now
  | turn chatId action => exact h.actTurn byteLengthOf action now chatId
  | answer input => exact h.answer input now
  | leave chatId => exact h.leave chatId

/-- Nobody answers a turn that has its terminal reason. -/
def Timely (hub : Hub) (timed : HubAction × Nat) : Prop :=
  match timed.1 with
  | .answer input => ∀ live, hub.liveTurns.lookup input.chatId = some live →
      live.turn.terminalReason = none
  | _ => True

theorem forwarded_actTurn (hub : Hub) (chatId : String) :
    (hub.actTurn byteLengthOf chatId action now).forwarded = hub.forwarded := by
  have hregister : ∀ (hub : Hub) (live : LiveExternalTurn) (requests : List ExternalApprovalRequest),
      (requests.foldl (fun hub request => hub.register live request) hub).forwarded =
        hub.forwarded := by
    intro hub live requests
    induction requests generalizing hub <;> grind [register]
  have hresolve : ∀ (hub : Hub) (turn : ExternalTurn),
      (hub.resolvePending turn now).forwarded = hub.forwarded := by
    intro hub turn
    unfold Hub.resolvePending
    split
    · rfl
    · rfl
  unfold Hub.actTurn
  cases hub.liveTurns.lookup chatId with
  | none => rfl
  | some live =>
    dsimp only
    split_ifs
    · rw [hresolve, hregister]
    · rw [hregister]

theorem mem_forwarded_step {byteLengthOf : ExternalAgentEvent → Nat} {timed : HubAction × Nat}
    {forward : Forward} (h : forward ∈ (hub.step byteLengthOf timed).forwarded) :
    forward ∈ hub.forwarded ∨
      ∃ input, timed.1 = .answer input ∧ forward.live = hub.liveTurns.lookup input.chatId := by
  obtain ⟨action, now⟩ := timed
  cases action with
  | start userId chatId sessionId targetId review steering =>
    grind [start, step]
  | turn chatId action =>
    left
    change forward ∈ (hub.actTurn byteLengthOf chatId action now).forwarded at h
    rw [forwarded_actTurn] at h
    exact h
  | answer input =>
    rcases List.mem_append.mp h with hbefore | hnew
    all_goals grind
  | leave chatId =>
    grind [leave, step]

/-- In every run, an answer is forwarded only for the user of the live turn that asked,
with an option that was offered, before the request expires, and once for each
registration.  In a run in which nobody answers a turn that has its terminal reason, that
turn has none. -/
theorem forwarded_safe (byteLengthOf : ExternalAgentEvent → Nat)
    (actions : List (HubAction × Nat)) :
    let reached := Run.run (step byteLengthOf) {} actions
    (∀ forward ∈ reached.forwarded, ∃ registration live,
      Justified reached.registrations forward registration live) ∧
    (reached.forwarded.map Forward.registration).Nodup ∧
    (Run.Along (step byteLengthOf) Timely {} actions → ∀ forward ∈ reached.forwarded,
      ∀ live, forward.live = some live → live.turn.terminalReason = none) := by
  intro reached
  have hregistered : Registered reached :=
    Run.run_invariant (fun _ timed hhub => hhub.step byteLengthOf timed) Registered.empty actions
  refine ⟨hregistered.justified, hregistered.once, fun htimely => ?_⟩
  have hstep : ∀ hub, ∀ timed ∈ actions, (∀ forward ∈ hub.forwarded, ∀ live,
      forward.live = some live → live.turn.terminalReason = none) → Timely hub timed →
        ∀ forward ∈ (hub.step byteLengthOf timed).forwarded, ∀ live,
          forward.live = some live → live.turn.terminalReason = none := by
    intro hub timed _ hbefore hanswers forward hmem live hlive
    rcases mem_forwarded_step hmem with hold | ⟨input, haction, hforward⟩
    · exact hbefore forward hold live hlive
    · unfold Timely at hanswers
      rw [haction] at hanswers
      exact hanswers live (hforward.symm.trans hlive)
  exact Run.run_invariant_along hstep (fun _ hmem => nomatch hmem) htimely

/-- In every run, an approval that waits belongs to the live turn of its chat, for the user and
with the options and the expiry of the request; no other entry is about the same request; and
one whose answer was forwarded is resolved. -/
theorem registry_has_no_orphan (byteLengthOf : ExternalAgentEvent → Nat)
    (actions : List (HubAction × Nat)) :
    let reached := Run.run (step byteLengthOf) {} actions
    ∀ key pending, reached.approvals.lookup key = some pending →
      (∃ registration live, Owned reached key pending registration live) ∧
      (∀ other second, reached.approvals.lookup other = some second →
        pending.registration = second.registration → key = other) ∧
      ∀ forward ∈ reached.forwarded, pending.registration = forward.registration →
        pending.resolved.isSome = true := by
  intro reached key pending hpending
  have hregistered : Registered reached :=
    Run.run_invariant (fun _ timed hhub => hhub.step byteLengthOf timed) Registered.empty actions
  refine ⟨hregistered.entries key pending hpending, ?_, ?_⟩
  · intro other second hsecond hsame
    exact hregistered.apart key pending other second hpending hsecond hsame
  · intro forward hforward hsame
    exact hregistered.answered forward hforward key pending hpending hsame

/-- The request of a vendor for one of two options. -/
def sampleRequest : ExternalApprovalRequest where
  requestId := "request"
  kind := .command
  title := "Run the tests?"
  options := [{ id := "allow", isDestructive := false }, { id := "deny", isDestructive := false }]
  expiresAtMs := 1000

/-- A turn that is accepted and asks. -/
def askingTurn : List (HubAction × Nat) :=
  [(.start "user" "chat" "session" .codex false true, 0),
    (.turn "chat" (.submission (.accepted "turn" true)), 1),
    (.turn "chat" (.envelope (.apply (.approvalRequested sampleRequest) 1)), 2)]

def sampleAnswer : AnswerExternalApprovalInput where
  userId := "user"
  chatId := "chat"
  requestId := "request"
  optionId := "allow"

theorem forwarded_safe_answered :
    let reached := Run.run (step fun _ => 64) {} (askingTurn ++ [(.answer sampleAnswer, 3)])
    reached.forwarded.map Forward.optionId = ["allow"] ∧
      ∀ forward ∈ reached.forwarded, ∀ live, forward.live = some live →
        live.turn.terminalReason = none := by
  refine ⟨by decide, ?_⟩
  refine (forwarded_safe (fun _ => 64) (askingTurn ++ [(.answer sampleAnswer, 3)])).2.2 ?_
  refine ⟨trivial, trivial, trivial, ?_, trivial⟩
  intro live hlive
  rw [← Option.some.inj hlive]
  rfl

/-- The user stops the turn, and an answer that arrives before the turn has dropped its
entries is still forwarded. -/
theorem forwarded_after_stop :
    let reached := Run.run (step fun _ => 64) {} (askingTurn ++
      [(.turn "chat" (.abort .userCancelled), 3), (.answer sampleAnswer, 4)])
    reached.forwarded.map (fun forward =>
      (forward.optionId, forward.live.bind fun live => live.turn.terminalReason)) =
        [("allow", some .cancelledByUser)] := by
  decide

end MangoStudio.ExternalAgents.Hub
