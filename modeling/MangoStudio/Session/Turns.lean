import MangoStudio.Session.TypeScript

/-!
# Turns that are about something else

A property of the requests that a session answers, or of the events that it
publishes, has to survive every turn of the event loop, and most turns have
nothing to do with it.  `Aside` is what those turns do between two teardowns:
they keep the state, the peer, the active requests, the stream counters and
the headers of the dispatches, and the frames they send are neither answers
nor events.

`Quiet` adds what the limits need: what such a turn may send, and that it does
not make the session ready.  `step_quiet` is the rule for these turns,
`receiveHello_quiet` the one for a hello, which can also complete the handshake,
and `construct_quiet` the one for the constructor.  `emit_keeps` and
`handlerSettled_keeps` are the rules for an event and for an answer.
-/

namespace MangoStudio.Protocol.Ts

open Session

variable {σ : Type}

/-- What changes in a dispatch only by its settlement. -/
def Dispatch.header (dispatch : Dispatch) : Request × Bool := (dispatch.request, dispatch.settled)

/-- A frame that is neither an answer nor an event. -/
def Sent.aside (sent : Sent) : Bool :=
  match sent.origin, sent.frame with
  | .call _, .req _ => true
  | .call _, .cancel _ => true
  | .session, .hello _ => true
  | .session, .ping => true
  | .session, .pong => true
  | _, _ => false

/-- A change that is about neither the dispatches nor the streams. -/
structure Aside (before after : Session σ) : Prop where
  state : after.state = before.state
  remote : after.remote = before.remote
  active : after.active = before.active
  eventSequences : after.eventSequences = before.eventSequences
  headers : ∀ n : Nat, after.dispatches[n]?.map Dispatch.header =
    before.dispatches[n]?.map Dispatch.header
  sent : ∃ added : List Sent, after.sent = before.sent ++ added ∧
    ∀ sent ∈ added, Sent.aside sent = true

/-- What such a turn may send: a request within the limit once the handshake is complete, and the
hello of the session itself. -/
def Permitted (config : Config) (session : Session σ) : Frame → Prop
  | .req request => (∃ remote, session.ready = some (.ok remote)) ∧
      measureFrameBytes (.req request) ≤ session.sendLimit config
  | .hello greeting => greeting = buildHello config
  | .evt _ => False
  | .res _ => False
  | _ => True

/-- The two states have the same calls and the same pending map. -/
structure SameRequests (before after : Session σ) : Prop where
  pending : after.pending = before.pending
  calls : after.calls = before.calls
  sequence : after.requestSequence = before.requestSequence
  state : after.state = before.state ∨ (before.state = .handshaking ∧ after.state = .ready)

/-- A call keeps its id, its registration and its outcome. -/
structure Call.Extends (before after : Call) : Prop where
  id : ∀ id, before.id = some id → after.id = some id
  registered : before.registered = true → after.registered = true
  outcome : ∀ outcome, before.outcome = some outcome → after.outcome = some outcome

theorem Call.Extends.refl (call : Call) : call.Extends call :=
  ⟨fun _ h => h, fun h => h, fun _ h => h⟩

theorem Call.extends_settle (call : Call) (outcome : Outcome) :
    call.Extends (call.settle outcome) :=
  ⟨fun _ h => h, fun h => h, fun kept hkept => by simp [Call.settle, hkept]⟩

theorem Call.extends_cleanup_settle (call : Call) (outcome : Outcome) :
    call.Extends (call.cleanup.settle outcome) :=
  ⟨fun _ h => h, fun h => h, fun kept hkept => by simp [Call.settle, Call.cleanup, hkept]⟩

/-- Every call keeps what it has. -/
def Grows (before after : List Call) : Prop :=
  ∀ (n : Nat) call, before[n]? = some call → ∃ later, after[n]? = some later ∧ call.Extends later

theorem Grows.refl (calls : List Call) : Grows calls calls :=
  fun _ call hcall => ⟨call, hcall, Call.Extends.refl call⟩

theorem Grows.trans {first second third : List Call} (h : Grows first second)
    (h' : Grows second third) : Grows first third := by
  intro n call hcall
  obtain ⟨between, hbetween, hextends⟩ := h n call hcall
  obtain ⟨later, hlater, hextends'⟩ := h' n between hbetween
  exact ⟨later, hlater, fun id hid => hextends'.id id (hextends.id id hid),
    fun hreg => hextends'.registered (hextends.registered hreg),
    fun outcome hout => hextends'.outcome outcome (hextends.outcome outcome hout)⟩

variable {calls : List Call} {n : Nat}

theorem grows_modify {change : Call → Call}
    (hchange : ∀ call, calls[n]? = some call → call.Extends (change call)) :
    Grows calls (calls.modify n change) := by
  intro m call hcall
  grind [Call.Extends.refl]

theorem grows_append (call : Call) : Grows calls (calls ++ [call]) := by
  intro n earlier hearlier
  refine ⟨earlier, ?_, Call.Extends.refl earlier⟩
  rw [List.getElem?_append_left (List.getElem?_eq_some_iff.mp hearlier).1]
  exact hearlier

theorem grows_settle (outcome : Outcome) : Grows calls (calls.modify n (Call.settle outcome)) :=
  grows_modify fun call _ => call.extends_settle outcome

/-- A change of a turn that is aside, and that leaves the calls alone where `leaves` says so. -/
structure Quiet (config : Config) (leaves : Bool) (before after : Session σ) : Prop
    extends Aside before after where
  ready : ∀ remote, after.ready = some (.ok remote) → before.ready = some (.ok remote)
  permitted : ∀ sent ∈ after.sent, sent ∈ before.sent ∨ Permitted config before sent.frame
  same : leaves = true → SameRequests before after
  grows : Grows before.calls after.calls

/-- The fields that such a change keeps, apart from those of the calls. -/
def Session.peerSide (session : Session σ) :=
  (session.state, session.remote, session.active, session.eventSequences, session.dispatches,
    session.sent, session.ready)

def Session.callSide (session : Session σ) :=
  (session.pending, session.calls, session.requestSequence)

variable {port : Port σ} {config : Config} {session : Session σ}

variable {leaves : Bool} {origin : Origin} {frame : Frame} {after : Session σ}

theorem SameRequests.of_callSide (hcalls : after.callSide = session.callSide)
    (hstate : after.state = session.state) : SameRequests session after := by
  simp only [callSide, Prod.mk.injEq] at hcalls
  exact ⟨hcalls.1, hcalls.2.1, hcalls.2.2, .inl hstate⟩

theorem Quiet.of_calls (hleaves : leaves = false) (hpeer : after.peerSide = session.peerSide)
    (hgrows : Grows session.calls after.calls) : Quiet config leaves session after := by
  simp only [peerSide, Prod.mk.injEq] at hpeer
  obtain ⟨hstate, hremote, hactive, hsequences, hdispatches, hsent, hready⟩ := hpeer
  exact ⟨⟨hstate, hremote, hactive, hsequences, fun n => by rw [hdispatches], [],
    by simp [hsent]⟩, fun remote h => hready ▸ h, fun sent h => .inl (hsent ▸ h),
    fun h => by simp [hleaves] at h, hgrows⟩

theorem Quiet.of_fields (hpeer : after.peerSide = session.peerSide)
    (hcalls : after.callSide = session.callSide) : Quiet config leaves session after := by
  have hsame : SameRequests session after := .of_callSide hcalls (Prod.mk.inj hpeer).1
  have hquiet : Quiet config false session after :=
    .of_calls rfl hpeer (hsame.calls ▸ Grows.refl _)
  exact ⟨hquiet.toAside, hquiet.ready, hquiet.permitted, fun _ => hsame, hquiet.grows⟩

theorem Quiet.afterSend (hframe : Sent.aside ⟨origin, frame⟩ = true)
    (hpermitted : Permitted config session frame) :
    Quiet config leaves session (session.afterSend port origin frame) := by
  refine ⟨⟨rfl, rfl, rfl, rfl, fun _ => rfl, _, rfl, ?_⟩, fun _ h => h, ?_, fun _ =>
    .of_callSide rfl rfl, Grows.refl _⟩
  · grind
  · grind [Session.afterSend]

theorem Quiet.settleReady (error : RemoteError) :
    Quiet config leaves session (session.settleReady (.error error)) := by
  refine ⟨⟨rfl, rfl, rfl, rfl, fun _ => rfl, [], by simp [Session.settleReady]⟩, ?_,
    fun _ h => .inl h, fun _ => .of_callSide rfl rfl, Grows.refl _⟩
  intro remote hready
  cases hbefore : session.ready <;> grind [Session.settleReady]

theorem header_abort (dispatches : List Dispatch) (n m : Nat) :
    (dispatches.modify n Dispatch.abort)[m]?.map Dispatch.header =
      dispatches[m]?.map Dispatch.header := by
  rw [List.getElem?_modify]
  cases dispatches[m]? with
  | none => rfl
  | some dispatch =>
    simp only [Option.map_eq_map, Option.map_some]
    split_ifs <;> rfl

theorem header_abortActive (session : Session σ) (n : Nat) :
    session.abortActive[n]?.map Dispatch.header = session.dispatches[n]?.map Dispatch.header := by
  unfold abortActive Correlation.sweep
  induction session.active.entries.reverse generalizing session with
  | nil => rfl
  | cons entry rest ih =>
    rw [List.foldl_cons]
    have := ih { session with dispatches := session.dispatches.modify entry.2 Dispatch.abort }
    exact this.trans (header_abort session.dispatches entry.2 n)

/-- The inputs that are about neither the dispatches nor the streams, and that
complete no handshake. -/
def Input.aside : Input → Bool
  | .receive (.hello _) => false
  | .receive (.req _) => false
  | .handlerSettled _ _ => false
  | .emit _ => false
  | _ => true

/-- The inputs that are not about a request of this side. -/
def Input.leavesCalls : Input → Bool
  | .receive (.res _) => false
  | .receive (.err _) => false
  | .request _ _ _ => false
  | .resume _ => false
  | .abort _ => false
  | .timeout _ => false
  | _ => true

theorem measure_le_of_assertFits {what : String}
    (h : session.assertFits config frame what = .ok ()) :
    measureFrameBytes frame ≤ session.sendLimit config := by
  unfold assertFits at h
  split_ifs at h with hfits
  exact hfits

section Rules

variable {inv : Session σ → Prop}
  (hteardown : ∀ session closure, inv session → inv (session.teardown closure))
  (hquiet : ∀ before after, inv before → Quiet config leaves before after → inv after)

include hteardown hquiet

section

variable (hframe : Sent.aside ⟨origin, frame⟩ = true) (hpermitted : Permitted config session frame)
  (h : inv session)

include hframe hpermitted h

theorem send_quiet : inv (session.send port origin frame).1 :=
  send_keeps hteardown (hquiet _ _ h (.afterSend hframe hpermitted))

theorem trySend_quiet : inv (session.trySend port origin frame) :=
  trySend_keeps hteardown h (hquiet _ _ h (.afterSend hframe hpermitted))

end

theorem closeNow_quiet (code : Nat) (reason : Option String) (h : inv session) :
    inv (session.closeNow port code reason) :=
  closeNow_keeps hteardown h (hquiet _ _ h (.of_fields rfl rfl))

theorem failHandshake_quiet (error : RemoteError) (code : Nat) (reason : String)
    (h : inv session) : inv (session.failHandshake port error code reason) :=
  closeNow_quiet hteardown hquiet _ _ (hquiet _ _ h (.settleReady error))

theorem register_quiet (hleaves : leaves = false) (n : Nat) {call : Call} {id : String}
    (hpermitted : Permitted config session (.req ⟨id, call.method, call.params⟩))
    (h : inv session) : inv (session.register port n call id) := by
  have hsent : inv ((session.enter n call.method id).send port (.call n)
      (.req ⟨id, call.method, call.params⟩)).1 :=
    send_quiet hteardown hquiet rfl hpermitted (hquiet _ _ h (.of_calls hleaves rfl
      (grows_modify fun _ _ => ⟨fun _ h => h, fun _ => rfl, fun _ h => h⟩)))
  unfold register
  simp only
  split
  · exact hquiet _ _ hsent (.of_calls hleaves rfl
      (grows_modify fun call _ => call.extends_cleanup_settle _))
  · split_ifs
    · exact trySend_quiet hteardown hquiet rfl trivial hsent
    · exact hsent

theorem proceed_quiet (hleaves : leaves = false) {call : Call} (hcall : session.calls[n]? = some call)
    (hid : call.id = none) {remote : RemotePeer} (hready : session.ready = some (.ok remote))
    (h : inv session) : inv (session.proceed port config n call remote) := by
  have hissued : inv (session.issue config n) := by
    refine hquiet _ _ h (.of_calls hleaves rfl (grows_modify fun other hother => ?_))
    obtain rfl := Option.some.inj (hcall.symm.trans hother)
    exact ⟨fun id hsome => by simp [hid] at hsome, fun h => h, fun _ h => h⟩
  unfold proceed
  split_ifs
  · exact hquiet _ _ h (.of_calls hleaves rfl (grows_settle _))
  · exact hquiet _ _ h (.of_calls hleaves rfl (grows_settle _))
  · simp only
    split
    · exact hquiet _ _ hissued (.of_calls hleaves rfl (grows_settle _))
    · rename_i hfits
      exact register_quiet hteardown hquiet hleaves n
        ⟨⟨remote, hready⟩, measure_le_of_assertFits hfits⟩ hissued

omit hquiet in
theorem step_quiet {input : Input}
    (hquiet : ∀ before after, inv before → Quiet config input.leavesCalls before after → inv after)
    (hinput : input.aside = true) (h : inv session) : inv (session.step port config input) := by
  cases input with
  | receive frame =>
    simp only [step, Session.receive]
    split_ifs
    · exact h
    · cases frame with
      | hello | req => simp [Input.aside] at hinput
      | res | err =>
        simp only [settle]
        split
        · exact h
        · exact hquiet _ _ h (.of_calls rfl rfl (grows_modify fun call _ =>
            call.extends_cleanup_settle _))
      | evt event => exact h
      | cancel target =>
        simp only
        split
        · exact h
        · exact hquiet _ _ h ⟨⟨rfl, rfl, rfl, rfl, header_abort session.dispatches _, [], by simp⟩,
            fun _ h => h, fun _ h => .inl h, fun _ => .of_callSide rfl rfl, Grows.refl _⟩
      | ping => exact trySend_quiet hteardown hquiet rfl trivial h
      | pong => exact hquiet _ _ h (.of_fields rfl rfl)
      | close farewell =>
        exact hteardown _ _ (hquiet _ _ h (.of_fields rfl rfl))
  | portClosed closure =>
    obtain ⟨ended, hended⟩ := handlePortClosed_eq session closure
    rw [step, hended]
    exact hteardown _ _ h
  | handlerSettled | emit => simp [Input.aside] at hinput
  | request method params timeoutMs =>
    exact hquiet _ _ h (.of_calls rfl rfl (grows_append _))
  | resume n =>
    simp only [step, resume]
    split
    · rename_i hcall hready
      split_ifs with hdone
      · exact h
      · simp only [Bool.or_eq_true, not_or, Option.not_isSome_iff_eq_none] at hdone
        split
        · exact hquiet _ _ h (.of_calls rfl rfl (grows_settle _))
        · exact proceed_quiet hteardown hquiet rfl hcall hdone.1 hready h
    · exact h
  | abort n =>
    have haborted : inv (session.updateCall n fun call =>
        { call with aborted := true, listening := false }) :=
      hquiet _ _ h (.of_calls rfl rfl (grows_modify fun _ _ =>
        ⟨fun _ h => h, fun h => h, fun _ h => h⟩))
    simp only [step, abort]
    split
    · exact h
    · split_ifs
      · exact h
      · split
        · exact trySend_quiet hteardown hquiet rfl trivial haborted
        · exact haborted
  | timeout n =>
    simp only [step, timeout]
    split
    · exact h
    · split
      · rename_i id _ _
        split_ifs
        · have hexpired : inv (session.expire n id) := hquiet _ _ h (.of_calls rfl rfl
            (grows_modify fun _ _ => ⟨fun _ h => h, fun h => h, fun _ h => h⟩))
          have hsent : inv ((session.expire n id).trySend port (.call n) (.cancel ⟨id⟩)) :=
            trySend_quiet hteardown hquiet rfl trivial hexpired
          exact hquiet _ _ hsent (.of_calls rfl rfl (grows_settle _))
        · exact h
      · exact h
  | ping => exact send_quiet hteardown hquiet rfl trivial h
  | livenessTick =>
    simp only [step, livenessTick]
    split_ifs
    · exact h
    · exact closeNow_quiet hteardown hquiet _ _ h
    · exact trySend_quiet hteardown hquiet rfl trivial
        (hquiet _ _ h (.of_fields rfl rfl))
  | handshakeTimeout =>
    simp only [step, handshakeTimeout]
    split_ifs
    · exact h
    · exact failHandshake_quiet hteardown hquiet _ _ _ h
  | closeNow code reason => exact closeNow_quiet hteardown hquiet _ _ h
  | handle method handler => exact hquiet _ _ h (.of_fields rfl rfl)
  | unhandle method handler =>
    simp only [step]
    split_ifs
    · exact hquiet _ _ h (.of_fields rfl rfl)
    · exact h

omit hquiet in
theorem receiveHello_quiet
    (hquiet : ∀ before after, inv before → Quiet config true before after → inv after)
    (greeting : Hello) (h : inv session)
    (hwelcome : ∀ effectiveMinor, session.state = .handshaking →
      negotiate config.localProtocol greeting.protocol = .compatible effectiveMinor →
      inv (session.welcome config greeting effectiveMinor)) :
    inv (session.step port config (.receive (.hello greeting))) := by
  simp only [step, Session.receive]
  split_ifs
  · exact h
  · simp only [receiveHello]
    split_ifs with hstate
    · exact closeNow_quiet hteardown hquiet _ _ h
    · split
      · exact failHandshake_quiet hteardown hquiet _ _ _ h
      · rename_i effectiveMinor hnegotiated
        exact hwelcome effectiveMinor (not_not.mp hstate) hnegotiated

omit hquiet in
theorem construct_quiet
    (hquiet : ∀ before after, inv before → Quiet config true before after → inv after) (state : σ)
    (hfresh : inv ({ port := state, handlers := config.handlers } : Session σ)) :
    inv (construct port config state) := by
  have hsent : inv (send port { port := state, handlers := config.handlers } .session
      (.hello (buildHello config))).1 := send_quiet hteardown hquiet rfl rfl hfresh
  unfold construct
  simp only
  split
  · exact failHandshake_quiet hteardown hquiet _ _ _ hsent
  · exact hquiet _ _ hsent (.of_fields rfl rfl)

end Rules

section Answers

variable {inv : Session σ → Prop}

/-- An event: it is sent by a session that is ready, within its limit, and then counted. -/
theorem emit_keeps {event : EventInput} (h : inv session)
    (hsend : session.state = .ready →
      measureFrameBytes (.evt (session.nextEvent event)) ≤ session.sendLimit config →
      inv (session.send port .emit (.evt (session.nextEvent event))).1)
    (hcommit : ∀ sent seq, inv sent → inv (sent.commitEvent event seq)) :
    inv (session.emit port config event).1 := by
  unfold emit
  split_ifs with hstate
  · exact h
  · exact h
  · split
    · exact h
    · rename_i hfits
      have hsent := hsend (not_not.mp hstate) (measure_le_of_assertFits hfits)
      simp only
      split
      · exact hsent
      · exact hcommit _ _ hsent

/-- The end of a handler: a dispatch that runs is answered, by a result only within the limit. -/
theorem handlerSettled_keeps {n : Nat} {outcome : HandlerOutcome} (h : inv session)
    (hanswer : ∀ dispatch, session.dispatches[n]? = some dispatch → dispatch.settled = false →
      ∀ frame, (∃ id error, frame = .err ⟨id, error⟩) ∨ (∃ id result, frame = .res ⟨id, result⟩) ∧
        measureFrameBytes frame ≤ session.sendLimit config →
      inv ((session.trySend port (.dispatch n) frame).settleDispatch n))
    (hsettle : inv (session.settleDispatch n))
    (herase : ∀ answered id, inv answered →
      inv { answered with active := answered.active.erase id }) :
    inv (session.handlerSettled port config n outcome) := by
  unfold handlerSettled
  split
  · exact h
  · rename_i dispatch hdispatch
    split_ifs with hsettled
    · exact h
    · rw [Bool.not_eq_true] at hsettled
      cases outcome with
      | threw error => exact herase _ _ (hanswer _ hdispatch hsettled _ (.inl ⟨_, _, rfl⟩))
      | returned result =>
        simp only [respondResult]
        split_ifs with hlarge
        · exact herase _ _ (hanswer _ hdispatch hsettled _ (.inl ⟨_, _, rfl⟩))
        · exact herase _ _ (hanswer _ hdispatch hsettled _
            (.inr ⟨⟨_, _, rfl⟩, not_lt.mp hlarge⟩))
      | threwUnserialisable => exact herase _ _ hsettle

end Answers

end MangoStudio.Protocol.Ts
