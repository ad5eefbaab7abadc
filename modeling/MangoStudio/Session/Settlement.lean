import MangoStudio.Session.Turns

/-!
# Every request settles once

The requests that a TypeScript session sends.  A call of `request` that passes
its checks enters the pending map under a fresh id, and five things race for
the entry: the peer's answer, the deadline, a `send` that throws, an abort and
the teardown.

* `Consistent` is the invariant: the pending map points to exactly the calls
  that are registered and not settled (`Correlation.Correlates`), every id was
  issued from the counter, no two calls have one id, and a closed session has
  an empty map.  `Consistent.step` carries it through every turn.
* `Grows` is what a turn may do to a call: it may not take back an id or an
  outcome.
* `Stranded` is what the end of a session does to the calls that are still
  open: each is rejected with `UNAVAILABLE`.

A deadline takes its entry out of the map, asks the peer to stop, and rejects
the promise after that.  If the port closes while it is asked, the teardown
runs with that call out of the map and not settled yet.  The parameter `busy`
of `Consistent` is that call.
-/

namespace MangoStudio.Protocol.Ts

open Session Call Option AList

variable {σ : Type}

/-! ## The invariant -/

/-- The id of a request, counted from zero. -/
def requestId (config : Config) (k : Nat) : String := s!"{config.requestIdPrefix}-{k + 1}"

theorem requestId_injective {config : Config} {j k : Nat}
    (h : requestId config j = requestId config k) : j = k := by
  grind [String.append_right_inj, Nat.repr_inj, requestId]

/-- What a call never gives back: its id, and that it was registered. -/
def Call.header (call : Call) : Option String × Bool := (call.id, call.registered)

/-- The id under which a call is in the pending map. -/
def heldId (busy : Option Nat) (n : Nat) (call : Call) : Option String :=
  if busy = some n then none
  else if call.registered && call.outcome.isNone then call.id else none

variable {n : Nat} {call : Call} {id : String} {busy : Option Nat}

theorem heldId_eq_some :
    heldId busy n call = some id ↔
      busy ≠ some n ∧ call.registered = true ∧ call.outcome = none ∧ call.id = some id := by
  unfold heldId
  by_cases hbusy : busy = some n
  · simp [hbusy]
  · simp [hbusy, and_assoc]

theorem heldId_eq_of {before after : Call} (hheader : after.header = before.header)
    (houtcome : after.outcome = before.outcome) :
    heldId busy n after = heldId busy n before := by
  obtain ⟨hid, hregistered⟩ := Prod.mk.inj hheader
  unfold heldId
  rw [hid, hregistered, houtcome]

theorem heldId_settled (h : call.outcome.isSome = true) : heldId busy n call = none := by
  unfold heldId
  cases houtcome : call.outcome with
  | none => simp [houtcome] at h
  | some outcome => simp

theorem heldId_unregistered (h : call.registered = false) : heldId busy n call = none := by
  unfold heldId
  simp [h]

/-- The pending map and the calls agree. -/
structure Consistent (config : Config) (busy : Option Nat) (session : Session σ) : Prop where
  correlates : Correlation.Correlates PendingRequest.call (heldId busy) session.pending
    session.calls
  issued : ∀ (n : Nat) id, session.calls[n]?.bind Call.id = some id →
    ∃ k, k < session.requestSequence ∧ id = requestId config k
  distinct : ∀ (m n : Nat) id, session.calls[m]?.bind Call.id = some id →
    session.calls[n]?.bind Call.id = some id → m = n
  named : ∀ (n : Nat) call, session.calls[n]? = some call → call.registered = true →
    call.id.isSome = true
  closed : session.state = .closed → session.pending = ∅

variable {port : Port σ} {config : Config} {busy : Option Nat} {session : Session σ}

theorem bind_id_eq_of_header {before after : List Call}
    (h : after[n]?.map Call.header = before[n]?.map Call.header) :
    after[n]?.bind Call.id = before[n]?.bind Call.id := by
  have hheader := congrArg (bind · Prod.fst) h
  simpa [bind_map, Function.comp_def, Call.header] using hheader

theorem Consistent.rebuild {busy' : Option Nat} {after : Session σ}
    (h : Consistent config busy session)
    (hcorrelates : Correlation.Correlates PendingRequest.call (heldId busy') after.pending
      after.calls)
    (hheaders : ∀ n : Nat, after.calls[n]?.map Call.header = session.calls[n]?.map Call.header)
    (hsequence : after.requestSequence = session.requestSequence)
    (hclosed : after.state = .closed → after.pending = ∅) : Consistent config busy' after := by
  have hids : ∀ n : Nat, after.calls[n]?.bind Call.id = session.calls[n]?.bind Call.id :=
    fun n => bind_id_eq_of_header (hheaders n)
  refine ⟨hcorrelates, ?_, ?_, ?_, hclosed⟩
  · grind [cases Consistent]
  · grind [cases Consistent]
  · grind [Call.header, cases Consistent]

theorem Consistent.congr {after : Session σ} (h : Consistent config busy session)
    (hpending : after.pending = session.pending) (hcalls : after.calls = session.calls)
    (hsequence : after.requestSequence = session.requestSequence)
    (hstate : after.state = .closed → session.state = .closed) :
    Consistent config busy after := by
  refine h.rebuild ?_ ?_ hsequence ?_
  all_goals grind [cases Consistent]

/-! ### Headers survive -/

variable {calls : List Call}

theorem header_modify {change : Call → Call} (hchange : ∀ call, (change call).header = call.header)
    (m : Nat) :
    (calls.modify n change)[m]?.map Call.header = calls[m]?.map Call.header := by
  grind

theorem header_sweep {ι : Type} (place : ι → Nat) {change : String → ι → Call → Call}
    (hchange : ∀ id entry call, (change id entry call).header = call.header)
    (table : Table String ι) (calls : List Call) (m : Nat) :
    (Correlation.sweep place change table calls)[m]?.map Call.header =
      calls[m]?.map Call.header := by
  unfold Correlation.sweep
  induction table.entries.reverse generalizing calls <;> grind

@[simp] theorem Call.settle_outcome_isSome (outcome : Outcome) (call : Call) :
    (call.settle outcome).outcome.isSome = true := rfl

/-! ### The turns -/

section

variable (h : Consistent config busy session)

include h

theorem Consistent.teardown (closure : SessionClosure) :
    Consistent config busy (session.teardown closure) := by
  by_cases hclosed : session.state = .closed
  · rwa [teardown_of_closed hclosed]
  · rw [teardown_of_open hclosed]
    refine h.rebuild ?_ ?_ rfl fun _ => rfl
    · show Correlation.Correlates PendingRequest.call (heldId busy) ∅
        (session.rejectPending closure)
      apply h.correlates.clear
      intro n id pending call
      exact heldId_settled (settle_outcome_isSome _ _)
    · intro n
      show (session.rejectPending closure)[n]?.map Call.header = _
      apply header_sweep
      intro id pending call
      rfl

theorem Consistent.afterSend (origin : Origin) (frame : Frame) :
    Consistent config busy (session.afterSend port origin frame) :=
  h.congr rfl rfl rfl id

theorem Consistent.send (origin : Origin) (frame : Frame) :
    Consistent config busy (session.send port origin frame).1 :=
  send_keeps (fun _ closure h => h.teardown closure) (h.afterSend origin frame)

theorem Consistent.trySend (origin : Origin) (frame : Frame) :
    Consistent config busy (session.trySend port origin frame) :=
  trySend_keeps (fun _ closure h => h.teardown closure) h (h.afterSend origin frame)

theorem Consistent.updateCall {change : Call → Call}
    (hheader : ∀ call, (change call).header = call.header)
    (houtcome : ∀ call, (change call).outcome = call.outcome) :
    Consistent config busy (session.updateCall n change) := by
  refine h.rebuild ?_ (header_modify hheader) rfl h.closed
  exact h.correlates.modify fun call _ => heldId_eq_of (hheader call) (houtcome call)

theorem Consistent.settleCall {outcome : Outcome}
    (hfree : ∀ call, session.calls[n]? = some call → heldId busy n call = none) :
    Consistent config busy (session.updateCall n (Call.settle outcome)) := by
  refine h.rebuild ?_ (header_modify fun _ => rfl) rfl h.closed
  refine h.correlates.modify fun call hcall => ?_
  rw [hfree call hcall]
  exact heldId_settled rfl

end

theorem Consistent.request (h : Consistent config none session) (method : String)
    (params : Json) (timeoutMs : Option Nat) :
    Consistent config none (session.request method params timeoutMs) := by
  unfold Session.request
  -- the new call is the last one and has neither an id nor an entry
  have hsplit : ∀ {call : Call} {n : Nat} {id : String}, call.id = none →
      (session.calls ++ [call])[n]?.bind Call.id = some id →
      session.calls[n]?.bind Call.id = some id := by
    grind
  refine ⟨h.correlates.append (heldId_unregistered rfl), ?_, ?_, ?_, h.closed⟩
  all_goals grind [cases Consistent]

theorem bind_id_modify (m : Nat) :
    (calls.modify n fun call => { call with id := some id })[m]?.bind Call.id =
      if n = m then calls[m]?.bind (fun _ => some id) else calls[m]?.bind Call.id := by
  rw [List.getElem?_modify]
  cases calls[m]? with
  | none => simp
  | some call => by_cases hn : n = m <;> simp [hn]

theorem Consistent.unregistered (h : Consistent config busy session)
    (hcall : session.calls[n]? = some call) (hid : call.id = none) : call.registered = false := by
  grind [cases Consistent]

theorem Consistent.issue (h : Consistent config none session)
    (hcall : session.calls[n]? = some call) (hid : call.id = none) :
    Consistent config none (session.issue config n) := by
  have hunregistered : call.registered = false := h.unregistered hcall hid
  -- no call has the next id yet
  have hfresh : ∀ m : Nat, session.calls[m]?.bind Call.id ≠ some (session.nextId config) := by
    intro m hm
    obtain ⟨k, hk, heq⟩ := h.issued m _ hm
    have hsame : session.requestSequence = k := requestId_injective heq
    omega
  refine ⟨?_, ?_, ?_, ?_, h.closed⟩
  · refine h.correlates.modify fun other hother => ?_
    grind [heldId_unregistered]
  · intro m id hm
    show ∃ k, k < session.requestSequence + 1 ∧ _
    rw [Session.issue, Session.updateCall, bind_id_modify] at hm
    by_cases hn : n = m
    · subst hn
      rw [if_pos rfl, hcall, bind_some, some.injEq] at hm
      exact ⟨session.requestSequence, by omega, hm.symm⟩
    · grind [cases Consistent]
  · intro m m' id hm hm'
    rw [Session.issue, Session.updateCall, bind_id_modify] at hm hm'
    grind [cases Consistent]
  · intro m other hother hregistered
    rw [Session.issue, Session.updateCall, List.getElem?_modify] at hother
    grind [cases Consistent]

theorem Consistent.enter (h : Consistent config none session) {id method : String}
    (hopen : session.state ≠ .closed) (hcall : session.calls[n]? = some call)
    (hid : call.id = some id) (hunregistered : call.registered = false)
    (houtcome : call.outcome = none) :
    Consistent config none (session.enter n method id) := by
  have hheaders : ∀ m : Nat, (session.enter n method id).calls[m]?.bind Call.id =
      session.calls[m]?.bind Call.id := by
    grind [Session.enter, Session.updateCall]
  -- only this call has the id, and it holds no entry
  have hfree : session.pending.lookup id = none := by
    grind [Correlation.Correlates.lookup_eq_none, heldId_eq_some, cases Consistent]
  refine ⟨?_, ?_, ?_, ?_, fun hclosed => absurd hclosed hopen⟩
  · refine h.correlates.insert (lookup_eq_none.mp hfree) hcall
      (heldId_unregistered hunregistered) ?_
    exact heldId_eq_some.mpr ⟨by simp, rfl, houtcome, hid⟩
  · simp only [hheaders]
    exact h.issued
  · simp only [hheaders]
    exact h.distinct
  · intro m other hother hregistered
    rw [Session.enter, Session.updateCall, List.getElem?_modify] at hother
    grind [cases Consistent]

theorem header_teardown (session : Session σ) (closure : SessionClosure) (n : Nat) :
    (session.teardown closure).calls[n]?.map Call.header =
      session.calls[n]?.map Call.header := by
  by_cases hclosed : session.state = .closed
  · rw [teardown_of_closed hclosed]
  · rw [teardown_of_open hclosed]
    show (session.rejectPending closure)[n]?.map Call.header = _
    apply header_sweep
    intro id pending call
    rfl

theorem header_send (session : Session σ) (origin : Origin) (frame : Frame) (n : Nat) :
    (session.send port origin frame).1.calls[n]?.map Call.header =
      session.calls[n]?.map Call.header := by
  refine @Session.send_keeps _ port session origin frame
    (fun after => after.calls[n]?.map Call.header = session.calls[n]?.map Call.header) ?_ ?_
  · intro between closure hbetween
    rw [header_teardown, hbetween]
  · rfl

theorem Consistent.entry_call (h : Consistent config busy session) {pending : PendingRequest}
    (hid : session.calls[n]?.bind Call.id = some id)
    (hlookup : session.pending.lookup id = some pending) : pending.call = n := by
  have hheld := (h.correlates id pending.call).mp (by rw [hlookup]; rfl)
  grind [heldId_eq_some, cases Consistent]

theorem Consistent.free_of_lookup (h : Consistent config busy session)
    (hcall : session.calls[n]? = some call) (hid : call.id = some id)
    (hlookup : session.pending.lookup id = none) : heldId busy n call = none := by
  cases hheld : heldId busy n call with
  | none => rfl
  | some other =>
    have hsame : other = id := by
      grind [heldId]
    subst hsame
    have hpoints := (h.correlates other n).mpr (by rw [hcall]; exact hheld)
    rw [hlookup] at hpoints
    exact absurd hpoints (by simp)

section

variable (h : Consistent config none session)

include h

theorem Consistent.withdraw {outcome : Outcome} (hid : session.calls[n]?.bind Call.id = some id) :
    Consistent config none (session.withdraw n id outcome) := by
  refine h.rebuild ?_ (header_modify fun _ => rfl) rfl ?_
  · cases hlookup : session.pending.lookup id with
    | none =>
      show Correlation.Correlates _ _ (session.pending.erase id) _
      rw [Table.erase_of_notMem (lookup_eq_none.mp hlookup)]
      refine h.correlates.modify fun call hcall => ?_
      rw [hcall, bind_some] at hid
      rw [h.free_of_lookup hcall hid hlookup]
      exact heldId_settled rfl
    | some pending =>
      obtain rfl := h.entry_call hid hlookup
      exact h.correlates.erase hlookup (fun call => heldId_settled rfl) fun _ _ => rfl
  · intro hclosed
    show session.pending.erase id = ∅
    rw [h.closed hclosed, Table.erase_of_notMem (notMem_empty id)]

theorem Consistent.settle (id : String) (outcome : Outcome) :
    Consistent config none (session.settle id outcome) := by
  unfold Session.settle
  cases hlookup : session.pending.lookup id with
  | none => exact h
  | some pending =>
    apply h.withdraw
    have hheld := (h.correlates id pending.call).mp (by rw [hlookup]; rfl)
    grind [heldId_eq_some]

theorem Consistent.register {call record : Call} (hopen : session.state ≠ .closed)
    (hrecord : session.calls[n]? = some record) (hid : record.id = some id)
    (hunregistered : record.registered = false) (houtcome : record.outcome = none) :
    Consistent config none (session.register port n call id) := by
  have hsent : Consistent config none ((session.enter n call.method id).send port (.call n)
      (.req ⟨id, call.method, call.params⟩)).1 :=
    (h.enter hopen hrecord hid hunregistered houtcome).send _ _
  unfold Session.register
  simp only
  split
  · apply hsent.withdraw
    rw [bind_id_eq_of_header (header_send _ _ _ n), Session.enter, Session.updateCall,
      List.getElem?_modify]
    simp [hrecord, hid]
  · split_ifs
    · exact hsent.trySend _ _
    · exact hsent

theorem Consistent.proceed {remote : RemotePeer} (hcall : session.calls[n]? = some call)
    (hid : call.id = none) (houtcome : call.outcome = none) :
    Consistent config none (session.proceed port config n call remote) := by
  have hunregistered : call.registered = false := h.unregistered hcall hid
  have hfree : ∀ other, session.calls[n]? = some other → heldId none n other = none := by
    grind [heldId_unregistered]
  have hissued : (session.issue config n).calls[n]? =
      some { call with id := some (session.nextId config) } := by
    rw [Session.issue, Session.updateCall, List.getElem?_modify, hcall]
    simp
  unfold Session.proceed
  split_ifs with hreserved hclosed
  · exact h.settleCall hfree
  · exact h.settleCall hfree
  · simp only
    split
    · grind [Consistent.issue, Consistent.settleCall, heldId_unregistered]
    · exact (h.issue hcall hid).register hclosed hissued rfl hunregistered houtcome

theorem Consistent.resume (n : Nat) : Consistent config none (session.resume port config n) := by
  grind [Session.resume, not_isSome_iff_eq_none, Consistent.settleCall, heldId_unregistered,
    Consistent.unregistered, Consistent.proceed]

theorem Consistent.abort (n : Nat) : Consistent config none (session.abort port n) := by
  have hupdate : Consistent config none (session.updateCall n fun call =>
      { call with aborted := true, listening := false }) :=
    h.updateCall (fun _ => rfl) fun _ => rfl
  grind [Session.abort, Consistent.trySend]

theorem Consistent.expire (hid : session.calls[n]?.bind Call.id = some id)
    (hmem : id ∈ session.pending) : Consistent config (some n) (session.expire n id) := by
  obtain ⟨pending, hlookup⟩ := isSome_iff_exists.mp (lookup_isSome.mpr hmem)
  obtain rfl := h.entry_call hid hlookup
  refine h.rebuild ?_ (header_modify fun _ => rfl) rfl ?_
  · refine h.correlates.erase hlookup ?_ ?_
    · intro call
      simp [heldId]
    · intro m hm
      funext call
      simp [heldId, Ne.symm hm]
  · intro hclosed
    rw [h.closed hclosed] at hmem
    exact absurd hmem (notMem_empty id)

end

theorem Consistent.finish (h : Consistent config (some n) session) (outcome : Outcome) :
    Consistent config none (session.updateCall n (Call.settle outcome)) := by
  refine h.rebuild ?_ (header_modify fun _ => rfl) rfl h.closed
  have hmodified : Correlation.Correlates PendingRequest.call (heldId (some n)) session.pending
      (session.calls.modify n (Call.settle outcome)) :=
    h.correlates.modify fun call _ => by simp [heldId]
  refine hmodified.congr fun m call hcall => ?_
  by_cases hn : n = m
  · grind [heldId_settled, settle_outcome_isSome]
  · simp [heldId, hn]

theorem Consistent.timeout (h : Consistent config none session) (n : Nat) :
    Consistent config none (session.timeout port n) := by
  unfold Session.timeout
  grind [Consistent.expire, Consistent.trySend, Consistent.finish]

/-! ### Turns that leave the calls alone -/

theorem SameRequests.closed {before after : Session σ} (h : SameRequests before after) :
    after.state = .closed ↔ before.state = .closed := by
  rcases h.state with hstate | ⟨hbefore, hafter⟩
  · rw [hstate]
  · simp [hbefore, hafter]

/-- The rule for the inputs that are not about a request of this side: what survives a teardown and
looks at the calls and the pending map only survives the turn. -/
theorem step_keeps {inv : Session σ → Prop}
    (hteardown : ∀ session closure, inv session → inv (session.teardown closure))
    (hsame : ∀ before after, inv before → SameRequests before after → inv after)
    {input : Input} (hinput : input.leavesCalls = true) (h : inv session) :
    inv (session.step port config input) := by
  have htrySend : ∀ between origin frame, inv between →
      inv (trySend port between origin frame) := fun between origin frame hbetween =>
    trySend_keeps hteardown hbetween (hsame _ _ hbetween (.of_callSide rfl rfl))
  by_cases haside : input.aside = true
  · exact step_quiet hteardown (fun _ _ h hquiet => hsame _ _ h (hquiet.same hinput)) haside h
  · cases input with
    | receive frame =>
      cases frame with
      | hello greeting =>
        exact receiveHello_quiet hteardown (fun _ _ h hquiet => hsame _ _ h (hquiet.same rfl))
          greeting h fun _ hstate _ => hsame _ _ h ⟨rfl, rfl, rfl, .inr ⟨hstate, rfl⟩⟩
      | req request =>
        have hdelivered : inv
            { session with dispatches := session.dispatches ++ [{ request := request }] } :=
          hsame _ _ h (.of_callSide rfl rfl)
        simp only [Session.step, Session.receive, Session.dispatch]
        split_ifs
        · exact h
        · split
          · exact hsame _ _ (htrySend _ _ _ hdelivered) (.of_callSide rfl rfl)
          · exact hsame _ _ hdelivered (.of_callSide rfl rfl)
      | _ => exact absurd rfl haside
    | handlerSettled n outcome =>
      exact handlerSettled_keeps h
        (fun _ _ _ _ _ => hsame _ _ (htrySend _ _ _ h) (.of_callSide rfl rfl))
        (hsame _ _ h (.of_callSide rfl rfl)) fun _ _ h => hsame _ _ h (.of_callSide rfl rfl)
    | emit event =>
      exact emit_keeps h
        (fun _ _ => send_keeps hteardown (hsame _ _ h (.of_callSide rfl rfl)))
        fun _ _ h => hsame _ _ h (.of_callSide rfl rfl)
    | _ => exact absurd rfl haside

theorem Consistent.same {after : Session σ} (h : Consistent config busy session)
    (hsame : SameRequests session after) : Consistent config busy after :=
  h.congr hsame.pending hsame.calls hsame.sequence hsame.closed.mp

theorem Consistent.step (h : Consistent config none session) (input : Input) :
    Consistent config none (session.step port config input) := by
  by_cases hinput : input.leavesCalls = true
  · exact step_keeps (fun _ closure h => h.teardown closure) (fun _ _ h hsame => h.same hsame)
      hinput h
  · cases input with
    | receive frame =>
      simp only [Session.step, Session.receive]
      split_ifs
      · exact h
      · cases frame <;> grind [Consistent.settle, Input.leavesCalls]
    | request method params timeoutMs => exact h.request method params timeoutMs
    | resume n => exact h.resume n
    | abort n => exact h.abort n
    | timeout n => exact h.timeout n
    | _ => simp [Input.leavesCalls] at hinput

theorem Consistent.construct (port : Port σ) (config : Config) (state : σ) :
    Consistent config none (Session.construct port config state) := by
  refine construct_quiet (fun _ closure h => h.teardown closure)
    (fun _ _ h hquiet => h.same (hquiet.same rfl)) state
    ⟨Correlation.correlates_empty, ?_, ?_, ?_, fun _ => rfl⟩
  all_goals grind

theorem Consistent.after (port : Port σ) (config : Config) (state : σ) (inputs : List Input) :
    Consistent config none (Session.after port config state inputs) :=
  Run.run_invariant (fun _ input h => h.step input) (Consistent.construct port config state)
    inputs

/-! ## What a turn does to a call -/

theorem grows_sweep {ι : Type} (place : ι → Nat) {change : String → ι → Call → Call}
    (hchange : ∀ id entry call, Call.Extends call (change id entry call))
    (table : Table String ι) (calls : List Call) :
    Grows calls (Correlation.sweep place change table calls) := by
  unfold Correlation.sweep
  induction table.entries.reverse generalizing calls <;> grind [Grows.refl, grows_modify,
    Grows.trans]

theorem grows_teardown (session : Session σ) (closure : SessionClosure) :
    Grows session.calls (session.teardown closure).calls := by
  by_cases hclosed : session.state = .closed
  · rw [teardown_of_closed hclosed]
    exact Grows.refl _
  · rw [teardown_of_open hclosed]
    show Grows session.calls (session.rejectPending closure)
    apply grows_sweep
    intro id pending call
    exact call.extends_cleanup_settle _

theorem grows_step (session : Session σ) (input : Input) :
    Grows session.calls (session.step port config input).calls := by
  have hteardown : ∀ (between : Session σ) closure, Grows session.calls between.calls →
      Grows session.calls (between.teardown closure).calls := fun between closure hbetween =>
    hbetween.trans (grows_teardown between closure)
  by_cases hinput : input.aside = true
  · exact @step_quiet _ port config session (fun after => Grows session.calls after.calls)
      hteardown input (fun _ _ h hquiet => h.trans hquiet.grows) hinput (Grows.refl _)
  · refine @step_keeps _ port config session (fun after => Grows session.calls after.calls)
      hteardown (fun _ _ h hsame => by rwa [hsame.calls]) input ?_ (Grows.refl _)
    cases input with
    | receive frame => cases frame <;> simp_all [Input.leavesCalls, Input.aside]
    | _ => simp_all [Input.leavesCalls, Input.aside]

theorem grows_after (port : Port σ) (config : Config) (state : σ) (inputs more : List Input) :
    Grows (Session.after port config state inputs).calls
      (Session.after port config state (inputs ++ more)).calls := by
  unfold Session.after
  rw [Run.run_append]
  exact @Run.run_grows _ _ (Session.step port config)
    (fun before after => Grows before.calls after.calls)
    (fun session => Grows.refl session.calls) (fun _ _ _ h h' => h.trans h')
    (fun session input => grows_step session input) _ more

/-! ## The end of a session -/

/-- The call had no outcome in `start`, if it was there at all. -/
def Unsettled (start : List Call) (n : Nat) : Prop :=
  ∀ call, start[n]? = some call → call.outcome = none

/-- The outcome is a rejection with the given code. -/
def RejectedWith (code : String) (call : Call) : Prop :=
  ∃ error, call.outcome = some (.rejected error) ∧ error.code = code

/-- Once the session is closed, every registered call that `start` left open is
rejected with `UNAVAILABLE`, the busy one apart. -/
def Stranded (start : List Call) (busy : Option Nat) (session : Session σ) : Prop :=
  session.state = .closed → ∀ (n : Nat) call, session.calls[n]? = some call →
    call.registered = true → busy ≠ some n → Unsettled start n →
    RejectedWith Codes.unavailable call

theorem Stranded.of_open {start : List Call} {session : Session σ}
    (hopen : session.state ≠ .closed) : Stranded start busy session :=
  fun hclosed => absurd hclosed hopen

/-- A turn that started with the calls `start`: it has settled none of them
while the session is open, and once the session is closed every registered one
is rejected with `UNAVAILABLE`. -/
structure Closing (config : Config) (start : List Call) (busy : Option Nat)
    (session : Session σ) : Prop where
  consistent : Consistent config busy session
  whileOpen : session.state ≠ .closed → ∀ (n : Nat) call, session.calls[n]? = some call →
    Unsettled start n → call.outcome = none
  stranded : Stranded start busy session

variable {start : List Call}

theorem Closing.begin (h : Consistent config none session) (hopen : session.state ≠ .closed) :
    Closing config session.calls none session :=
  ⟨h, fun _ _ call hcall hunsettled => hunsettled call hcall, .of_open hopen⟩

theorem Closing.change {busy' : Option Nat} {after : Session σ}
    (h : Closing config start busy session) (hafter : Consistent config busy' after)
    (hopen : session.state ≠ .closed) (hstate : after.state = session.state)
    (houtcome : ∀ (n : Nat) later, after.calls[n]? = some later →
      ∃ call, session.calls[n]? = some call ∧ later.outcome = call.outcome) :
    Closing config start busy' after := by
  refine ⟨hafter, ?_, .of_open (hstate ▸ hopen)⟩
  grind [cases Closing]

theorem outcome_modify {change : Call → Call}
    (hchange : ∀ call, (change call).outcome = call.outcome) (m : Nat) (later : Call)
    (hlater : (calls.modify n change)[m]? = some later) :
    ∃ call, calls[m]? = some call ∧ later.outcome = call.outcome := by
  grind

theorem Consistent.rejectPending_cases (h : Consistent config busy session)
    (closure : SessionClosure) (hcall : session.calls[n]? = some call) :
    (heldId busy n call = none ∧ (session.rejectPending closure)[n]? = some call) ∨
      ∃ (id : String) (pending : PendingRequest), heldId busy n call = some id ∧
        (session.rejectPending closure)[n]? = some (call.cleanup.settle
          (.rejected (unavailable pending.method (some closure) (some id)))) := by
  grind [Correlation.sweep_cases, rejectPending, cases Consistent]

theorem Closing.same {after : Session σ} (h : Closing config start busy session)
    (hsame : SameRequests session after) : Closing config start busy after := by
  refine ⟨h.consistent.same hsame, ?_, ?_⟩
  · grind [cases SameRequests, cases Closing]
  · intro hclosed n call hcall
    rw [hsame.calls] at hcall
    exact h.stranded (hsame.closed.mp hclosed) n call hcall

section

variable (h : Closing config start busy session)

include h

theorem Closing.teardown (closure : SessionClosure) :
    Closing config start busy (session.teardown closure) := by
  by_cases hclosed : session.state = .closed
  · rwa [teardown_of_closed hclosed]
  refine ⟨h.consistent.teardown closure, fun hopen => absurd (session.teardown_state closure) hopen,
    ?_⟩
  intro _ n later hlater hregistered hbusy hunsettled
  have hheader := header_teardown session closure n
  rw [hlater, map_some] at hheader
  rw [teardown_calls hclosed] at hlater
  cases hcall : session.calls[n]? with
  | none => simp [hcall] at hheader
  | some call =>
    rw [hcall, map_some, some.injEq] at hheader
    have hkept : call.registered = true := (Prod.mk.inj hheader).2 ▸ hregistered
    have houtcome : call.outcome = none := h.whileOpen hclosed n call hcall hunsettled
    obtain ⟨id, hid⟩ := isSome_iff_exists.mp (h.consistent.named n call hcall hkept)
    have hheld : heldId busy n call = some id :=
      heldId_eq_some.mpr ⟨hbusy, hkept, houtcome, hid⟩
    rcases h.consistent.rejectPending_cases closure hcall with
      ⟨hfree, -⟩ | ⟨key, pending, -, hswept⟩
    · rw [hheld] at hfree
      exact absurd hfree (by simp)
    · rw [hswept, some.injEq] at hlater
      rw [← hlater]
      refine ⟨unavailable pending.method (some closure) (some key), ?_, rfl⟩
      simp [Call.settle, Call.cleanup, houtcome]

theorem Closing.send (origin : Origin) (frame : Frame) :
    Closing config start busy (session.send port origin frame).1 :=
  send_keeps (fun _ closure h => h.teardown closure) (h.same ⟨rfl, rfl, rfl, .inl rfl⟩)

theorem Closing.trySend (origin : Origin) (frame : Frame) :
    Closing config start busy (session.trySend port origin frame) :=
  trySend_keeps (fun _ closure h => h.teardown closure) h
    (h.same ⟨rfl, rfl, rfl, .inl rfl⟩)

end

theorem Stranded.settle (h : Stranded start busy session) {after : Session σ} {n : Nat}
    {change : Call → Call} (hchange : ∀ call, Call.Extends call (change call))
    (hregistered : ∀ call, (change call).registered = call.registered)
    (hstate : after.state = session.state)
    (hcalls : after.calls = session.calls.modify n change) : Stranded start busy after := by
  grind [Stranded, RejectedWith, cases Call.Extends]

section

variable (h : Closing config start none session)

include h

theorem Closing.register {call record : Call} (hopen : session.state ≠ .closed)
    (hrecord : session.calls[n]? = some record) (hid : record.id = some id)
    (hunregistered : record.registered = false) (houtcome : record.outcome = none) :
    Stranded start none (session.register port n call id) := by
  have hentered : Closing config start none (session.enter n call.method id) :=
    h.change (h.consistent.enter hopen hrecord hid hunregistered houtcome) hopen rfl
      (outcome_modify fun _ => rfl)
  have hsent : Closing config start none ((session.enter n call.method id).send port (.call n)
      (.req ⟨id, call.method, call.params⟩)).1 := hentered.send _ _
  unfold Session.register
  simp only
  split
  · rename_i error _
    exact hsent.stranded.settle (fun call => call.extends_cleanup_settle _) (fun _ => rfl) rfl rfl
  · split_ifs
    · exact (hsent.trySend _ _).stranded
    · exact hsent.stranded

theorem Closing.resume (hopen : session.state ≠ .closed) (n : Nat) :
    Stranded start none (session.resume port config n) := by
  unfold Session.resume
  split
  · rename_i call outcome hcall _
    split_ifs with hdone
    · exact .of_open hopen
    · simp only [Bool.or_eq_true, not_or, Bool.not_eq_true,
        isSome_eq_false_iff, isNone_iff_eq_none] at hdone
      cases outcome with
      | error error => exact .of_open hopen
      | ok remote =>
        simp only [Session.proceed]
        split_ifs
        · exact .of_open hopen
        · split
          · exact .of_open hopen
          · have hissued : Closing config start none (session.issue config n) :=
              h.change (h.consistent.issue hcall hdone.1) hopen rfl (outcome_modify fun _ => rfl)
            have hrecord : (session.issue config n).calls[n]? =
                some { call with id := some (session.nextId config) } := by
              rw [Session.issue, Session.updateCall, List.getElem?_modify,
                show session.calls[n]? = some call from hcall]
              simp
            have hunregistered := h.consistent.unregistered hcall hdone.1
            exact hissued.register hopen hrecord rfl hunregistered hdone.2
  · exact .of_open hopen

theorem Closing.timeout (hopen : session.state ≠ .closed) (n : Nat) :
    Stranded start (some n) (session.timeout port n) := by
  have hexpired : ∀ call id, session.calls[n]? = some call → call.id = some id →
      id ∈ session.pending → Closing config start (some n) (session.expire n id) :=
    fun call id hcall hid hmem => h.change
      (h.consistent.expire (by rw [hcall]; exact hid) hmem) hopen rfl (outcome_modify fun _ => rfl)
  unfold Session.timeout
  split
  · exact .of_open hopen
  · rename_i call hcall
    split
    · rename_i id _ hid
      split_ifs with hmem
      · exact ((hexpired call id hcall hid hmem).trySend _ _).stranded.settle
          (fun call => call.extends_settle _) (fun _ => rfl) rfl rfl
      · exact .of_open hopen
    · exact .of_open hopen

end

/-- The call whose deadline a turn is. -/
def Input.expiring : Input → Option Nat
  | .timeout n => some n
  | _ => none

theorem stranded_of_step (h : Consistent config none session) (hopen : session.state ≠ .closed)
    (input : Input) :
    Stranded session.calls input.expiring (session.step port config input) := by
  have hstart := Closing.begin h hopen
  by_cases hleaves : input.leavesCalls = true
  · have hend : Closing config session.calls none (session.step port config input) :=
      step_keeps (fun _ closure h => h.teardown closure) (fun _ _ h hsame => h.same hsame)
        hleaves hstart
    grind [Stranded, cases Closing]
  · cases input with
    | receive frame =>
      apply Stranded.of_open
      simp only [Session.step, Session.receive]
      rw [if_neg hopen]
      cases frame with
      | res | err => simpa using hopen
      | _ => simp [Input.leavesCalls] at hleaves
    | request method params timeoutMs => exact .of_open hopen
    | resume k => exact hstart.resume hopen k
    | abort k =>
      have haborted : Closing config session.calls none (session.updateCall k fun call =>
          { call with aborted := true, listening := false }) :=
        hstart.change (h.updateCall (fun _ => rfl) fun _ => rfl) hopen rfl
          (outcome_modify fun _ => rfl)
      have hend : Closing config session.calls none (session.abort port k) := by
        grind [Session.abort, Closing.trySend]
      exact hend.stranded
    | timeout k => exact hstart.timeout hopen k
    | _ => simp [Input.leavesCalls] at hleaves

/-! ### The deadline that closes the session -/

theorem Consistent.busy_trySend (h : Consistent config (some n) session)
    (hcall : session.calls[n]? = some call) (origin : Origin) (frame : Frame) :
    (session.trySend port origin frame).calls[n]? = some call := by
  suffices hboth : Consistent config (some n) (session.trySend port origin frame) ∧
      (session.trySend port origin frame).calls[n]? = some call from hboth.2
  refine @Session.trySend_keeps _ port session origin frame
    (fun after => Consistent config (some n) after ∧ after.calls[n]? = some call) ?_ ⟨h, hcall⟩
    ⟨h.afterSend origin frame, hcall⟩
  rintro between closure ⟨hbetween, hkept⟩
  refine ⟨hbetween.teardown closure, ?_⟩
  by_cases hclosed : between.state = .closed
  · rwa [teardown_of_closed hclosed]
  · rw [teardown_calls hclosed]
    rcases hbetween.rejectPending_cases closure hkept with ⟨-, hsame⟩ | ⟨id, pending, hheld, -⟩
    · exact hsame
    · exact absurd rfl (heldId_eq_some.mp hheld).1

theorem Consistent.mem_pending_iff (h : Consistent config none session) :
    id ∈ session.pending ↔ ∃ (n : Nat) (call : Call), session.calls[n]? = some call ∧
      call.registered = true ∧ call.outcome = none ∧ call.id = some id := by
  constructor
  · intro hmem
    obtain ⟨pending, hlookup⟩ := isSome_iff_exists.mp (lookup_isSome.mpr hmem)
    have hheld := (h.correlates id pending.call).mp (by rw [hlookup]; rfl)
    grind [heldId_eq_some]
  · rintro ⟨n, call, hcall, hopen⟩
    have hpoints := (h.correlates id n).mpr
      (by rw [hcall]; exact heldId_eq_some.mpr ⟨by simp, hopen⟩)
    obtain ⟨pending, hlookup, -⟩ := map_eq_some_iff.mp hpoints
    exact lookup_isSome.mp (by rw [hlookup]; rfl)

theorem Consistent.rejected_of_timeout (h : Consistent config none session)
    (hcall : session.calls[n]? = some call) (htimer : call.timer = true)
    (hregistered : call.registered = true) (houtcome : call.outcome = none) :
    ∃ later, (session.timeout port n).calls[n]? = some later ∧
      RejectedWith Codes.timeout later := by
  obtain ⟨id, hid⟩ := isSome_iff_exists.mp (h.named n call hcall hregistered)
  have hmem : id ∈ session.pending :=
    h.mem_pending_iff.mpr ⟨n, call, hcall, hregistered, houtcome, hid⟩
  have hexpired := h.expire (by rw [hcall]; exact hid) hmem
  have hcleaned : (session.expire n id).calls[n]? = some call.cleanup := by
    rw [Session.expire, Session.updateCall, List.getElem?_modify,
      show session.calls[n]? = some call from hcall]
    simp
  grind [Consistent.busy_trySend, Session.timeout, Session.updateCall, RejectedWith, Call.settle,
      Call.cleanup]

/-! ### A session that was ready closes or stays ready -/

theorem step_state_ne_handshaking (hready : session.state ≠ .handshaking) (input : Input) :
    (session.step port config input).state ≠ .handshaking := by
  have hteardown : ∀ (between : Session σ) closure, between.state ≠ .handshaking →
      (between.teardown closure).state ≠ .handshaking := by
    intro between closure _
    rw [teardown_state]
    simp
  by_cases hleaves : input.leavesCalls = true
  · refine @step_keeps _ port config session (fun after => after.state ≠ .handshaking) hteardown
      ?_ input hleaves hready
    grind [cases SameRequests]
  -- an input that does not leave the calls alone is about nothing else
  · have haside : input.aside = true := by
      cases input with
      | receive frame => cases frame <;> simp_all [Input.leavesCalls, Input.aside]
      | _ => simp_all [Input.leavesCalls, Input.aside]
    refine @step_quiet _ port config session (fun after => after.state ≠ .handshaking) hteardown
      input ?_ haside hready
    intro before after hbefore hafter
    rw [hafter.state]
    exact hbefore

/-! ## The law -/

theorem Consistent.receive_answer (h : Consistent config none session) {frame : Frame}
    (hframe : Answers frame id)
    (hsettled : ∀ (n : Nat) call, session.calls[n]? = some call → call.id = some id →
      call.outcome.isSome = true) :
    session.step port config (.receive frame) = session := by
  grind [lookup_eq_none, Consistent.mem_pending_iff, Session.step, Session.receive,
      Session.settle, Answers]

/-- The settlement of the requests of this side, over the runs of a session. -/
structure SettlesOnce (port : Port σ) (config : Config) (state : σ) : Prop where
  /-- Nothing takes back an id, a registration or an outcome. -/
  kept : ∀ inputs more, Grows (Session.after port config state inputs).calls
    (Session.after port config state (inputs ++ more)).calls
  /-- The pending map holds the calls that are registered and not settled. -/
  open_iff : ∀ inputs id, id ∈ (Session.after port config state inputs).pending ↔
    ∃ (n : Nat) (call : Call), (Session.after port config state inputs).calls[n]? = some call ∧
      call.registered = true ∧ call.outcome = none ∧ call.id = some id
  /-- The turn in which the session stops being ready rejects the registered
  calls that have no outcome, those it registered itself included; a call whose
  deadline is that turn had left the map before. -/
  stranded : ∀ inputs input, (Session.after port config state inputs).state = .ready →
    (Session.after port config state (inputs ++ [input])).state ≠ .ready →
    ∀ (n : Nat) call,
      (Session.after port config state (inputs ++ [input])).calls[n]? = some call →
      call.registered = true → Unsettled (Session.after port config state inputs).calls n →
      input ≠ .timeout n → RejectedWith Codes.unavailable call
  /-- A deadline rejects its call, whether or not the session survives it. -/
  expired : ∀ inputs (n : Nat) call,
    (Session.after port config state inputs).calls[n]? = some call → call.timer = true →
    call.registered = true → call.outcome = none →
    ∃ later, (Session.after port config state (inputs ++ [.timeout n])).calls[n]? = some later ∧
      RejectedWith Codes.timeout later
  /-- A closed session has no pending request. -/
  emptied : ∀ inputs, (Session.after port config state inputs).state = .closed →
    (Session.after port config state inputs).pending = ∅
  /-- No two calls are issued one id. -/
  distinct : ∀ inputs (m n : Nat) id,
    (Session.after port config state inputs).calls[m]?.bind Call.id = some id →
    (Session.after port config state inputs).calls[n]?.bind Call.id = some id → m = n
  /-- An answer whose id nobody was issued, or only a call that settled. -/
  ignored : ∀ inputs (frame : Frame) id, Answers frame id →
    (∀ (n : Nat) call, (Session.after port config state inputs).calls[n]? = some call →
      call.id = some id → call.outcome.isSome = true) →
    Session.after port config state (inputs ++ [.receive frame]) =
      Session.after port config state inputs

/-- In every run, with any port, every registered request settles at most once,
and the end of the session settles what is open. -/
theorem requests_settle_once (port : Port σ) (config : Config) (state : σ) :
    SettlesOnce port config state := by
  have hafter : ∀ inputs input, Session.after port config state (inputs ++ [input]) =
      (Session.after port config state inputs).step port config input := by
    intro inputs input
    exact Run.run_concat _ _ _ _
  have hconsistent := Consistent.after port config state
  refine ⟨grows_after port config state, ?_, ?_, ?_, fun inputs => (hconsistent inputs).closed,
    fun inputs => (hconsistent inputs).distinct, ?_⟩
  · intro inputs id
    exact (hconsistent inputs).mem_pending_iff
  · intro inputs input hready hleft n call hcall hregistered hunsettled hinput
    rw [hafter] at hleft hcall
    have hclosed : ((Session.after port config state inputs).step port config input).state =
        .closed := by
      have hnot : ((Session.after port config state inputs).step port config input).state ≠
          .handshaking := step_state_ne_handshaking (by rw [hready]; simp) input
      revert hleft hnot
      cases ((Session.after port config state inputs).step port config input).state <;> simp
    refine stranded_of_step (hconsistent inputs) (by simp [hready]) input hclosed n call hcall
      hregistered ?_ hunsettled
    intro hexpiring
    cases input <;> simp_all [Input.expiring]
  · intro inputs n call hcall htimer hregistered houtcome
    rw [hafter]
    exact (hconsistent inputs).rejected_of_timeout hcall htimer hregistered houtcome
  · intro inputs frame id hframe hsettled
    rw [hafter]
    exact (hconsistent inputs).receive_answer hframe hsettled

end MangoStudio.Protocol.Ts
