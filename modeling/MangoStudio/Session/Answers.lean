import MangoStudio.Session.Turns

/-!
# Which requests are answered

The requests that a TypeScript session receives.  Each delivered request has a
dispatch, and the dispatch ends in one frame: one of five refusals, the
handler's result, the replacement of a result that is too large, or the error
that the handler threw.  All of them go out through `#trySend`, which swallows
what the port throws.

* `Port.RefusesOnly` is a port that stays open and refuses a frame only when
  the encoder does.
* `Answerable` says which errors of a handler have an encoding, by
  `fits_errorPayloadFor_iff`.  A `RemoteError` goes on the wire as it is, so one
  whose code is not a wire code, whose message is empty or that is longer than
  the limit has none, and its request gets no answer
  (`unanswered_invalid_code`).  Details that `JSON.stringify` refuses have none
  either, and a session that is closed sends nothing.
* `StepAnswerable` is the condition on a turn, and `Responds` the invariant of
  runs whose turns meet it: one answer for each dispatch that is over, none for
  one that runs.
-/

namespace MangoStudio.Protocol.Ts

open Session List Option Dispatch

variable {σ : Type}

/-! ## The port -/

/-- The port decodes frames up to `limit`, stays open, and throws only when
`encodeFrameBytes` refuses the frame. -/
structure Port.RefusesOnly (port : Port σ) (limit : FrameLimit) : Prop where
  maxFrameBytes : port.maxFrameBytes = some limit.bytes
  staysOpen : ∀ state frame, (port.send state frame).2.closure = none
  throws : ∀ state frame, (port.send state frame).2.thrown.isSome = true →
    ∀ bytes, encodeFrameBytes frame limit ≠ .ok bytes

variable {port : Port σ} {limit : FrameLimit}

variable {frame : Frame}

theorem Port.RefusesOnly.takes (hport : port.RefusesOnly limit) (hfits : Fits limit.bytes frame)
    (state : σ) : (port.send state frame).2.thrown = none := by
  cases hthrown : (port.send state frame).2.thrown with
  | none => rfl
  | some error =>
    have hrefused := hport.throws state frame (by rw [hthrown]; rfl) frame.encodedBytes
    exact absurd (encodeFrameBytes_eq_ok.mpr ⟨hfits.isFrame, hfits.size, rfl⟩) hrefused

/-! ## What a handler may throw -/

/-- The error of a handler has an encoding within `bytes`. -/
def Answerable (bytes : Nat) (id : String) (aborted : Bool) : Thrown → Prop
  | .remote error =>
    errorCodeSchema error.code = true ∧ error.message ≠ "" ∧
      Json.escapedSize id + Json.escapedSize error.code + Json.escapedSize error.message +
        detailsSize error.details + 55 ≤ bytes
  | .error name message =>
    Json.escapedSize id + Json.escapedSize message +
      (if name = "AbortError" ∨ aborted = true then 64 else 63) ≤ bytes
  | .other _ => True

theorem fits_failure_iff {bytes : Nat} {id code message : String} (hid : idSchema id = true)
    (hcode : code ∈ [Codes.unavailable, Codes.invalidRequest, Codes.methodUnsupported,
      Codes.cancelled, Codes.frameTooLarge, Codes.internal]) (hmessage : message ≠ "") :
    Fits bytes (.err ⟨id, ⟨code, message, none⟩⟩) ↔
      Json.escapedSize id + Json.escapedSize message + (Json.escapedSize code + 55) ≤ bytes := by
  rw [fits_err_iff, detailsSize]
  grind [errorCodeSchema_reserved]

theorem fits_errorPayloadFor_iff {id : String} (hid : idSchema id = true) (limit : FrameLimit)
    (aborted : Bool) (thrown : Thrown) :
    Fits limit.bytes (.err ⟨id, errorPayloadFor thrown aborted⟩) ↔
      Answerable limit.bytes id aborted thrown := by
  have hidSize := escapedSize_id_le hid
  have hfloor := limit.floor
  rw [minAnnouncedFrameBytes] at hfloor
  have hcancelled : Json.escapedSize Codes.cancelled = 9 := by decide
  have hinternal : Json.escapedSize Codes.internal = 8 := by decide
  have hfallback : Json.escapedSize "The request was cancelled." = 26 := by decide +kernel
  have hfailed : Json.escapedSize "The handler failed." = 19 := by decide +kernel
  have hempty : Json.escapedSize "" = 0 := by decide
  cases thrown with
  | remote error =>
    rw [errorPayloadFor, fits_err_iff, Answerable]
    simp [hid]
  | error name message =>
    by_cases hcancel : name = "AbortError" ∨ aborted = true
    · have hpayload : errorPayloadFor (.error name message) aborted =
          ⟨Codes.cancelled, if message = "" then "The request was cancelled." else message,
            none⟩ := by
        grind [errorPayloadFor, isAbortError, messageOr, describe]
      rw [hpayload, fits_failure_iff hid (by simp) (by split_ifs <;> simp_all), Answerable,
        if_pos hcancel]
      split_ifs with hmessage
      · subst hmessage
        omega
      · omega
    · have hpayload : errorPayloadFor (.error name message) aborted =
          ⟨Codes.internal, if message = "" then "The handler failed." else message, none⟩ := by
        grind [errorPayloadFor, isAbortError, messageOr, describe]
      rw [hpayload, fits_failure_iff hid (by simp) (by split_ifs <;> simp_all), Answerable,
        if_neg hcancel]
      split_ifs with hmessage
      · subst hmessage
        omega
      · omega
  | other text =>
    simp only [Answerable, iff_true, errorPayloadFor, messageOr, isAbortError, Bool.false_or]
    grind [fits_failure_iff]

/-! ## The refusals -/

variable {config : Config} {session : Session σ}

/-- The peer's hello was a valid one. -/
structure GoodPeer (session : Session σ) : Prop where
  inRange : AnnouncesInRange session.remote
  minor : ∀ peer, session.remote = some peer → peer.effectiveMinor ≤ maxSafeInteger

variable {request : Request}

theorem GoodPeer.fits_refusal (hpeer : GoodPeer session) (hrequest : isFrame (.req request) = true)
    (hduplicate : session.state = .ready → Table.size session.active < config.maxInFlight →
      request.id ∈ session.active → 3 * Json.escapedSize request.id + 186 ≤ limit.bytes)
    {error : ErrorPayload} (hrefusal : session.refusal config request = some error) :
    Fits limit.bytes (.err ⟨request.id, error⟩) := by
  simp only [isFrame, Bool.and_eq_true] at hrequest
  obtain ⟨hid, hmethod⟩ := hrequest
  have hminor : (session.remote.map RemotePeer.effectiveMinor).getD 0 ≤ maxSafeInteger := by
    cases hremote : session.remote with
    | none => exact Nat.zero_le _
    | some peer => exact hpeer.minor peer hremote
  unfold refusal at hrefusal
  simp only at hrefusal
  split_ifs at hrefusal with hready hfull hactive hreserved hunknown
  · obtain rfl := some.inj hrefusal
    exact (fits_handshakeIncomplete hid).mono limit.floor
  · obtain rfl := some.inj hrefusal
    exact (fits_inFlightLimitReached hid hmethod config.inFlightCeiling).mono limit.floor
  · grind [fits_duplicateRequest_iff]
  · obtain rfl := some.inj hrefusal
    exact (fits_reservedMethod hid hmethod hminor).mono limit.floor
  · obtain rfl := some.inj hrefusal
    exact (fits_methodUnsupported hid hmethod).mono limit.floor

/-! ## The invariant -/

/-- The frames that the port accepted for one dispatch. -/
def Session.answers (session : Session σ) (n : Nat) : List Frame :=
  (session.sent.filter fun sent => sent.origin = .dispatch n).map Sent.frame

/-- One answer for each dispatch that is over, none for one that runs, and never
two. -/
structure ResponseGuarantee (session : Session σ) : Prop where
  answered : ∀ (n : Nat) dispatch, session.dispatches[n]? = some dispatch →
    dispatch.settled = true →
    ∃ frame, session.answers n = [frame] ∧ Answers frame dispatch.request.id
  silent : ∀ n : Nat, session.dispatches[n]?.map Dispatch.settled ≠ some true →
    session.answers n = []
  single : ∀ n : Nat, (session.answers n).length ≤ 1

structure Responds (session : Session σ) : Prop extends GoodPeer session,
    ResponseGuarantee session where
  requests : ∀ (n : Nat) dispatch, session.dispatches[n]? = some dispatch →
    isFrame (.req dispatch.request) = true

theorem Responds.rebuild {after : Session σ} (h : Responds session)
    (hremote : after.remote = session.remote)
    (hheaders : ∀ n : Nat, after.dispatches[n]?.map header =
      session.dispatches[n]?.map header)
    (hanswers : ∀ n, after.answers n = session.answers n) : Responds after := by
  have hback : ∀ (n : Nat) dispatch, after.dispatches[n]? = some dispatch →
      ∃ before, session.dispatches[n]? = some before ∧ before.request = dispatch.request ∧
        before.settled = dispatch.settled := by
    grind [header]
  refine ⟨⟨hremote ▸ h.inRange, hremote ▸ h.minor⟩, ⟨?_, ?_, ?_⟩, ?_⟩
  · intro n dispatch hdispatch hsettled
    obtain ⟨before, hbefore, hrequest, hsame⟩ := hback n dispatch hdispatch
    rw [hanswers, ← hrequest]
    exact h.answered n before hbefore (hsame.trans hsettled)
  · intro n hunsettled
    rw [hanswers]
    apply h.silent
    have hsettled := congrArg (Option.map Prod.snd) (hheaders n)
    rw [Option.map_map, Option.map_map] at hsettled
    exact fun hover => hunsettled (hsettled.trans hover)
  · intro n
    rw [hanswers]
    exact h.single n
  · intro n dispatch hdispatch
    obtain ⟨before, hbefore, hrequest, -⟩ := hback n dispatch hdispatch
    rw [← hrequest]
    exact h.requests n before hbefore

theorem Responds.teardown (h : Responds session) (closure : SessionClosure) :
    Responds (session.teardown closure) := by
  by_cases hclosed : session.state = .closed
  · rwa [teardown_of_closed hclosed]
  · rw [teardown_of_open hclosed]
    exact h.rebuild rfl (header_abortActive session) fun _ => rfl

theorem answers_append {before after : Session σ} {added : List Sent}
    (hsent : after.sent = before.sent ++ added)
    (hadded : ∀ sent ∈ added, ∀ n, sent.origin ≠ .dispatch n) (n : Nat) :
    after.answers n = before.answers n := by
  grind [filter_eq_nil_iff, answers]

theorem Responds.quiet {leaves : Bool} (before after : Session σ) (h : Responds before)
    (hquiet : Quiet config leaves before after) : Responds after := by
  obtain ⟨added, hsent, hadded⟩ := hquiet.sent
  refine h.rebuild hquiet.remote hquiet.headers (answers_append hsent ?_)
  intro sent hmem n horigin
  have := hadded sent hmem
  simp [Sent.aside, horigin] at this

theorem Responds.emit (h : Responds session) (event : EventInput) :
    Responds (session.emit port config event).1 := by
  refine emit_keeps h (fun _ _ => ?_) fun sent seq h => h.rebuild rfl (fun _ => rfl) fun _ => rfl
  refine send_keeps (fun _ closure h => h.teardown closure) (h.rebuild rfl
    (fun _ => rfl) (answers_append rfl ?_))
  grind

/-! ## The answer -/

theorem Port.RefusesOnly.trySend_eq (hport : port.RefusesOnly limit)
    (hfits : Fits limit.bytes frame) (hopen : session.state ≠ .closed) (origin : Origin) :
    session.trySend port origin frame = { session with
        port := (port.send session.port frame).1
        sent := session.sent ++ [⟨origin, frame⟩] } := by
  rw [trySend, if_neg hopen]
  unfold Session.send Session.afterSend
  simp [hport.staysOpen, hport.takes hfits]

variable {n : Nat}

theorem Responds.finish (h : Responds session) {dispatch : Dispatch}
    (hdispatch : session.dispatches[n]? = some dispatch) {after : Session σ}
    (hremote : after.remote = session.remote)
    (hdispatches : after.dispatches = session.dispatches.modify n settle)
    (hothers : ∀ m, m ≠ n → after.answers m = session.answers m)
    (hown : ∃ frame, after.answers n = [frame] ∧ Answers frame dispatch.request.id) :
    Responds after := by
  have hself : after.dispatches[n]? = some dispatch.settle := by
    rw [hdispatches, getElem?_modify, hdispatch]
    simp
  have hother : ∀ m, m ≠ n → after.dispatches[m]? = session.dispatches[m]? := by
    intro m hm
    rw [hdispatches, getElem?_modify]
    simp [Ne.symm hm]
  refine ⟨⟨hremote ▸ h.inRange, hremote ▸ h.minor⟩, ⟨?_, ?_, ?_⟩, ?_⟩
  · intro m ended hended hsettled
    by_cases hm : m = n
    · subst hm
      rw [hself, some.injEq] at hended
      rw [← hended]
      exact hown
    · rw [hother m hm] at hended
      rw [hothers m hm]
      exact h.answered m ended hended hsettled
  · intro m hunsettled
    by_cases hm : m = n
    · subst hm
      rw [hself] at hunsettled
      exact absurd rfl hunsettled
    · rw [hother m hm] at hunsettled
      rw [hothers m hm]
      exact h.silent m hunsettled
  · intro m
    by_cases hm : m = n
    · obtain ⟨frame, hanswer, -⟩ := hown
      rw [hm, hanswer]
      exact Nat.le_refl 1
    · rw [hothers m hm]
      exact h.single m
  · intro m other hmem
    by_cases hm : m = n
    · subst hm
      rw [hself, some.injEq] at hmem
      rw [← hmem]
      exact h.requests m dispatch hdispatch
    · rw [hother m hm] at hmem
      exact h.requests m other hmem

theorem Responds.answer (hport : port.RefusesOnly limit) (h : Responds session)
    (hopen : session.state ≠ .closed) {dispatch : Dispatch}
    (hdispatch : session.dispatches[n]? = some dispatch) (hrunning : dispatch.settled = false)
    (hfits : Fits limit.bytes frame) (hanswers : Answers frame dispatch.request.id) :
    Responds ((session.trySend port (.dispatch n) frame).settleDispatch n) := by
  have hnone : session.answers n = [] := h.silent n (by simp [hdispatch, hrunning])
  rw [hport.trySend_eq hfits hopen]
  have hadded : ∀ m, (settleDispatch
      { session with
        port := (port.send session.port frame).1
        sent := session.sent ++ [⟨.dispatch n, frame⟩] } n).answers m =
      session.answers m ++ if n = m then [frame] else [] := by
    grind [settleDispatch, answers]
  refine h.finish hdispatch rfl rfl ?_ ⟨frame, ?_, hanswers⟩
  · intro m hm
    rw [hadded m, if_neg (Ne.symm hm), append_nil]
  · rw [hadded n, hnone, if_pos rfl, nil_append]

theorem Responds.deliver (h : Responds session) (hrequest : isFrame (.req request) = true) :
    Responds { session with dispatches := session.dispatches ++ [{ request := request }] } := by
  have hnew : ∀ (n : Nat) dispatch,
      (session.dispatches ++ [({ request := request } : Dispatch)])[n]? = some dispatch →
      session.dispatches[n]? = some dispatch ∨ dispatch = { request := request } := by
    grind
  refine ⟨⟨h.inRange, h.minor⟩, ⟨?_, ?_, h.single⟩, ?_⟩
  · intro n dispatch hdispatch hsettled
    rcases hnew n dispatch hdispatch with hold | hfresh
    · exact h.answered n dispatch hold hsettled
    · simp [hfresh] at hsettled
  · intro n hunsettled
    apply h.silent n
    grind
  · grind [cases Responds]

/-! ## The turns -/

/-- The condition on a turn.  A request comes, and a handler settles, while the
session is open; an id in flight that comes again is short enough for the refusal
that writes it three times; what a handler throws has an encoding; and the size
of a result is a number that the refusal can write. -/
def StepAnswerable (limit : FrameLimit) (config : Config) (session : Session σ) : Input → Prop
  | .receive (.req request) =>
    session.state ≠ .closed ∧
      (session.state = .ready → Table.size session.active < config.maxInFlight →
        request.id ∈ session.active → 3 * Json.escapedSize request.id + 186 ≤ limit.bytes)
  | .handlerSettled n outcome =>
    ∀ dispatch, session.dispatches[n]? = some dispatch → dispatch.settled = false →
      session.state ≠ .closed ∧
        match outcome with
        | .returned result =>
          measureFrameBytes (.res ⟨dispatch.request.id, result.getD .null⟩) ≤ maxSafeInteger
        | .threw error => Answerable limit.bytes dispatch.request.id dispatch.aborted error
        | .threwUnserialisable => False
  | _ => True

theorem Responds.dispatch (hport : port.RefusesOnly limit) (h : Responds session)
    (hrequest : isFrame (.req request) = true)
    (hstep : StepAnswerable limit config session (.receive (.req request))) :
    Responds (session.dispatch port config request) := by
  have hdelivered := h.deliver hrequest
  unfold Session.dispatch
  simp only
  split
  · rename_i error hrefusal
    have hrecord : (session.dispatches ++ [({ request := request } : Dispatch)])[
        session.dispatches.length]? = some { request := request } := getElem?_concat_length
    exact hdelivered.answer hport hstep.1 hrecord rfl
      (h.fits_refusal hrequest hstep.2 hrefusal) (.inr ⟨_, rfl, rfl⟩)
  · exact hdelivered.rebuild rfl (fun _ => rfl) fun _ => rfl

theorem Responds.fits_result (h : Responds session) (hopen : session.state ≠ .closed)
    (hlimit : config.localMaxFrameBytes.bytes ≤ limit.bytes) {dispatch : Dispatch}
    (hdispatch : session.dispatches[n]? = some dispatch) {result : Json}
    (hsize : measureFrameBytes (.res ⟨dispatch.request.id, result⟩) ≤ maxSafeInteger)
    (hrunning : dispatch.settled = false) (hport : port.RefusesOnly limit) :
    Responds ((session.respondResult port config n dispatch.request.id dispatch.request.method
      result).settleDispatch n) := by
  have hrequest := h.requests n dispatch hdispatch
  simp only [isFrame, Bool.and_eq_true] at hrequest
  have hsend : session.sendLimit config ≤ config.localMaxFrameBytes.bytes :=
    sendLimitBytes_le _ _
  unfold respondResult
  simp only
  split_ifs with hlarge
  · refine h.answer hport hopen hdispatch hrunning ?_ (.inr ⟨_, rfl, rfl⟩)
    refine (fits_resultTooLarge hrequest.1 hrequest.2 hsize ?_).mono limit.floor
    exact le_trans hsend config.localMaxFrameBytes.ceiling
  · refine h.answer hport hopen hdispatch hrunning ⟨?_, ?_⟩ (.inl ⟨_, rfl, rfl⟩)
    · rw [isFrame]
      exact hrequest.1
    · omega

theorem Responds.handlerSettled (hport : port.RefusesOnly limit)
    (hlimit : config.localMaxFrameBytes.bytes ≤ limit.bytes) (h : Responds session)
    {outcome : HandlerOutcome}
    (hstep : StepAnswerable limit config session (.handlerSettled n outcome)) :
    Responds (session.handlerSettled port config n outcome) := by
  unfold Session.handlerSettled
  split
  · exact h
  · rename_i dispatch hdispatch
    split_ifs with hsettled
    · exact h
    · rw [Bool.not_eq_true] at hsettled
      obtain ⟨hopen, houtcome⟩ := hstep dispatch hdispatch hsettled
      have hrequest := h.requests n dispatch hdispatch
      simp only [isFrame, Bool.and_eq_true] at hrequest
      cases outcome with
      | returned result =>
        have hanswered : Responds ((session.respondResult port config n dispatch.request.id
            dispatch.request.method (result.getD .null)).settleDispatch n) :=
          h.fits_result hopen hlimit hdispatch houtcome hsettled hport
        exact hanswered.rebuild rfl (fun _ => rfl) fun _ => rfl
      | threw error =>
        have hfits := (fits_errorPayloadFor_iff hrequest.1 limit dispatch.aborted error).mpr houtcome
        have hanswered : Responds ((session.respondError port n dispatch.request.id
            (errorPayloadFor error dispatch.aborted)).settleDispatch n) :=
          h.answer hport hopen hdispatch hsettled hfits (.inr ⟨_, rfl, rfl⟩)
        exact hanswered.rebuild rfl (fun _ => rfl) fun _ => rfl
      | threwUnserialisable => exact houtcome.elim

theorem Responds.welcome (h : Responds session)
    (hlocal : config.localProtocol.minor ≤ maxSafeInteger) {greeting : Hello}
    (hgreeting : isFrame (.hello greeting) = true) {effectiveMinor : Nat}
    (hnegotiated : negotiate config.localProtocol greeting.protocol =
      .compatible effectiveMinor) :
    Responds (session.welcome config greeting effectiveMinor) := by
  have hminor : effectiveMinor ≤ maxSafeInteger := by
    grind [negotiate]
  have hlimits : optionalSchema limitsSchema greeting.limits = true := by
    simp only [isFrame, helloFrameSchema, Bool.and_eq_true] at hgreeting
    exact hgreeting.2
  refine ⟨⟨?_, ?_⟩, ⟨h.answered, h.silent, h.single⟩, h.requests⟩
  · intro peer hpeer
    rw [← some.inj hpeer]
    exact hlimits
  · intro peer hpeer
    rw [← some.inj hpeer]
    exact hminor

theorem Responds.step (hport : port.RefusesOnly limit)
    (hlimit : config.localMaxFrameBytes.bytes ≤ limit.bytes)
    (hlocal : config.localProtocol.minor ≤ maxSafeInteger) (h : Responds session)
    {input : Input} (hinbound : ∀ frame, input = .receive frame → isFrame frame = true)
    (hstep : StepAnswerable limit config session input) :
    Responds (session.step port config input) := by
  have hteardown : ∀ (session : Session σ) closure, Responds session →
      Responds (session.teardown closure) := fun _ closure h => h.teardown closure
  by_cases hinput : input.aside = true
  · exact step_quiet hteardown Responds.quiet hinput h
  · cases input with
    | receive frame =>
      cases frame with
      | hello greeting =>
        exact receiveHello_quiet hteardown Responds.quiet greeting h fun _ _ hnegotiated =>
          h.welcome hlocal (hinbound _ rfl) hnegotiated
      | req request =>
        simp only [Session.step, Session.receive]
        split_ifs
        · exact h
        · exact h.dispatch hport (hinbound _ rfl) hstep
      | _ => exact absurd rfl hinput
    | handlerSettled n outcome => exact h.handlerSettled hport hlimit hstep
    | emit event => exact h.emit event
    | _ => exact absurd rfl hinput

theorem Responds.construct (port : Port σ) (config : Config) (state : σ) :
    Responds (construct port config state) := by
  refine construct_quiet (fun _ closure h => h.teardown closure) Responds.quiet state
    ⟨⟨?_, ?_⟩, ⟨?_, ?_, ?_⟩, ?_⟩
  · intro peer hpeer
    cases hpeer
  · intro peer hpeer
    cases hpeer
  · intro n dispatch hdispatch
    simp at hdispatch
  · intro n _
    rfl
  · intro n
    exact Nat.zero_le 1
  · intro n dispatch hdispatch
    simp at hdispatch

/-! ## Every delivered request has a dispatch -/

/-- The request that a turn delivers. -/
def Input.delivered : Input → Option Request
  | .receive (.req inbound) => some inbound
  | _ => none

theorem map_request_eq {before after : List Dispatch}
    (hheaders : ∀ n : Nat, after[n]?.map header = before[n]?.map header) :
    after.map Dispatch.request = before.map Dispatch.request := by
  apply ext_getElem?
  grind [header]

theorem map_request_settle (dispatches : List Dispatch) (n : Nat) :
    (dispatches.modify n settle).map Dispatch.request =
      dispatches.map Dispatch.request := by
  apply ext_getElem?
  intro m
  rw [getElem?_map, getElem?_modify, getElem?_map]
  cases dispatches[m]? with
  | none => rfl
  | some dispatch =>
    simp only [Option.map_eq_map, Option.map_some]
    split_ifs <;> rfl

/-- `requests` is what `session` was delivered. -/
def Delivered (requests : List Request) (session : Session σ) : Prop :=
  session.dispatches.map Dispatch.request = requests

variable {requests : List Request}

theorem Delivered.teardown (session : Session σ) (closure : SessionClosure)
    (h : Delivered requests session) : Delivered requests (session.teardown closure) := by
  by_cases hclosed : session.state = .closed
  · rwa [teardown_of_closed hclosed]
  · rw [teardown_of_open hclosed]
    exact (map_request_eq (header_abortActive session)).trans h

theorem Delivered.quiet {leaves : Bool} (before after : Session σ) (h : Delivered requests before)
    (hquiet : Quiet config leaves before after) : Delivered requests after :=
  (map_request_eq hquiet.headers).trans h

theorem Delivered.settle (h : Delivered requests session) (n : Nat) :
    Delivered requests (session.settleDispatch n) := by
  rw [Delivered, settleDispatch, map_request_settle]
  exact h

theorem Delivered.respond (h : Delivered requests session) (origin : Origin) (frame : Frame)
    (n : Nat) :
    Delivered requests ((session.trySend port origin frame).settleDispatch n) :=
  Delivered.settle (trySend_keeps Delivered.teardown h h) n

theorem Delivered.dispatch (h : Delivered requests session) (request : Request) :
    Delivered (requests ++ [request]) (session.dispatch port config request) := by
  have hdelivered : Delivered (requests ++ [request])
      { session with dispatches := session.dispatches ++ [{ request := request }] } := by
    rw [Delivered, map_append, h]
    rfl
  unfold Session.dispatch
  simp only
  split
  · exact hdelivered.respond _ _ _
  · exact hdelivered

theorem Delivered.step (h : Delivered requests session) {input : Input}
    (hstep : StepAnswerable limit config session input) :
    Delivered (requests ++ input.delivered.toList) (session.step port config input) := by
  by_cases hinput : input.aside = true
  · have hnone : input.delivered = none := by
      cases input with
      | receive frame => cases frame <;> first | rfl | simp [Input.aside] at hinput
      | _ => rfl
    rw [hnone, toList_none, append_nil]
    exact step_quiet Delivered.teardown Delivered.quiet hinput h
  · have hnothing : ∀ after : Session σ, Delivered requests after →
        Delivered (requests ++ []) after := by
      intro after hafter
      rwa [append_nil]
    cases input with
    | receive frame =>
      cases frame with
      | hello greeting =>
        apply hnothing
        exact receiveHello_quiet Delivered.teardown Delivered.quiet greeting h fun _ _ _ => h
      | req request =>
        simp only [Session.step, Session.receive]
        rw [if_neg hstep.1]
        exact h.dispatch request
      | _ => exact absurd rfl hinput
    | handlerSettled n outcome =>
      exact hnothing _ (handlerSettled_keeps h (fun _ _ _ _ _ => h.respond _ _ _) (h.settle n)
        fun _ _ h => h)
    | emit event =>
      exact hnothing _ (emit_keeps h (fun _ _ => send_keeps Delivered.teardown h) fun _ _ h => h)
    | _ => exact absurd rfl hinput

theorem Delivered.after (port : Port σ) (config : Config) (state : σ) {inputs : List Input}
    (hrun : Run.Along (Session.step port config) (StepAnswerable limit config)
      (Session.construct port config state) inputs) :
    Delivered (inputs.filterMap Input.delivered) (Session.after port config state inputs) := by
  induction inputs using reverseRecOn with
  | nil => exact construct_quiet Delivered.teardown Delivered.quiet state rfl
  | append_singleton inputs input ih =>
    obtain ⟨hbefore, hstep, -⟩ := Run.along_append.mp hrun
    have hafter : Session.after port config state (inputs ++ [input]) =
        (Session.after port config state inputs).step port config input :=
      Run.run_concat _ _ _ _
    rw [hafter, filterMap_append]
    have hdelivers : Delivered _ ((Session.after port config state inputs).step port config input) :=
      (ih hbefore).step hstep
    cases hdelivered : input.delivered <;> simpa [hdelivered] using hdelivers

/-! ## The guarantee -/

/-- In a run whose turns are answerable, every request that the session was
delivered has a dispatch, every dispatch that is over has one answer with its
id, and no other dispatch has an answer. -/
theorem delivered_requests_answered {port : Port σ} {limit : FrameLimit}
    (hport : port.RefusesOnly limit) {options : SessionOptions} {config : Config}
    (hconfig : configure options port.maxFrameBytes = .ok config)
    (hminor : options.protocol.minor ≤ maxSafeInteger) (state : σ) {inputs : List Input}
    (hinbound : ∀ frame, .receive frame ∈ inputs → isFrame frame = true)
    (hrun : Run.Along (Session.step port config) (StepAnswerable limit config)
      (Session.construct port config state) inputs) :
    Delivered (inputs.filterMap Input.delivered) (Session.after port config state inputs) ∧
      ResponseGuarantee (Session.after port config state inputs) := by
  rw [hport.maxFrameBytes] at hconfig
  obtain ⟨hceiling, hprotocol⟩ := configure_ok hconfig
  have hlimit := localFrameCeiling_le hceiling
  have hlocal : config.localProtocol.minor ≤ maxSafeInteger := hprotocol ▸ hminor
  refine ⟨Delivered.after port config state hrun, ?_⟩
  have hresponds : Responds (Session.after port config state inputs) := by
    refine Run.run_invariant_along ?_ (Responds.construct port config state) hrun
    intro session input hmem h hstep
    exact h.step hport hlimit hlocal (fun frame hframe => hinbound frame (hframe ▸ hmem)) hstep
  exact hresponds.toResponseGuarantee

/-! ### A run that meets the condition, and one that does not -/

/-- The open NDJSON port over a sink that takes every write; its state is what
was written. -/
def openNdjsonPort (limit : FrameLimit) : Port (List UInt8) where
  maxFrameBytes := some limit.bytes
  send written frame :=
    match encodeLine frame limit with
    | .ok line => (written ++ line, {})
    | .error error => (written, { thrown := some (.error "CodecError" error.message) })
  close written _ _ := written

theorem openNdjsonPort_refusesOnly (limit : FrameLimit) :
    (openNdjsonPort limit).RefusesOnly limit := by
  refine ⟨rfl, ?_, ?_⟩
  all_goals grind [openNdjsonPort, encodeLine, Except.map]

/-- A peer with one handler. -/
def statusOptions : SessionOptions :=
  { peer := ⟨"hub", "1.0.0", "hub"⟩
    handlers := AList.insert "engine.status" 0 ∅ }

def statusConfig : Config where
  peer := statusOptions.peer
  capabilities := []
  localProtocol := ⟨1, protocolMinor⟩
  localMaxFrameBytes := .least
  maxInFlight := defaultMaxInFlight
  maxStreamKeys := defaultMaxStreamKeys
  handshakeTimeoutMs := 15000
  liveness := true
  handlers := statusOptions.handlers
  requestIdPrefix := "r"
  inFlightFloor := by decide
  inFlightCeiling := by decide
  streamKeysFloor := by decide

/-- A handshake and one request. -/
def statusOpening : List Input :=
  [.receive (.hello ⟨⟨1, protocolMinor⟩, ⟨"studio", "1.0.0", "engine"⟩, [], none⟩),
    .receive (.req ⟨"r-1", "engine.status", .null⟩)]

/-- Then the handler throws. -/
def statusRun (error : RemoteError) : List Input :=
  statusOpening ++ [.handlerSettled 0 (.threw (.remote error))]

theorem configure_statusOptions :
    configure statusOptions (openNdjsonPort .least).maxFrameBytes = .ok statusConfig := rfl

theorem isFrame_statusRun (error : RemoteError) :
    ∀ frame, .receive frame ∈ statusRun error → isFrame frame = true := by
  intro frame hmem
  simp only [statusRun, statusOpening, mem_append, mem_cons, Input.receive.injEq, reduceCtorEq, not_mem_nil,
    or_false] at hmem
  rcases hmem with rfl | rfl
  · decide +kernel
  · decide +kernel

theorem waiting_statusOpening (dispatch : Dispatch)
    (hdispatch : (Session.after (openNdjsonPort .least) statusConfig []
      statusOpening).dispatches[0]? = some dispatch) : dispatch.request.id = "r-1" := by
  have hwaiting : (Session.after (openNdjsonPort .least) statusConfig []
      statusOpening).dispatches[0]?.map (fun dispatch => dispatch.request.id) = some "r-1" := by
    decide +kernel
  rw [hdispatch] at hwaiting
  exact some.inj hwaiting

theorem delivered_requests_answered_statusRun :
    ResponseGuarantee (Session.after (openNdjsonPort .least) statusConfig []
      (statusRun { code := "DENIED", message := "Not allowed." })) := by
  have hopening : Run.Along (Session.step (openNdjsonPort .least) statusConfig)
      (StepAnswerable .least statusConfig)
      (Session.construct (openNdjsonPort .least) statusConfig []) statusOpening :=
    ⟨trivial, ⟨by decide +kernel, fun _ _ _ => by decide +kernel⟩, trivial⟩
  have hthrown : StepAnswerable .least statusConfig
      (Session.after (openNdjsonPort .least) statusConfig [] statusOpening)
      (.handlerSettled 0 (.threw (.remote { code := "DENIED", message := "Not allowed." }))) := by
    intro dispatch hdispatch _
    rw [waiting_statusOpening dispatch hdispatch]
    exact ⟨by decide +kernel, by decide +kernel, by decide, by decide +kernel⟩
  exact (delivered_requests_answered (openNdjsonPort_refusesOnly .least) configure_statusOptions
    (by decide) [] (isFrame_statusRun _) (Run.along_append.mpr ⟨hopening, hthrown, trivial⟩)).2

/-- A handler that refuses with a code that is not a wire code: the session is
ready, the dispatch is over, and the port accepted no answer. -/
theorem unanswered_invalid_code :
    (openNdjsonPort .least).RefusesOnly .least ∧
      configure statusOptions (openNdjsonPort .least).maxFrameBytes = .ok statusConfig ∧
      (∀ frame, .receive frame ∈ statusRun { code := "denied", message := "Not allowed." } →
        isFrame frame = true) ∧
      (Session.after (openNdjsonPort .least) statusConfig []
        (statusRun { code := "denied", message := "Not allowed." })).state = .ready ∧
      ¬ ResponseGuarantee (Session.after (openNdjsonPort .least) statusConfig []
        (statusRun { code := "denied", message := "Not allowed." })) := by
  refine ⟨openNdjsonPort_refusesOnly .least, configure_statusOptions, isFrame_statusRun _,
    by decide +kernel, fun h => ?_⟩
  have hsettled : (Session.after (openNdjsonPort .least) statusConfig []
      (statusRun { code := "denied", message := "Not allowed." })).dispatches[0]?.map
        Dispatch.settled = some true := by decide +kernel
  have hnone : ((Session.after (openNdjsonPort .least) statusConfig []
      (statusRun { code := "denied", message := "Not allowed." })).answers 0).isEmpty = true := by
    decide +kernel
  obtain ⟨dispatch, hdispatch, hover⟩ := Option.map_eq_some_iff.mp hsettled
  obtain ⟨frame, hanswers, -⟩ := h.answered 0 dispatch hdispatch hover
  rw [hanswers] at hnone
  exact Bool.false_ne_true hnone

end MangoStudio.Protocol.Ts
