import MangoStudio.Lib.Correlation
import MangoStudio.Lib.Run
import MangoStudio.Session.Common

/-!
# The TypeScript session

`packages/protocol/src/session.ts`.  A session is a state record and a step
function; an `Input` is one turn of the event loop: a frame or a closure from
the port, a handler that settles, a call of one of the session's methods, a
timer.  JavaScript runs a turn to its end, so the interleavings of a session
are the lists of inputs.

* **The port** is any state machine.  Its `send` may throw, and it may report
  its own closure while it runs, as the NDJSON port does when its sink breaks;
  the session's teardown then happens inside the call.  `send` models both.
* **Promises.**  `calls` has one record for each call of `request`.  A promise
  keeps the first outcome it is given (`Call.settle`), and `#pending` points
  from request ids to calls.  A call first waits for `ready`; the part after
  the `await` is a turn of its own, `resume`.
* **Handlers.**  `dispatches` has one record for each request that was
  delivered.  A handler is what the environment makes of it: `handlerSettled`
  says what it returned or threw.  `#active` points from request ids to
  dispatches.
* **What the port took.**  `sent` is the list of frames that the port accepted,
  each with the part of the session that asked for it.

Listeners, the durations of timers and the wait at the end of `close()` read
the state and do not change it, so they are left out; a timer is a flag that
says whether it is armed.
-/

namespace MangoStudio.Protocol.Ts

/-! ## Errors -/

/-- A `RemoteError`.  `sessionClosed` is membership in the module's own set of
errors that a closed session raised. -/
structure RemoteError where
  code : String
  message : String
  details : Option OpenObject := none
  sessionClosed : Bool := false

/-- What a handler or a port can throw: a `RemoteError`, any other `Error` with
its name and message, or a value that is not an error, as `String` writes it. -/
inductive Thrown where
  | remote (error : RemoteError)
  | error (name message : String)
  | other (text : String)

def describe : Thrown → String
  | .remote error => error.message
  | .error _ message => message
  | .other text => text

def isAbortError : Thrown → Bool
  | .remote _ => false
  | .error name _ => name == "AbortError"
  | .other _ => false

/-- The message of an error that has one, else the fallback. -/
def messageOr (thrown : Thrown) (fallback : String) : String :=
  match thrown with
  | .other _ => fallback
  | thrown => if describe thrown = "" then fallback else describe thrown

/-- Maps what a handler threw onto the wire error payload. -/
def errorPayloadFor (thrown : Thrown) (aborted : Bool) : ErrorPayload :=
  match thrown with
  | .remote error => ⟨error.code, error.message, error.details⟩
  | thrown =>
    if isAbortError thrown || aborted then
      ⟨Codes.cancelled, messageOr thrown "The request was cancelled.", none⟩
    else ⟨Codes.internal, messageOr thrown "The handler failed.", none⟩

/-! ## The port -/

/-- Why a port stopped delivering frames. -/
inductive PortClosure where
  | closed (code : Option Nat) (reason : Option String)
  | protocolError (error : CodecError) (code : Nat)

/-- What one `send` does besides the state change: the closure that the port
reports while it runs, and what it throws. -/
structure SendEffect where
  closure : Option PortClosure := none
  thrown : Option Thrown := none

/-- One end of a transport, as a state machine.  A throw of `close` is
swallowed by its only caller. -/
structure Port (σ : Type) where
  maxFrameBytes : Option Nat
  send : σ → Frame → σ × SendEffect
  close : σ → Nat → Option String → σ

/-! ## Options -/

/-- The options that a session reads; an absent one takes its default. -/
structure SessionOptions where
  peer : PeerInfo
  capabilities : OpenObject := []
  protocol : ProtocolVersion := ⟨1, protocolMinor⟩
  maxFrameBytes : Option Nat := none
  maxInFlight : Option Nat := none
  maxStreamKeys : Option Nat := none
  handshakeTimeoutMs : Nat := 15000
  liveness : Bool := true
  handlers : Table String Nat := ∅
  requestIdPrefix : String := "r"

/-- What the constructor keeps of its options once it has checked them. -/
structure Config where
  peer : PeerInfo
  capabilities : OpenObject
  localProtocol : ProtocolVersion
  localMaxFrameBytes : FrameLimit
  maxInFlight : Nat
  maxStreamKeys : Nat
  handshakeTimeoutMs : Nat
  liveness : Bool
  handlers : Table String Nat
  requestIdPrefix : String
  inFlightFloor : minAnnouncedInFlight ≤ maxInFlight
  inFlightCeiling : maxInFlight ≤ maxAnnouncedInFlight
  streamKeysFloor : minOpenStreamKeys ≤ maxStreamKeys

/-- A frame ceiling inside the range of the wire. -/
def resolveCeiling (name : String) (value : Nat) : Except String FrameLimit :=
  match h : resolveIntegerAtLeast name (some value) defaultMaxFrameBytes minAnnouncedFrameBytes
      (some maxAnnouncedFrameBytes) with
  | .error message => .error message
  | .ok resolved =>
    .ok ⟨resolved, (resolveIntegerAtLeast_ok h).2.1, (resolveIntegerAtLeast_ok h).2.2 _ rfl⟩

/-- The frame ceiling this side announces: the lower of what the session asked
for and what the port can decode. -/
def localFrameCeiling (requested portCeiling : Option Nat) : Except String FrameLimit := do
  let ceiling ← portCeiling.mapM (resolveCeiling "port maxFrameBytes")
  match requested with
  | none => return ceiling.getD .standard
  | some requested =>
    let floored ← resolveCeiling "maxFrameBytes" requested
    return floored.lower (ceiling.getD floored)

/-- The checks of the constructor. -/
def configure (options : SessionOptions) (portCeiling : Option Nat) : Except String Config :=
  match localFrameCeiling options.maxFrameBytes portCeiling with
  | .error message => .error message
  | .ok localMaxFrameBytes =>
    match hin : resolveIntegerAtLeast "maxInFlight" options.maxInFlight defaultMaxInFlight
        minAnnouncedInFlight (some maxAnnouncedInFlight) with
    | .error message => .error message
    | .ok maxInFlight =>
      match hkeys : resolveIntegerAtLeast "maxStreamKeys" options.maxStreamKeys
          defaultMaxStreamKeys minOpenStreamKeys none with
      | .error message => .error message
      | .ok maxStreamKeys =>
        .ok
          { peer := options.peer
            capabilities := options.capabilities
            localProtocol := options.protocol
            localMaxFrameBytes
            maxInFlight
            maxStreamKeys
            handshakeTimeoutMs := options.handshakeTimeoutMs
            liveness := options.liveness
            handlers := options.handlers
            requestIdPrefix := options.requestIdPrefix
            inFlightFloor := (resolveIntegerAtLeast_ok hin).2.1
            inFlightCeiling := (resolveIntegerAtLeast_ok hin).2.2 _ rfl
            streamKeysFloor := (resolveIntegerAtLeast_ok hkeys).2.1 }

theorem resolveCeiling_ok {name : String} {value : Nat} {limit : FrameLimit}
    (h : resolveCeiling name value = .ok limit) : limit.bytes = value := by
  unfold resolveCeiling at h
  split at h
  · cases h
  · rename_i resolved hresolved
    obtain rfl := Except.ok.inj h
    exact (resolveIntegerAtLeast_ok hresolved).1

theorem localFrameCeiling_le {requested : Option Nat} {portCeiling : Nat} {limit : FrameLimit}
    (h : localFrameCeiling requested (some portCeiling) = .ok limit) :
    limit.bytes ≤ portCeiling := by
  unfold localFrameCeiling at h
  cases hport : resolveCeiling "port maxFrameBytes" portCeiling with
  | error message => simp [hport, bind, Except.bind] at h
  | ok ceiling =>
    rw [← resolveCeiling_ok hport]
    cases requested with
    | none =>
      simp only [hport, Option.mapM_some, bind, Except.bind, Functor.map, Except.map, pure,
        Except.pure, Option.getD_some, Except.ok.injEq] at h
      rw [h]
    | some requested =>
      cases hfloored : resolveCeiling "maxFrameBytes" requested with
      | error message =>
        simp [hport, hfloored, bind, Except.bind, Functor.map, Except.map] at h
      | ok floored =>
        simp only [hport, hfloored, Option.mapM_some, bind, Except.bind, Functor.map, Except.map,
          pure, Except.pure, Option.getD_some, Except.ok.injEq] at h
        rw [← h]
        exact FrameLimit.lower_le_right floored ceiling

theorem configure_ok {options : SessionOptions} {portCeiling : Option Nat} {config : Config}
    (h : configure options portCeiling = .ok config) :
    localFrameCeiling options.maxFrameBytes portCeiling = .ok config.localMaxFrameBytes ∧
      config.localProtocol = options.protocol := by
  grind [configure]

/-! ## Calls and dispatches -/

/-- What a promise settles with. -/
inductive Outcome where
  | resolved (value : Json)
  | rejected (error : RemoteError)

/-- One call of `request`.  `id` is the id it was issued, `registered` says that
it entered the pending map, `listening` that its abort listener is attached and
`timer` that its deadline is armed. -/
structure Call where
  method : String
  params : Json
  timeoutMs : Option Nat
  id : Option String := none
  registered : Bool := false
  aborted : Bool := false
  listening : Bool := false
  timer : Bool := false
  outcome : Option Outcome := none

/-- A promise keeps the first outcome it is given. -/
def Call.settle (outcome : Outcome) (call : Call) : Call :=
  { call with outcome := some (call.outcome.getD outcome) }

/-- Clears the deadline and detaches the abort listener. -/
def Call.cleanup (call : Call) : Call := { call with timer := false, listening := false }

/-- An entry of the pending map: the method, and the call whose promise and
cleanup it holds. -/
structure PendingRequest where
  method : String
  call : Nat

/-- One request that was delivered: `aborted` is its abort signal, `settled`
says that its dispatch is over. -/
structure Dispatch where
  request : Request
  aborted : Bool := false
  settled : Bool := false

def Dispatch.abort (dispatch : Dispatch) : Dispatch := { dispatch with aborted := true }

def Dispatch.settle (dispatch : Dispatch) : Dispatch := { dispatch with settled := true }

/-- What a handler made of its request.  A result of `undefined` is `none`.  The
last outcome is a `RemoteError` whose details `JSON.stringify` refuses (a bigint,
a cycle): its payload is no frame. -/
inductive HandlerOutcome where
  | returned (result : Option Json)
  | threw (error : Thrown)
  | threwUnserialisable

/-- An event to publish. -/
structure EventInput where
  topic : String
  payload : Json
  streamId : Option String := none
  isEnd : Bool := false

/-- The stream key of an event: its `streamId`, else its topic. -/
def EventInput.key (event : EventInput) : String := event.streamId.getD event.topic

/-! ## The session -/

/-- Why a session ended. -/
structure SessionClosure where
  code : Nat
  reason : Option String := none
  fatal : Bool
  error : Option CodecError := none

/-- Which part of the session asked for a frame. -/
inductive Origin where
  | dispatch (n : Nat)
  | call (n : Nat)
  | emit
  | session
  deriving DecidableEq, Repr

/-- A frame that the port accepted. -/
structure Sent where
  origin : Origin
  frame : Frame

/-- The state of a session, its port's state and what the port accepted. -/
structure Session (σ : Type) where
  port : σ
  state : SessionState := .handshaking
  remote : Option RemotePeer := none
  ready : Option (Except RemoteError RemotePeer) := none
  closure : Option SessionClosure := none
  announcedClose : Option Close := none
  handlers : Table String Nat := ∅
  pending : Table String PendingRequest := ∅
  active : Table String Nat := ∅
  eventSequences : Table String Nat := ∅
  requestSequence : Nat := 0
  awaitingPong : Bool := false
  handshakeTimer : Bool := false
  livenessTimer : Bool := false
  calls : List Call := []
  dispatches : List Dispatch := []
  sent : List Sent := []

/-- `: reason`, or nothing without one. -/
def reasonSuffix : Option String → String
  | none => ""
  | some reason => if reason = "" then "" else s!": {reason}"

/-- The error of a request that a closed session cannot complete. -/
def unavailable (method : String) (closure : Option SessionClosure) (id : Option String) :
    RemoteError :=
  let why := match closure with
    | none => ""
    | some closure => s!" (closed with {closure.code}{reasonSuffix closure.reason})"
  { code := Codes.unavailable
    message := s!"Request \"{method}\" cannot complete: the session is closed{why}."
    details := some ([("method", .str method)] ++ optionalMember "id" (id.map Json.str) ++
      optionalMember "closeCode" (closure.map fun closure => Json.nat closure.code))
    sessionClosed := true }

/-- The error of a handshake that a closure cut short. -/
def closedBeforeReady (closure : SessionClosure) : RemoteError :=
  { code :=
      if closure.code = CloseCodes.protocolMismatch then Codes.protocolMismatch
      else Codes.unavailable
    message := s!"The session closed before the handshake completed ({closure.code}{reasonSuffix closure.reason})."
    details := some [("closeCode", .nat closure.code)] }

def asSendFailure (error : Thrown) (method : String) : RemoteError :=
  match error with
  | .remote error => error
  | error =>
    { code := Codes.unavailable
      message := s!"Request \"{method}\" could not be sent: {describe error}"
      details := some [("method", .str method)] }

variable {σ : Type}

namespace Session

/-- Settles `ready` unless something settled it before. -/
def settleReady (session : Session σ) (outcome : Except RemoteError RemotePeer) : Session σ :=
  { session with ready := some (session.ready.getD outcome) }

/-- The loop of the teardown over the pending map: clean up, then reject. -/
def rejectPending (session : Session σ) (closure : SessionClosure) : List Call :=
  Correlation.sweep PendingRequest.call
    (fun id pending call =>
      call.cleanup.settle (.rejected (unavailable pending.method (some closure) (some id))))
    session.pending session.calls

/-- The loop of the teardown over the abort controllers. -/
def abortActive (session : Session σ) : List Dispatch :=
  Correlation.sweep (fun n => n) (fun _ _ dispatch => dispatch.abort) session.active
    session.dispatches

/-- Ends the session.  Every path to the end funnels through here, and only the
first has an effect. -/
def teardown (session : Session σ) (closure : SessionClosure) : Session σ :=
  if session.state = .closed then session
  else
    { session.settleReady (.error (closedBeforeReady closure)) with
      state := .closed
      closure := some closure
      handshakeTimer := false
      livenessTimer := false
      calls := session.rejectPending closure
      pending := ∅
      dispatches := session.abortActive
      active := ∅
      eventSequences := ∅ }

/-- The port is gone: with a refused record, or with the code and reason that
the port, or an earlier `close` frame, gave. -/
def handlePortClosed (session : Session σ) (closure : PortClosure) : Session σ :=
  match closure with
  | .protocolError error code =>
    session.teardown
      { code, reason := some error.message, fatal := isFatalCloseCode code, error := some error }
  | .closed code reason =>
    let code := (code.orElse fun _ => session.announcedClose.map Close.code).getD
      CloseCodes.released
    let reason := reason.orElse fun _ => session.announcedClose.bind Close.reason
    session.teardown { code, reason, fatal := isFatalCloseCode code }

variable (port : Port σ) (config : Config)

/-- The session once the port's `send` has run, before the port's own closure
report reaches it. -/
def afterSend (session : Session σ) (origin : Origin) (frame : Frame) : Session σ :=
  let result := port.send session.port frame
  { session with
    port := result.1
    sent := session.sent ++ if result.2.thrown.isNone then [⟨origin, frame⟩] else [] }

/-- `this.#port.send(frame)`: the new state and what the call threw. -/
def send (session : Session σ) (origin : Origin) (frame : Frame) : Session σ × Option Thrown :=
  let effect := (port.send session.port frame).2
  let session := session.afterSend port origin frame
  (match effect.closure with
    | none => session
    | some closure => session.handlePortClosed closure,
  effect.thrown)

/-- Sends unless the session is closed, and swallows what the port throws. -/
def trySend (session : Session σ) (origin : Origin) (frame : Frame) : Session σ :=
  if session.state = .closed then session else (session.send port origin frame).1

/-- The frame ceiling this side may send under. -/
def sendLimit (session : Session σ) : Nat :=
  sendLimitBytes config.localMaxFrameBytes session.remote

def assertFits (session : Session σ) (frame : Frame) (what : String) : Except RemoteError Unit :=
  if measureFrameBytes frame ≤ session.sendLimit config then .ok ()
  else .error
    { code := Codes.frameTooLarge
      message := tooLargeMessage what (measureFrameBytes frame) (session.sendLimit config)
      details := some [("bytes", .nat (measureFrameBytes frame)),
        ("limit", .nat (session.sendLimit config))] }

/-- Closes the transport and tears down. -/
def closeNow (session : Session σ) (code : Nat) (reason : Option String) : Session σ :=
  if session.state = .closed then session
  else
    { session with port := port.close session.port code reason }.teardown
      { code, reason, fatal := isFatalCloseCode code }

def failHandshake (session : Session σ) (error : RemoteError) (code : Nat) (reason : String) :
    Session σ :=
  (session.settleReady (.error error)).closeNow port code (some reason)

/-! ### Requests of this side -/

/-- Changes one call's record. -/
def updateCall (session : Session σ) (n : Nat) (change : Call → Call) : Session σ :=
  { session with calls := session.calls.modify n change }

/-- Deletes an entry of the pending map, cleans up and settles its call. -/
def withdraw (session : Session σ) (n : Nat) (id : String) (outcome : Outcome) : Session σ :=
  { session with pending := session.pending.erase id }.updateCall n fun call =>
    call.cleanup.settle outcome

/-- Settles the pending request of an id; an id without one is ignored. -/
def settle (session : Session σ) (id : String) (outcome : Outcome) : Session σ :=
  match session.pending.lookup id with
  | none => session
  | some pending => session.withdraw pending.call id outcome

/-- `isValidMethodName`. -/
def isValidMethodName (name : String) : Bool :=
  decide (name.length ≤ methodMaxLength) && methodPattern.rmatch name.toList

/-- The part of `request` before it awaits `ready`: a name that no session can
send is refused, and any other call waits. -/
def request (session : Session σ) (method : String) (params : Json) (timeoutMs : Option Nat) :
    Session σ :=
  let refusal : Option Outcome :=
    if !isValidMethodName method ||
        (isReservedMethodName method && !isDefinedReservedMethod method protocolMinor) then
      some (.rejected
        { code := Codes.invalidRequest
          message := s!"Method \"{method}\" is not a valid, unreserved method name; expected two or more dot-separated lowercase segments outside rpc." })
    else none
  { session with calls := session.calls ++ [{ method, params, timeoutMs, outcome := refusal }] }

/-- The id of the next request. -/
def nextId (session : Session σ) : String :=
  s!"{config.requestIdPrefix}-{session.requestSequence + 1}"

/-- Gives the next id to a call. -/
def issue (session : Session σ) (n : Nat) : Session σ :=
  { session with requestSequence := session.requestSequence + 1 }.updateCall n fun call =>
    { call with id := some (session.nextId config) }

/-- Enters a call in the pending map, attaches its abort listener and arms its
deadline. -/
def enter (session : Session σ) (n : Nat) (method id : String) : Session σ :=
  { session with pending := session.pending.insert id ⟨method, n⟩ }.updateCall n fun call =>
    { call with registered := true, listening := true, timer := call.timeoutMs.isSome }

/-- Registers a call under its id and sends its frame.  A `send` that throws
takes the call back out. -/
def register (session : Session σ) (n : Nat) (call : Call) (id : String) : Session σ :=
  let sent := (session.enter n call.method id).send port (.call n)
    (.req ⟨id, call.method, call.params⟩)
  match sent.2 with
  | some error => sent.1.withdraw n id (.rejected (asSendFailure error call.method))
  | none => if call.aborted then sent.1.trySend port (.call n) (.cancel ⟨id⟩) else sent.1

/-- The part of `request` after `ready` has resolved. -/
def proceed (session : Session σ) (n : Nat) (call : Call) (remote : RemotePeer) : Session σ :=
  if isReservedMethodName call.method &&
      !isDefinedReservedMethod call.method remote.effectiveMinor then
    session.updateCall n <| Call.settle <| .rejected
      { code := Codes.invalidRequest
        message := s!"Method \"{call.method}\" is defined from wire minor {rpcDiscoverMinor}; this session negotiated minor {remote.effectiveMinor}."
        details := some [("method", .str call.method),
          ("effectiveMinor", .nat remote.effectiveMinor)] }
  else if session.state = .closed then
    session.updateCall n <| Call.settle <| .rejected
      (unavailable call.method session.closure none)
  else
    let id := session.nextId config
    match session.assertFits config (.req ⟨id, call.method, call.params⟩)
        s!"Request \"{call.method}\"" with
    | .error error => (session.issue config n).updateCall n <| Call.settle (.rejected error)
    | .ok () => (session.issue config n).register port n call id

/-- A call that awaits `ready` goes on once it is settled. -/
def resume (session : Session σ) (n : Nat) : Session σ :=
  match session.calls[n]?, session.ready with
  | some call, some outcome =>
    if call.id.isSome || call.outcome.isSome then session
    else
      match outcome with
      | .error error => session.updateCall n <| Call.settle (.rejected error)
      | .ok remote => session.proceed port config n call remote
  | _, _ => session

/-- The signal of a call fires, once.  Its listener asks the peer to stop. -/
def abort (session : Session σ) (n : Nat) : Session σ :=
  match session.calls[n]? with
  | none => session
  | some call =>
    if call.aborted then session
    else
      let aborted := session.updateCall n fun call =>
        { call with aborted := true, listening := false }
      match call.listening, call.id with
      | true, some id => aborted.trySend port (.call n) (.cancel ⟨id⟩)
      | _, _ => aborted

/-- Deletes the entry of a call whose deadline fired, and cleans up. -/
def expire (session : Session σ) (n : Nat) (id : String) : Session σ :=
  { session with pending := session.pending.erase id }.updateCall n Call.cleanup

/-- The deadline of a call fires: the entry goes, the peer is asked to stop, and
the promise is rejected last. -/
def timeout (session : Session σ) (n : Nat) : Session σ :=
  match session.calls[n]? with
  | none => session
  | some call =>
    match call.timer, call.id with
    | true, some id =>
      if id ∈ session.pending then
        ((session.expire n id).trySend port (.call n) (.cancel ⟨id⟩)).updateCall n <|
          Call.settle <| .rejected
            { code := Codes.timeout
              message := s!"Request \"{call.method}\" timed out after {call.timeoutMs.getD 0}ms."
              details := some [("method", .str call.method),
                ("timeoutMs", .nat (call.timeoutMs.getD 0))] }
      else session
    | _, _ => session

/-! ### Events -/

/-- The frame that `emit` builds, numbered from the key's counter. -/
def nextEvent (session : Session σ) (event : EventInput) : Event :=
  { topic := event.topic
    seq := (session.eventSequences.lookup event.key).getD 0
    streamId := event.streamId
    payload := event.payload
    isEnd := event.isEnd }

/-- Moves the counter of a key on, or releases it at the end of its stream. -/
def commitEvent (session : Session σ) (event : EventInput) (seq : Nat) : Session σ :=
  { session with
    eventSequences :=
      if event.isEnd then session.eventSequences.erase event.key
      else session.eventSequences.insert event.key (seq + 1) }

/-- Publishes an event.  The counter is committed after the send, so that a
port that throws leaves the key as it was. -/
def emit (session : Session σ) (event : EventInput) : Session σ × Except Thrown Bool :=
  if session.state ≠ .ready then (session, .ok false)
  else if event.key ∉ session.eventSequences ∧
      config.maxStreamKeys ≤ Table.size session.eventSequences then
    (session, .error (.remote
      { code := Codes.unavailable
        message := s!"Stream key \"{event.key}\" would be the {config.maxStreamKeys + 1}th open on this session; the ceiling is {config.maxStreamKeys}. End a stream before starting another."
        details := some [("kind", .str "stream_key_limit"), ("key", .str event.key),
          ("limit", .nat config.maxStreamKeys)] }))
  else
    match session.assertFits config (.evt (session.nextEvent event))
        s!"Event \"{event.topic}\"" with
    | .error error => (session, .error (.remote error))
    | .ok () =>
      let sent := session.send port .emit (.evt (session.nextEvent event))
      match sent.2 with
      | some error => (sent.1, .error error)
      | none => (sent.1.commitEvent event (session.nextEvent event).seq, .ok true)

/-! ### Requests of the peer -/

/-- The answer to a request that this side refuses: the five checks in the
order of the source. -/
def refusal (session : Session σ) (request : Request) : Option ErrorPayload :=
  let effectiveMinor := (session.remote.map RemotePeer.effectiveMinor).getD 0
  if session.state ≠ .ready then some handshakeIncomplete
  else if config.maxInFlight ≤ Table.size session.active then
    some (inFlightLimitReached config.maxInFlight request.method)
  else if request.id ∈ session.active then some (duplicateRequest request.id)
  else if isReservedMethodName request.method &&
      !isDefinedReservedMethod request.method effectiveMinor then
    some (reservedMethod request.method effectiveMinor)
  else if request.method ∉ session.handlers then some (methodUnsupported request.method)
  else none

def respondError (session : Session σ) (n : Nat) (id : String) (error : ErrorPayload) :
    Session σ :=
  session.trySend port (.dispatch n) (.err ⟨id, error⟩)

/-- Answers with the result, or with an error when the result is too large. -/
def respondResult (session : Session σ) (n : Nat) (id method : String) (result : Json) :
    Session σ :=
  let frame : Frame := .res ⟨id, result⟩
  if session.sendLimit config < measureFrameBytes frame then
    session.respondError port n id
      (resultTooLarge method (measureFrameBytes frame) (session.sendLimit config))
  else session.trySend port (.dispatch n) frame

/-- Marks a dispatch as over. -/
def settleDispatch (session : Session σ) (n : Nat) : Session σ :=
  { session with dispatches := session.dispatches.modify n Dispatch.settle }

/-- Routes one inbound request: an answer at once, or a handler that runs. -/
def dispatch (session : Session σ) (request : Request) : Session σ :=
  let n := session.dispatches.length
  let delivered : Session σ :=
    { session with dispatches := session.dispatches ++ [{ request := request }] }
  match session.refusal config request with
  | some error => (delivered.respondError port n request.id error).settleDispatch n
  | none => { delivered with active := delivered.active.insert request.id n }

/-- A handler settles: its result or its error is answered, and the request is
no longer active. -/
def handlerSettled (session : Session σ) (n : Nat) (outcome : HandlerOutcome) : Session σ :=
  match session.dispatches[n]? with
  | none => session
  | some dispatch =>
    if dispatch.settled then session
    else
      let answered := match outcome with
        | .returned result =>
          session.respondResult port config n dispatch.request.id dispatch.request.method
            (result.getD .null)
        | .threw error =>
          session.respondError port n dispatch.request.id
            (errorPayloadFor error dispatch.aborted)
        -- every port encodes, so `send` throws and `#trySend` swallows it
        | .threwUnserialisable => session
      { answered with active := answered.active.erase dispatch.request.id }.settleDispatch n

/-! ### Frames, timers and the constructor -/

/-- The handshake completes: the peer is recorded and the session is ready. -/
def welcome (session : Session σ) (greeting : Hello) (effectiveMinor : Nat) : Session σ :=
  let remote : RemotePeer :=
    { peer := greeting.peer, protocol := greeting.protocol,
      capabilities := greeting.capabilities, limits := greeting.limits, effectiveMinor }
  { session.settleReady (.ok remote) with
    remote := some remote
    handshakeTimer := false
    state := .ready
    livenessTimer := config.liveness }

def receiveHello (session : Session σ) (greeting : Hello) : Session σ :=
  if session.state ≠ .handshaking then
    session.closeNow port CloseCodes.protocolError (some "duplicate hello")
  else
    match negotiate config.localProtocol greeting.protocol with
    | .mismatch closeCode =>
      session.failHandshake port
        { code := Codes.protocolMismatch
          message := s!"Peer \"{greeting.peer.name}\" speaks wire major {greeting.protocol.major}; this session speaks major {config.localProtocol.major}."
          details := some
            [("local", .obj [("major", .nat config.localProtocol.major),
                ("minor", .nat config.localProtocol.minor)]),
              ("remote", .obj [("major", .nat greeting.protocol.major),
                ("minor", .nat greeting.protocol.minor)]),
              ("closeCode", .nat closeCode)] }
        closeCode "protocol version unsupported"
    | .compatible effectiveMinor => session.welcome config greeting effectiveMinor

/-- Routes one inbound frame.  A closed session has let go of its port. -/
def receive (session : Session σ) (frame : Frame) : Session σ :=
  if session.state = .closed then session
  else
    match frame with
    | .hello greeting => session.receiveHello port config greeting
    | .req request => session.dispatch port config request
    | .res response => session.settle response.id (.resolved response.result)
    | .err error =>
      session.settle error.id
        (.rejected ⟨error.error.code, error.error.message, error.error.details, false⟩)
    | .evt _ => session
    | .cancel target =>
      match session.active.lookup target.id with
      | none => session
      | some n => { session with dispatches := session.dispatches.modify n Dispatch.abort }
    | .ping => session.trySend port .session .pong
    | .pong => { session with awaitingPong := false }
    | .close farewell =>
      { session with announcedClose := some farewell }.teardown
        { code := farewell.code, reason := farewell.reason,
          fatal := isFatalCloseCode farewell.code }

/-- The liveness interval fires: a missed round trip closes the session, and
otherwise a ping goes out. -/
def livenessTick (session : Session σ) : Session σ :=
  if session.livenessTimer = false ∨ session.state ≠ .ready then session
  else if session.awaitingPong then
    session.closeNow port CloseCodes.released (some "liveness timeout")
  else { session with awaitingPong := true }.trySend port .session .ping

def handshakeTimeout (session : Session σ) : Session σ :=
  if session.handshakeTimer = false ∨ session.state ≠ .handshaking then session
  else
    session.failHandshake port
      { code := Codes.unavailable
        message := s!"The peer did not send hello within {config.handshakeTimeoutMs}ms."
        details := some [("timeoutMs", .nat config.handshakeTimeoutMs)] }
      CloseCodes.protocolError "handshake timeout"

/-- The hello of this side.  Limits at their defaults are not announced. -/
def buildHello : Hello :=
  let limits : Limits :=
    { maxFrameBytes :=
        if config.localMaxFrameBytes.bytes < defaultMaxFrameBytes then
          some config.localMaxFrameBytes.bytes
        else none
      maxInFlight :=
        if config.maxInFlight ≠ defaultMaxInFlight then some config.maxInFlight else none }
  { protocol := config.localProtocol
    peer := config.peer
    capabilities := config.capabilities
    limits := if limits = {} then none else some limits }

/-- The constructor: subscribe to the port, send the hello, arm the handshake
timer. -/
def construct (state : σ) : Session σ :=
  let fresh : Session σ := { port := state, handlers := config.handlers }
  let sent := fresh.send port .session (.hello (buildHello config))
  match sent.2 with
  | some error =>
    sent.1.failHandshake port
      { code := Codes.unavailable
        message := s!"The transport refused the hello: {describe error}" }
      CloseCodes.released "hello could not be sent"
  | none => { sent.1 with handshakeTimer := true }

end Session

/-! ## Runs -/

/-- One turn of the event loop. -/
inductive Input where
  | receive (frame : Frame)
  | portClosed (closure : PortClosure)
  | handlerSettled (n : Nat) (outcome : HandlerOutcome)
  | request (method : String) (params : Json) (timeoutMs : Option Nat)
  | resume (n : Nat)
  | abort (n : Nat)
  | timeout (n : Nat)
  | emit (event : EventInput)
  | ping
  | livenessTick
  | handshakeTimeout
  | closeNow (code : Nat) (reason : Option String)
  | handle (method : String) (handler : Nat)
  | unhandle (method : String) (handler : Nat)

variable (port : Port σ) (config : Config)

/-- What one turn does to the session. -/
def Session.step (session : Session σ) : Input → Session σ
  | .receive frame => session.receive port config frame
  | .portClosed closure => session.handlePortClosed closure
  | .handlerSettled n outcome => session.handlerSettled port config n outcome
  | .request method params timeoutMs => session.request method params timeoutMs
  | .resume n => session.resume port config n
  | .abort n => session.abort port n
  | .timeout n => session.timeout port n
  | .emit event => (session.emit port config event).1
  | .ping => (session.send port .session .ping).1
  | .livenessTick => session.livenessTick port
  | .handshakeTimeout => session.handshakeTimeout port config
  | .closeNow code reason => session.closeNow port code reason
  | .handle method handler => { session with handlers := session.handlers.insert method handler }
  | .unhandle method handler =>
    if session.handlers.lookup method = some handler then
      { session with handlers := session.handlers.erase method }
    else session

/-- The session after the constructor and a list of turns. -/
def Session.after (state : σ) (inputs : List Input) : Session σ :=
  Run.run (Session.step port config) (Session.construct port config state) inputs

/-! ## What a send and a teardown can do

The port's `send` runs inside most turns, and with it possibly a teardown.  The
rules below are how an invariant gets past them: it has to survive the update
of the port and of the list of accepted frames, and it has to survive a
teardown. -/

namespace Session

variable {port} {session : Session σ} {origin : Origin} {frame : Frame}

@[simp] theorem teardown_of_closed (hclosed : session.state = .closed)
    (closure : SessionClosure) : session.teardown closure = session :=
  if_pos hclosed

theorem teardown_of_open (hopen : session.state ≠ .closed) (closure : SessionClosure) :
    session.teardown closure =
      { session.settleReady (.error (closedBeforeReady closure)) with
        state := .closed
        closure := some closure
        handshakeTimer := false
        livenessTimer := false
        calls := session.rejectPending closure
        pending := ∅
        dispatches := session.abortActive
        active := ∅
        eventSequences := ∅ } :=
  if_neg hopen

@[simp] theorem teardown_state (closure : SessionClosure) :
    (session.teardown closure).state = .closed := by
  unfold teardown
  split_ifs with h
  · exact h
  · rfl

theorem teardown_calls (hopen : session.state ≠ .closed) (closure : SessionClosure) :
    (session.teardown closure).calls = session.rejectPending closure := by
  rw [teardown_of_open hopen]

@[simp] theorem teardown_remote (closure : SessionClosure) :
    (session.teardown closure).remote = session.remote := by
  unfold teardown
  split_ifs <;> rfl

@[simp] theorem settle_state (session : Session σ) (id : String) (outcome : Outcome) :
    (session.settle id outcome).state = session.state := by
  unfold settle
  split <;> rfl

theorem handlePortClosed_eq (session : Session σ) (closure : PortClosure) :
    ∃ ended, session.handlePortClosed closure = session.teardown ended := by
  cases closure with
  | closed | protocolError => exact ⟨_, rfl⟩

variable (port) in
theorem send_cases (session : Session σ) (origin : Origin) (frame : Frame) :
    (session.send port origin frame).1 = session.afterSend port origin frame ∨
      ∃ closure, (session.send port origin frame).1 =
        (session.afterSend port origin frame).teardown closure := by
  unfold send
  cases hclosure : (port.send session.port frame).2.closure with
  | none => exact .inl (by simp only [hclosure])
  | some closure =>
    obtain ⟨ended, hended⟩ := handlePortClosed_eq (session.afterSend port origin frame) closure
    exact .inr ⟨ended, by simp only [hclosure, hended]⟩

variable {inv : Session σ → Prop}
  (hteardown : ∀ session closure, inv session → inv (session.teardown closure))

include hteardown

theorem send_keeps (hafter : inv (session.afterSend port origin frame)) :
    inv (session.send port origin frame).1 := by
  grind [send_cases]

theorem trySend_keeps (hinv : inv session)
    (hafter : inv (session.afterSend port origin frame)) :
    inv (session.trySend port origin frame) := by
  unfold trySend
  split_ifs
  · exact hinv
  · exact send_keeps hteardown hafter

theorem closeNow_keeps {code : Nat} {reason : Option String} (hinv : inv session)
    (hport : inv { session with port := port.close session.port code reason }) :
    inv (session.closeNow port code reason) := by
  unfold closeNow
  split_ifs
  · exact hinv
  · exact hteardown _ _ hport

end Session

end MangoStudio.Protocol.Ts
