import MangoStudio.Protocol.Codec

/-!
# Limits and refusals of a session

What `packages/protocol/src/session.ts` computes apart from its state: the version
negotiation, the send limit, and the errors with which a responder refuses a
request on its own account.

The refusals quote the request's id and method, so their length depends on what
the peer sent.  `Fits` is a frame that a port with a given limit takes.  Every
refusal but one fits the least frame limit, whatever the id and the method are
(`fits_handshakeIncomplete` and the lemmas after it).  The refusal of an id
that is already in flight writes the id three times, and
`measureFrameBytes_duplicateRequest` says how long that makes it.
-/

namespace MangoStudio.Protocol

open Json

/-! ## Frame ceilings -/

/-- The protocol's default frame limit. -/
def FrameLimit.standard : FrameLimit := ⟨defaultMaxFrameBytes, by decide, by decide⟩

/-- The lower of two frame limits. -/
def FrameLimit.lower (first second : FrameLimit) : FrameLimit :=
  if first.bytes ≤ second.bytes then first else second

theorem FrameLimit.lower_le_right (first second : FrameLimit) :
    (first.lower second).bytes ≤ second.bytes := by
  unfold FrameLimit.lower
  split_ifs with h
  · exact h
  · exact Nat.le_refl _

/-! ## Handshake -/

/-- The highest minor that both SDKs implement. -/
def protocolMinor : Nat := 2

/-- Where a session is in its lifecycle. -/
inductive SessionState where
  | handshaking
  | ready
  | closed
  deriving DecidableEq, Repr

/-- What the far peer announced in its `hello`, and the negotiated minor. -/
structure RemotePeer where
  peer : PeerInfo
  protocol : ProtocolVersion
  capabilities : OpenObject
  limits : Option Limits
  effectiveMinor : Nat

/-- The outcome of comparing the two `hello.protocol` values. -/
inductive Negotiation where
  | compatible (effectiveMinor : Nat)
  | mismatch (closeCode : Nat)
  deriving DecidableEq, Repr

/-- Equal majors run at the lower minor, different majors do not run. -/
def negotiate (here there : ProtocolVersion) : Negotiation :=
  if here.major ≠ there.major then .mismatch CloseCodes.protocolMismatch
  else .compatible (min here.minor there.minor)

/-- The frame ceiling a side may send under: the lower of both announced
limits. -/
def sendLimitBytes (localMaxFrameBytes : FrameLimit) (remote : Option RemotePeer) : Nat :=
  min localMaxFrameBytes.bytes
    (((remote.bind RemotePeer.limits).bind Limits.maxFrameBytes).getD defaultMaxFrameBytes)

/-- What a peer announced is in the range of the wire. -/
def AnnouncesInRange (remote : Option RemotePeer) : Prop :=
  ∀ peer, remote = some peer → Ts.optionalSchema Ts.limitsSchema peer.limits = true

theorem sendLimitBytes_le (localMaxFrameBytes : FrameLimit) (remote : Option RemotePeer) :
    sendLimitBytes localMaxFrameBytes remote ≤ localMaxFrameBytes.bytes :=
  Nat.min_le_left _ _

/-! ## Answers -/

/-- The frame answers a request with this id. -/
def Answers (frame : Frame) (id : String) : Prop :=
  (∃ response : Response, frame = .res response ∧ response.id = id) ∨
    ∃ error : ErrorResponse, frame = .err error ∧ error.id = id

/-! ## Refusals of a responder -/

/-- `error.details.kind` of the refusal that says the responder is full. -/
def inFlightLimitKind : String := "in_flight_limit"

def handshakeIncomplete : ErrorPayload :=
  { code := Codes.unavailable
    message := "The session handshake has not completed; requests are refused until both hellos have crossed." }

def inFlightLimitReached (limit : Nat) (method : String) : ErrorPayload :=
  { code := Codes.unavailable
    message := s!"This peer is already answering {limit} requests; retry \"{method}\" once one of yours has settled."
    details := some [("kind", .str inFlightLimitKind), ("limit", .nat limit),
      ("method", .str method)] }

def duplicateRequest (id : String) : ErrorPayload :=
  { code := Codes.invalidRequest
    message := s!"Request id \"{id}\" is already in flight; expected an id unique among the sender's pending requests."
    details := some [("id", .str id)] }

def reservedMethodMessage (method : String) (effectiveMinor : Nat) : String :=
  s!"Method \"{method}\" is reserved; the rpc. segment belongs to the protocol and defines no such method at wire minor {effectiveMinor}."

def methodUnsupported (method : String) : ErrorPayload :=
  { code := Codes.methodUnsupported
    message := s!"Method \"{method}\" has no handler on this peer."
    details := some [("method", .str method)] }

/-- The message of a frame that exceeds the send limit. -/
def tooLargeMessage (what : String) (bytes limit : Nat) : String :=
  s!"{what} encodes to {bytes} bytes; the session limit is {limit} bytes."

namespace Ts

def reservedMethod (method : String) (effectiveMinor : Nat) : ErrorPayload :=
  { code := Codes.invalidRequest
    message := reservedMethodMessage method effectiveMinor
    details := some [("method", .str method), ("effectiveMinor", .nat effectiveMinor)] }

def resultTooLarge (method : String) (bytes limit : Nat) : ErrorPayload :=
  { code := Codes.frameTooLarge
    message := tooLargeMessage s!"The result of \"{method}\"" bytes limit
    details := some [("method", .str method), ("bytes", .nat bytes), ("limit", .nat limit)] }

end Ts

/-! ## Frames that a port takes -/

/-- The frame passes the wire schema and encodes to at most `bytes` bytes. -/
structure Fits (bytes : Nat) (frame : Frame) : Prop where
  isFrame : Ts.isFrame frame = true
  size : measureFrameBytes frame ≤ bytes

theorem Fits.mono {bytes more : Nat} {frame : Frame} (h : Fits bytes frame) (hle : bytes ≤ more) :
    Fits more frame :=
  ⟨h.isFrame, le_trans h.size hle⟩

theorem messageSchema_iff {message : String} :
    Ts.stringSchema 1 none none message = true ↔ message ≠ "" := by
  rw [Ts.stringSchema_eq_true]
  simp only [reduceCtorEq, false_implies, implies_true, and_true]
  rw [Nat.one_le_iff_ne_zero, ne_eq, String.length_eq_zero_iff]

theorem fits_err_iff {bytes : Nat} {id code message : String} {details : Option OpenObject} :
    Fits bytes (.err ⟨id, ⟨code, message, details⟩⟩) ↔
      Ts.idSchema id = true ∧ Ts.errorCodeSchema code = true ∧ message ≠ "" ∧
        escapedSize id + escapedSize code + escapedSize message +
          detailsSize details + 55 ≤ bytes := by
  have hframe : Ts.isFrame (.err ⟨id, ⟨code, message, details⟩⟩) = true ↔
      Ts.idSchema id = true ∧ Ts.errorCodeSchema code = true ∧ message ≠ "" := by
    rw [← messageSchema_iff]
    simp [Ts.isFrame, Ts.errorPayloadSchema]
  constructor
  · grind [measureFrameBytes_err, cases Fits]
  · intro h
    refine ⟨hframe.mpr ⟨h.1, h.2.1, h.2.2.1⟩, ?_⟩
    rw [measureFrameBytes_err]
    exact h.2.2.2

theorem errorCodeSchema_reserved {code : String} :
    code ∈ [Codes.unavailable, Codes.invalidRequest, Codes.methodUnsupported, Codes.cancelled,
      Codes.frameTooLarge, Codes.internal] → Ts.errorCodeSchema code = true := by
  rw [← Rust.isValidErrorCode_iff]
  revert code
  decide

/-! ## How long the refusals are

The bounds are crude, six bytes for each character of an id or a method and for
each digit.  The least frame limit leaves room for that. -/

theorem escapedSize_id_le {id : String} (hid : Ts.idSchema id = true) :
    escapedSize id ≤ 1536 := by
  have hsize := escapedSize_le id
  rw [Ts.idSchema, Ts.stringSchema_eq_true] at hid
  have hlength := hid.2.1 _ rfl
  rw [idMaxLength] at hlength
  omega

theorem escapedSize_method_le {method : String} (hmethod : Ts.methodSchema method = true) :
    escapedSize method ≤ 768 := by
  have hsize := escapedSize_le method
  rw [Ts.methodSchema, Ts.stringSchema_eq_true] at hmethod
  have hlength := hmethod.2.1 _ rfl
  rw [methodMaxLength] at hlength
  omega

theorem numeral_le {n m k : Nat} (hk : 0 < k) (hn : n ≤ m) (hm : m < 10 ^ k) :
    escapedSize n.repr ≤ 6 * k ∧ (nat n).size ≤ 4 * k := by
  have hlength : n.repr.length ≤ k := length_toString_le hk (lt_of_le_of_lt hn hm)
  have hescaped := escapedSize_le n.repr
  have hbytes : (nat n).size ≤ 4 * n.repr.toList.length := byteLength_le _
  rw [String.length_toList] at hbytes
  omega

/-- The largest integer that both SDKs count bytes and minors with exactly. -/
def maxSafeInteger : Nat := 2 ^ 53 - 1

theorem measureFrameBytes_duplicateRequest (id : String) :
    measureFrameBytes (.err ⟨id, duplicateRequest id⟩) = 3 * escapedSize id + 186 := by
  have hliterals : escapedSize Codes.invalidRequest + escapedSize "Request id \"" +
      escapedSize "\" is already in flight; expected an id unique among the sender's pending requests." +
      escapedSize "id" = 113 := by decide
  rw [duplicateRequest, measureFrameBytes_err]
  simp only [toString, escapedSize_append, detailsSize, size_obj_cons,
    membersSize_nil, size_str]
  omega

section Refusals

variable {id method : String} (hid : Ts.idSchema id = true)

include hid

theorem fits_handshakeIncomplete :
    Fits minAnnouncedFrameBytes (.err ⟨id, handshakeIncomplete⟩) := by
  have hidSize := escapedSize_id_le hid
  have hliterals : escapedSize Codes.unavailable +
      escapedSize "The session handshake has not completed; requests are refused until both hellos have crossed." =
      104 := by decide
  refine fits_err_iff.mpr ⟨hid, errorCodeSchema_reserved (by decide), by decide, ?_⟩
  rw [detailsSize, minAnnouncedFrameBytes]
  omega

theorem fits_duplicateRequest_iff {bytes : Nat} :
    Fits bytes (.err ⟨id, duplicateRequest id⟩) ↔ 3 * escapedSize id + 186 ≤ bytes := by
  rw [← measureFrameBytes_duplicateRequest]
  refine ⟨fun h => h.size, fun h => ⟨?_, h⟩⟩
  have hmessage : (duplicateRequest id).message ≠ "" := by
    simp [duplicateRequest, toString]
  grind [errorCodeSchema_reserved, duplicateRequest, Ts.isFrame, Ts.errorPayloadSchema,
      messageSchema_iff]

variable (hmethod : Ts.methodSchema method = true)

include hmethod

theorem fits_inFlightLimitReached {limit : Nat} (hlimit : limit ≤ maxAnnouncedInFlight) :
    Fits minAnnouncedFrameBytes (.err ⟨id, inFlightLimitReached limit method⟩) := by
  have hidSize := escapedSize_id_le hid
  have hmethodSize := escapedSize_method_le hmethod
  obtain ⟨hescaped, hmember⟩ := numeral_le (k := 10) (by decide) hlimit (by decide)
  have hliterals : escapedSize Codes.unavailable +
      escapedSize "This peer is already answering " +
      escapedSize " requests; retry \"" +
      escapedSize "\" once one of yours has settled." = 94 := by decide
  have hkeys : escapedSize "kind" + escapedSize inFlightLimitKind +
      escapedSize "limit" + escapedSize "method" = 30 := by decide
  refine fits_err_iff.mpr ⟨hid, errorCodeSchema_reserved (by simp), by simp, ?_⟩
  simp only [toString, escapedSize_append, detailsSize, size_obj_cons,
    membersSize_cons, membersSize_nil, size_str, minAnnouncedFrameBytes]
  omega

theorem fits_methodUnsupported : Fits minAnnouncedFrameBytes (.err ⟨id, methodUnsupported method⟩) := by
  have hidSize := escapedSize_id_le hid
  have hmethodSize := escapedSize_method_le hmethod
  have hliterals : escapedSize Codes.methodUnsupported + escapedSize "Method \"" +
      escapedSize "\" has no handler on this peer." + escapedSize "method" = 64 := by
    decide
  refine fits_err_iff.mpr ⟨hid, errorCodeSchema_reserved (by simp), by simp [toString], ?_⟩
  simp only [toString, escapedSize_append, detailsSize, size_obj_cons,
    membersSize_nil, size_str, minAnnouncedFrameBytes]
  omega

theorem Ts.fits_reservedMethod {effectiveMinor : Nat} (hminor : effectiveMinor ≤ maxSafeInteger) :
    Fits minAnnouncedFrameBytes (.err ⟨id, Ts.reservedMethod method effectiveMinor⟩) := by
  have hidSize := escapedSize_id_le hid
  have hmethodSize := escapedSize_method_le hmethod
  obtain ⟨hescaped, hmember⟩ := numeral_le (k := 16) (by decide) hminor (by decide)
  have hliterals : escapedSize Codes.invalidRequest + escapedSize "Method \"" +
      escapedSize "\" is reserved; the rpc. segment belongs to the protocol and defines no such method at wire minor " +
      escapedSize "." = 123 := by decide
  have hkeys : escapedSize "method" + escapedSize "effectiveMinor" = 20 := by decide
  refine fits_err_iff.mpr ⟨hid, errorCodeSchema_reserved (by simp),
    by simp [reservedMethodMessage, toString], ?_⟩
  simp only [reservedMethodMessage, toString, escapedSize_append, detailsSize, size_obj_cons,
    membersSize_cons, membersSize_nil, size_str, minAnnouncedFrameBytes]
  omega

theorem Ts.fits_resultTooLarge {bytes limit : Nat} (hbytes : bytes ≤ maxSafeInteger)
    (hlimit : limit ≤ maxAnnouncedFrameBytes) :
    Fits minAnnouncedFrameBytes (.err ⟨id, Ts.resultTooLarge method bytes limit⟩) := by
  have hidSize := escapedSize_id_le hid
  have hmethodSize := escapedSize_method_le hmethod
  obtain ⟨hescaped, hmember⟩ := numeral_le (k := 16) (by decide) hbytes (by decide)
  obtain ⟨hescaped', hmember'⟩ := numeral_le (k := 10) (by decide) hlimit (by decide)
  have hliterals : escapedSize Codes.frameTooLarge + escapedSize "The result of \"" +
      escapedSize "\"" + escapedSize " encodes to " +
      escapedSize " bytes; the session limit is " + escapedSize " bytes." = 81 := by decide
  have hkeys : escapedSize "method" + escapedSize "bytes" + escapedSize "limit" = 16 := by decide
  refine fits_err_iff.mpr ⟨hid, errorCodeSchema_reserved (by simp),
    by simp [tooLargeMessage, toString], ?_⟩
  simp only [tooLargeMessage, toString, escapedSize_append, detailsSize, size_obj_cons,
    membersSize_cons, membersSize_nil, size_str, minAnnouncedFrameBytes]
  omega

end Refusals

end MangoStudio.Protocol
