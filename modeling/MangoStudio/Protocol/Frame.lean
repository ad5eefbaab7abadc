import MangoStudio.Lib.Json

/-!
# The frames of Mango Protocol 1

The nine frame types of the wire, as `packages/protocol/src/schemas/frames.ts`
and `crates/mango-protocol/src/frame.rs` both declare them, the error and
close vocabulary, and the numbers of the specification's limits section.  The
two SDKs share these declarations member for member, so the model has them
once; what each SDK computes from them lives in its own namespace, `Ts` or
`Rust`, in the modules above this one.

A string is a Lean `String`, which holds Unicode scalar values only: what a
`&str` is, and what a decoded JavaScript string is unless it was built with an
unpaired surrogate.  An integer member is a `Nat`.  An open object
(`capabilities`, `details`) is its member list.

`Frame.toJson` is the object that `JSON.stringify` and `serde_json::to_vec`
are given: the tag first, then the members in declaration order, with an
absent optional left out.  `measureFrameBytes` is the byte length of its
compact text, and `encodedBytes` is the text itself.
-/

namespace MangoStudio.Protocol

/-! ## Limits -/

/-- Frame limit when neither peer announced a lower one. -/
def defaultMaxFrameBytes : Nat := 16 * 1024 * 1024

/-- Smallest frame limit a peer may announce. -/
def minAnnouncedFrameBytes : Nat := 4096

/-- Largest frame limit `hello.limits` can carry. -/
def maxAnnouncedFrameBytes : Nat := 2147483647

/-- Fewest requests a peer may announce it will hold open. -/
def minAnnouncedInFlight : Nat := 1

/-- Largest in-flight ceiling `hello.limits` can carry. -/
def maxAnnouncedInFlight : Nat := 2147483647

/-- Requests one side answers at once before it starts refusing. -/
def defaultMaxInFlight : Nat := 256

/-- Stream keys one side emits on at once before `emit` refuses. -/
def defaultMaxStreamKeys : Nat := 1024

/-- Fewest stream keys a session can be configured for. -/
def minOpenStreamKeys : Nat := 1

/-- Longest `id` and `evt.streamId`. -/
def idMaxLength : Nat := 256

/-- Shortest `method` and `topic`, `a.b`. -/
def methodMinLength : Nat := 3

/-- Longest `method` and `topic`. -/
def methodMaxLength : Nat := 128

/-- Longest `error.code`. -/
def errorCodeMaxLength : Nat := 64

/-- Longest `close.reason`. -/
def closeReasonMaxLength : Nat := 1024

/-- Longest `peer.name` and `peer.version`. -/
def peerFieldMaxLength : Nat := 128

/-- Longest `peer.role`. -/
def roleMaxLength : Nat := 64

/-- Lowest and highest `close.code`. -/
def minCloseCode : Nat := 4000

@[inherit_doc minCloseCode]
def maxCloseCode : Nat := 4999

/-! ## Error codes and close codes -/

namespace Codes

def unavailable : String := "UNAVAILABLE"
def invalidRequest : String := "INVALID_REQUEST"
def methodUnsupported : String := "METHOD_UNSUPPORTED"
def cancelled : String := "CANCELLED"
def timeout : String := "TIMEOUT"
def frameTooLarge : String := "FRAME_TOO_LARGE"
def protocolMismatch : String := "PROTOCOL_MISMATCH"
def internal : String := "INTERNAL"

end Codes

namespace CloseCodes

def released : Nat := 4000
def protocolError : Nat := 4400
def unauthorized : Nat := 4401
def forbidden : Nat := 4403
def superseded : Nat := 4409
def protocolMismatch : Nat := 4426

end CloseCodes

/-- Redialling after one of these cannot change the outcome. -/
def isFatalCloseCode (code : Nat) : Bool :=
  [CloseCodes.unauthorized, CloseCodes.forbidden, CloseCodes.superseded,
    CloseCodes.protocolMismatch].contains code

/-- Why a codec refused its input.  `empty` is a kind of the TypeScript SDK
only. -/
inductive CodecErrorKind where
  | invalidJson
  | schema
  | tooLarge
  | empty
  | chunkVersion
  | chunkHeader
  | chunkCount
  | chunkIndex
  | chunkDribble
  deriving DecidableEq, Repr

/-- A codec refusal: its kind, its message, and the `type` member of the
refused record when the codec read that far. -/
structure CodecError where
  kind : CodecErrorKind
  message : String
  frameType : Option String := none
  deriving DecidableEq, Repr

/-! ## Frames -/

/-- The members of an open object, in writing order. -/
abbrev OpenObject := List (String × Json)

/-- `hello.protocol`. -/
structure ProtocolVersion where
  major : Nat
  minor : Nat
  deriving DecidableEq, Repr

/-- `hello.peer`. -/
structure PeerInfo where
  name : String
  version : String
  role : String
  deriving DecidableEq, Repr

/-- `hello.limits`: the ceilings a peer announces. -/
structure Limits where
  maxFrameBytes : Option Nat := none
  maxInFlight : Option Nat := none
  deriving DecidableEq, Repr

/-- Handshake. -/
structure Hello where
  protocol : ProtocolVersion
  peer : PeerInfo
  capabilities : OpenObject
  limits : Option Limits := none

/-- A request. -/
structure Request where
  id : String
  method : String
  params : Json

/-- A successful response. -/
structure Response where
  id : String
  result : Json

/-- `err.error`. -/
structure ErrorPayload where
  code : String
  message : String
  details : Option OpenObject := none

/-- A failed response. -/
structure ErrorResponse where
  id : String
  error : ErrorPayload

/-- An event.  `isEnd` is the `end` member, which is present only as `true`. -/
structure Event where
  topic : String
  seq : Nat
  streamId : Option String := none
  payload : Json
  isEnd : Bool := false

/-- An advisory request to stop. -/
structure Cancel where
  id : String
  deriving DecidableEq, Repr

/-- A farewell. -/
structure Close where
  code : Nat
  reason : Option String := none
  deriving DecidableEq, Repr

/-- One frame of the wire. -/
inductive Frame where
  | hello (hello : Hello)
  | req (request : Request)
  | res (response : Response)
  | err (error : ErrorResponse)
  | evt (event : Event)
  | cancel (cancel : Cancel)
  | ping
  | pong
  | close (close : Close)

/-- The `type` member of a frame. -/
def Frame.typeName : Frame → String
  | .hello _ => "hello"
  | .req _ => "req"
  | .res _ => "res"
  | .err _ => "err"
  | .evt _ => "evt"
  | .cancel _ => "cancel"
  | .ping => "ping"
  | .pong => "pong"
  | .close _ => "close"

/-! ## The object on the wire -/

/-- One member, or none when an optional is absent. -/
def optionalMember (key : String) : Option Json → OpenObject
  | none => []
  | some value => [(key, value)]

def Limits.toJson (limits : Limits) : Json :=
  .obj (optionalMember "maxFrameBytes" (limits.maxFrameBytes.map Json.nat) ++
    optionalMember "maxInFlight" (limits.maxInFlight.map Json.nat))

def ErrorPayload.toJson (error : ErrorPayload) : Json :=
  .obj ([("code", .str error.code), ("message", .str error.message)] ++
    optionalMember "details" (error.details.map Json.obj))

/-- The members of a frame after its `type`. -/
def Frame.members : Frame → OpenObject
  | .hello greeting =>
    [("protocol", .obj [("major", .nat greeting.protocol.major),
        ("minor", .nat greeting.protocol.minor)]),
      ("peer", .obj [("name", .str greeting.peer.name), ("version", .str greeting.peer.version),
        ("role", .str greeting.peer.role)]),
      ("capabilities", .obj greeting.capabilities)] ++
    optionalMember "limits" (greeting.limits.map Limits.toJson)
  | .req request =>
    [("id", .str request.id), ("method", .str request.method), ("params", request.params)]
  | .res response => [("id", .str response.id), ("result", response.result)]
  | .err error => [("id", .str error.id), ("error", error.error.toJson)]
  | .evt event =>
    [("topic", .str event.topic), ("seq", .nat event.seq)] ++
    optionalMember "streamId" (event.streamId.map Json.str) ++
    [("payload", event.payload)] ++
    optionalMember "end" (if event.isEnd then some (.bool true) else none)
  | .cancel target => [("id", .str target.id)]
  | .ping => []
  | .pong => []
  | .close farewell =>
    [("code", .nat farewell.code)] ++ optionalMember "reason" (farewell.reason.map Json.str)

/-- The object a serialiser is given: the tag leads. -/
def Frame.toJson (frame : Frame) : Json :=
  .obj (("type", .str frame.typeName) :: frame.members)

/-- The compact JSON text of a frame. -/
def Frame.text (frame : Frame) : List Char := frame.toJson.render

/-- The UTF-8 bytes of a frame, without a terminator. -/
def Frame.encodedBytes (frame : Frame) : List UInt8 := Utf8.encode frame.text

/-- The byte length one frame occupies on the wire. -/
def measureFrameBytes (frame : Frame) : Nat := frame.encodedBytes.length

theorem measureFrameBytes_eq_size (frame : Frame) :
    measureFrameBytes frame = frame.toJson.size :=
  Utf8.length_encode _

example : measureFrameBytes .ping = 15 := by decide

/-! ## How long an error frame is -/

/-- The members of an error frame's `details`. -/
def detailsSize : Option OpenObject → Nat
  | none => 0
  | some details => (Json.obj details).size + 11

theorem measureFrameBytes_err (id code message : String) (details : Option OpenObject) :
    measureFrameBytes (.err ⟨id, ⟨code, message, details⟩⟩) =
      Json.escapedSize id + Json.escapedSize code + Json.escapedSize message +
        detailsSize details + 55 := by
  have htype : Json.escapedSize "type" = 4 := by decide
  have herr : Json.escapedSize "err" = 3 := by decide
  have hid : Json.escapedSize "id" = 2 := by decide
  have herror : Json.escapedSize "error" = 5 := by decide
  have hcode : Json.escapedSize "code" = 4 := by decide
  have hmessage : Json.escapedSize "message" = 7 := by decide
  have hdetails : Json.escapedSize "details" = 7 := by decide
  rw [measureFrameBytes_eq_size]
  cases details with
  | none =>
    simp [Frame.toJson, Frame.typeName, Frame.members, ErrorPayload.toJson, optionalMember,
      detailsSize, htype, herr, hid, herror, hcode, hmessage]
    omega
  | some details =>
    simp [Frame.toJson, Frame.typeName, Frame.members, ErrorPayload.toJson, optionalMember,
      detailsSize, htype, herr, hid, herror, hcode, hmessage, hdetails]
    omega

end MangoStudio.Protocol
