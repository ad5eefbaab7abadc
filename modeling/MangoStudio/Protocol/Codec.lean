import MangoStudio.Protocol.Validate

/-!
# One frame, one line

The line codec that both transports share: `packages/protocol/src/codec/ndjson.ts`
and `limits.ts`, `crates/mango-protocol/src/codec/ndjson.rs` and `limits.rs`,
without the stream decoders.  A frame is written as the UTF-8 bytes of its
compact JSON object and read back from them, under a frame limit.

What the two SDKs take from outside is a parameter here.  `Ts.ParseFailure`
and the function `parse` stand for `JSON.parse` and the schema library's shape
check; `Rust.Runtime` stands for `serde_json` and the standard library's debug
rendering.  Both produce a frame's shape, and the code checks its values after
that: `Ts.assertFrame` and `Rust.validate`.  `Rust.Runtime.typed` is the reader
whose integers have the types of the Rust fields.

`ReadersAgree` is what it means for the two parsers to be the same reader of
well-formed UTF-8 text, and `ReadersAgreeAt` what it means on one line.  Under
it, `Rust.reads_iff_of_lossy` says which of the lines that the TypeScript codec
reads the Rust codec reads.
-/

namespace MangoStudio.Protocol

/-! ## The frame limit -/

/-- A frame limit that a session, a port or a decoder can be built with. -/
structure FrameLimit where
  bytes : Nat
  floor : minAnnouncedFrameBytes ≤ bytes
  ceiling : bytes ≤ maxAnnouncedFrameBytes

/-- The least frame limit, 4096 bytes. -/
def FrameLimit.least : FrameLimit := ⟨minAnnouncedFrameBytes, Nat.le_refl _, by decide⟩

namespace Ts

/-- Reads one integer option: the value, or the fallback when it is absent,
refused below `floor` or above `maximum`. -/
def resolveIntegerAtLeast (name : String) (value : Option Nat) (fallback floor : Nat)
    (maximum : Option Nat) : Except String Nat :=
  if value.getD fallback < floor then
    .error s!"{name} is {value.getD fallback}; expected an integer of at least {floor}"
  else
    match maximum with
    | none => .ok (value.getD fallback)
    | some bound =>
      if bound < value.getD fallback then
        .error s!"{name} is {value.getD fallback}; expected an integer of at most {bound}"
      else .ok (value.getD fallback)

theorem resolveIntegerAtLeast_ok {name : String} {value : Option Nat} {fallback floor : Nat}
    {maximum : Option Nat} {resolved : Nat}
    (h : resolveIntegerAtLeast name value fallback floor maximum = .ok resolved) :
    resolved = value.getD fallback ∧ floor ≤ resolved ∧
      ∀ bound, maximum = some bound → resolved ≤ bound := by
  unfold resolveIntegerAtLeast at h
  grind

end Ts

namespace Rust

/-- The frame limit of a codec entry point, or the message that names the
violated bound. -/
def checkedMaxFrameBytes (value : Nat) : Except String FrameLimit :=
  if hfloor : value < minAnnouncedFrameBytes then
    .error s!"max_frame_bytes is {value}; expected at least {minAnnouncedFrameBytes}"
  else if hceiling : maxAnnouncedFrameBytes < value then
    .error s!"max_frame_bytes is {value}; expected at most {maxAnnouncedFrameBytes}"
  else .ok ⟨value, Nat.le_of_not_lt hfloor, Nat.le_of_not_lt hceiling⟩

@[simp] theorem checkedMaxFrameBytes_bytes (limit : FrameLimit) :
    checkedMaxFrameBytes limit.bytes = .ok limit := by
  have hfloor : ¬ limit.bytes < minAnnouncedFrameBytes := Nat.not_lt.mpr limit.floor
  have hceiling : ¬ maxAnnouncedFrameBytes < limit.bytes := Nat.not_lt.mpr limit.ceiling
  rw [checkedMaxFrameBytes, dif_neg hfloor, dif_neg hceiling]

end Rust

/-! ## Line bytes -/

/-- `\n`. -/
def lineFeed : UInt8 := 0x0A

/-- `\r`. -/
def carriageReturn : UInt8 := 0x0D

/-- One record's bytes, less the `\r` that a CRLF terminator left behind. -/
def stripCarriageReturn (record : List UInt8) : List UInt8 :=
  if record.getLast? = some carriageReturn then record.dropLast else record

theorem length_stripCarriageReturn_le (record : List UInt8) :
    (stripCarriageReturn record).length ≤ record.length := by
  rw [stripCarriageReturn]
  split_ifs
  · rw [List.length_dropLast]
    omega
  · exact Nat.le_refl _

theorem length_le_stripCarriageReturn_append (record : List UInt8) (byte : UInt8)
    (more : List UInt8) :
    record.length ≤ (stripCarriageReturn (record ++ byte :: more)).length := by
  rw [stripCarriageReturn]
  grind

theorem length_stripCarriageReturn_mono (record more : List UInt8) :
    (stripCarriageReturn record).length ≤ (stripCarriageReturn (record ++ more)).length := by
  cases more with
  | nil => rw [List.append_nil]
  | cons byte more =>
    exact le_trans (length_stripCarriageReturn_le record)
      (length_le_stripCarriageReturn_append record byte more)

/-! ## The TypeScript line codec -/

variable {bytes : List UInt8} {frame : Frame} {limit : FrameLimit}

namespace Ts

/-- Why `JSON.parse` or the shape check refused a text: its own words. -/
inductive ParseFailure where
  | notJson (reason : String)
  | notFrame (detail : String) (frameType : Option String)
  deriving DecidableEq, Repr

/-- `/^[\t\n\v\f\r ]*$/`. -/
def blankChars : List Char :=
  ['\t', '\n', Char.ofNat 0x0B, Char.ofNat 0x0C, '\r', ' ']

/-- The text is whitespace only. -/
def isBlankLine (text : List Char) : Bool := text.all fun c => decide (c ∈ blankChars)

/-- Validates, serialises and measures one frame. -/
def encodeFrameBytes (frame : Frame) (limit : FrameLimit) : Except CodecError (List UInt8) :=
  match assertFrame frame with
  | .error refusal => .error refusal
  | .ok () =>
    if limit.bytes < frame.encodedBytes.length then
      .error ⟨.tooLarge,
        s!"frame is {frame.encodedBytes.length} bytes; expected at most {limit.bytes}", none⟩
    else .ok frame.encodedBytes

/-- One NDJSON record: the frame's bytes and a single `\n`. -/
def encodeLine (frame : Frame) (limit : FrameLimit) : Except CodecError (List UInt8) :=
  (encodeFrameBytes frame limit).map (· ++ [lineFeed])

theorem encodeFrameBytes_eq_ok :
    encodeFrameBytes frame limit = .ok bytes ↔
      isFrame frame = true ∧ measureFrameBytes frame ≤ limit.bytes ∧
        bytes = frame.encodedBytes := by
  have hmeasure : measureFrameBytes frame = frame.encodedBytes.length := rfl
  rw [encodeFrameBytes, assertFrame, hmeasure]
  grind

variable (parse : List Char → Except ParseFailure Frame)

/-- Decodes the text of one record whose length is known. -/
def decodeRecord (text : List Char) (byteLength : Nat) (limit : FrameLimit) :
    Except CodecError Frame :=
  if limit.bytes < byteLength then
    .error ⟨.tooLarge, s!"line is {byteLength} bytes; expected at most {limit.bytes}", none⟩
  else
    match parse text with
    | .error (.notJson reason) =>
      .error ⟨.invalidJson,
        s!"line is not JSON: {reason}; expected one JSON object of {byteLength} bytes to parse",
        none⟩
    | .error (.notFrame detail frameType) => .error ⟨.schema, detail, frameType⟩
    | .ok frame =>
      match assertFrame frame with
      | .error refusal => .error refusal
      | .ok () => .ok frame

/-- Decodes one record given without its terminator. -/
def decodeLine (line : List UInt8) (limit : FrameLimit) : Except CodecError Frame :=
  if limit.bytes < (stripCarriageReturn line).length then
    .error ⟨.tooLarge,
      s!"line is {(stripCarriageReturn line).length} bytes; expected at most {limit.bytes}",
      none⟩
  else if isBlankLine (Utf8.decodeLossy (stripCarriageReturn line)) then
    .error ⟨.empty, "line is blank; expected one JSON object", none⟩
  else
    decodeRecord parse (Utf8.decodeLossy (stripCarriageReturn line))
      (stripCarriageReturn line).length limit

/-- The text reads as a frame: it parses, and its values pass the schema. -/
def Reads (text : List Char) (frame : Frame) : Prop :=
  parse text = .ok frame ∧ isFrame frame = true

theorem decodeRecord_eq_ok {text : List Char} {byteLength : Nat} :
    decodeRecord parse text byteLength limit = .ok frame ↔
      byteLength ≤ limit.bytes ∧ Reads parse text frame := by
  rw [decodeRecord, Reads]
  grind [assertFrame]

end Ts

/-! ## The Rust line codec -/

namespace Rust

/-- `serde_json::error::Category`. -/
inductive Category where
  | io
  | syntaxError
  | data
  | eof
  deriving DecidableEq, Repr

/-- A `serde_json` refusal: its category and its own words. -/
structure SerdeError where
  category : Category
  text : String
  deriving DecidableEq, Repr

/-- What the codec takes from `serde_json` and the standard library: reading a
frame's shape from bytes, the `type` member of a JSON object, the quoted head
of a refused line, and a string in its debug form. -/
structure Runtime where
  fromSlice : List UInt8 → Except SerdeError Frame
  frameTypeOf : List UInt8 → Option String
  preview : List UInt8 → String
  describe : String → String

/-- The integers of a frame fit its fields: `u32` for a version, `u64` for a limit
and a sequence number, `u16` for a close code. -/
def integersFit : Frame → Bool
  | .hello greeting =>
    decide (greeting.protocol.major < 2 ^ 32) && decide (greeting.protocol.minor < 2 ^ 32) &&
      greeting.limits.all fun limits =>
        limits.maxFrameBytes.all (fun bytes => decide (bytes < 2 ^ 64)) &&
          limits.maxInFlight.all fun count => decide (count < 2 ^ 64)
  | .evt event => decide (event.seq < 2 ^ 64)
  | .close farewell => decide (farewell.code < 2 ^ 16)
  | _ => true

/-- The reader of typed frames over a reader of their shape. -/
def Runtime.typed (runtime : Runtime) : Runtime :=
  { runtime with
    fromSlice := fun line => match runtime.fromSlice line with
      | .error error => .error error
      | .ok frame =>
        if integersFit frame then .ok frame
        else .error ⟨.data, "invalid value: integer out of the range of its field"⟩ }

def tooLarge (length maxFrameBytes : Nat) : CodecError :=
  ⟨.tooLarge, s!"received a line of {length} bytes, expected at most {maxFrameBytes}", none⟩

/-- `u8::is_ascii_whitespace`: space, tab, line feed, form feed and carriage
return.  A vertical tab is not in it. -/
def isAsciiWhitespace (byte : UInt8) : Bool :=
  decide (byte ∈ [0x20, 0x09, 0x0A, 0x0C, 0x0D])

/-- The line is empty or ASCII whitespace only. -/
def isBlank (line : List UInt8) : Bool := line.all isAsciiWhitespace

/-- The kind a `serde_json` refusal is reported as. -/
def Category.kind : Category → CodecErrorKind
  | .syntaxError => .invalidJson
  | .eof => .invalidJson
  | .io => .invalidJson
  | .data => .schema

/-- `Display` of a validation error. -/
def ValidationError.render (runtime : Runtime) (error : ValidationError) : String :=
  let received := match error.received with
    | .text value => runtime.describe value
    | .integer value => toString value
  s!"{error.field}: received {received}, expected {error.expected}"

variable (runtime : Runtime)

/-- Validates, serialises and measures one frame. -/
def encodeFrameBytes (frame : Frame) (maxFrameBytes : Nat) : Except CodecError (List UInt8) :=
  match checkedMaxFrameBytes maxFrameBytes with
  | .error message => .error ⟨.schema, message, none⟩
  | .ok limit =>
    match validate frame with
    | .error error => .error ⟨.schema, error.render runtime, none⟩
    | .ok () =>
      if limit.bytes < frame.encodedBytes.length then
        .error (tooLarge frame.encodedBytes.length limit.bytes)
      else .ok frame.encodedBytes

theorem encodeFrameBytes_eq_ok :
    encodeFrameBytes runtime frame limit.bytes = .ok bytes ↔
      validate frame = .ok () ∧ measureFrameBytes frame ≤ limit.bytes ∧
        bytes = frame.encodedBytes := by
  have hmeasure : measureFrameBytes frame = frame.encodedBytes.length := rfl
  rw [encodeFrameBytes, checkedMaxFrameBytes_bytes, hmeasure]
  grind

/-- Decodes one record, a line without its `\n`. -/
def decodeLine (bytes : List UInt8) (maxFrameBytes : Nat) : Except CodecError Frame :=
  match checkedMaxFrameBytes maxFrameBytes with
  | .error message => .error ⟨.schema, message, none⟩
  | .ok limit =>
    let line := stripCarriageReturn bytes
    if limit.bytes < line.length then .error (tooLarge line.length limit.bytes)
    else if isBlank line then
      .error ⟨.schema,
        s!"received a blank line of {line.length} bytes, expected one JSON object with a type member",
        none⟩
    else
      match runtime.fromSlice line with
      | .error error =>
        .error ⟨error.category.kind,
          s!"received {runtime.preview line}, expected one Mango Protocol frame: {error.text}",
          if error.category.kind = .schema then runtime.frameTypeOf line else none⟩
      | .ok frame =>
        match validate frame with
        | .error error => .error ⟨.schema, error.render runtime, some frame.typeName⟩
        | .ok () => .ok frame

/-- The bytes read as a frame: they parse, and the values pass `validate`. -/
def Reads (line : List UInt8) (frame : Frame) : Prop :=
  runtime.fromSlice line = .ok frame ∧ validate frame = .ok ()

theorem reads_typed {line : List UInt8} :
    Reads runtime.typed line frame ↔ Reads runtime line frame ∧ integersFit frame = true := by
  have hread : runtime.typed.fromSlice line = .ok frame ↔
      runtime.fromSlice line = .ok frame ∧ integersFit frame = true := by
    simp only [Runtime.typed]
    split
    · simp [*]
    · rename_i other hother
      rw [hother]
      split_ifs with hfit
      · exact ⟨fun h => ⟨h, Except.ok.inj h ▸ hfit⟩, And.left⟩
      · refine ⟨fun h => (by cases h), fun h => absurd h.2 ?_⟩
        rwa [← Except.ok.inj h.1]
  rw [Reads, Reads, hread, and_right_comm]

theorem decodeLine_eq_ok :
    decodeLine runtime bytes limit.bytes = .ok frame ↔
      (stripCarriageReturn bytes).length ≤ limit.bytes ∧
        isBlank (stripCarriageReturn bytes) = false ∧
        Reads runtime (stripCarriageReturn bytes) frame := by
  rw [decodeLine, checkedMaxFrameBytes_bytes, Reads]
  grind

end Rust

variable {line : List UInt8}

namespace Ts

variable (parse : List Char → Except ParseFailure Frame)

theorem decodeLine_eq_ok :
    decodeLine parse line limit = .ok frame ↔
      (stripCarriageReturn line).length ≤ limit.bytes ∧
        isBlankLine (Utf8.decodeLossy (stripCarriageReturn line)) = false ∧
        Reads parse (Utf8.decodeLossy (stripCarriageReturn line)) frame := by
  rw [decodeLine]
  grind [decodeRecord_eq_ok]

theorem isBlankLine_decodeLossy (line : List UInt8) :
    isBlankLine (Utf8.decodeLossy line) = true ↔
      ∀ byte ∈ line, Char.ofNat byte.toNat ∈ blankChars := by
  rw [isBlankLine, List.all_eq_true]
  simp only [decide_eq_true_eq]
  have hascii : ∀ c ∈ blankChars, c.toNat < 128 := by simp [blankChars]
  exact Utf8.forall_mem_decodeLossy (P := fun c => c ∈ blankChars) hascii line

end Ts

/-! ## The two readers -/

/-- The two parsers are one reader.  On well-formed UTF-8 they read the same
frames; `serde_json` reads nothing else, since its input is UTF-8 by
definition; and a text of whitespace alone is not JSON. -/
structure ReadersAgree (parse : List Char → Except Ts.ParseFailure Frame)
    (runtime : Rust.Runtime) : Prop where
  wellFormed : ∀ text frame,
    parse text = .ok frame ↔ runtime.fromSlice (Utf8.encode text) = .ok frame
  illFormed : ∀ line frame,
    runtime.fromSlice line = .ok frame → ∃ text, Utf8.encode text = line
  blank : ∀ text, Ts.isBlankLine text = true → ∀ frame, parse text ≠ .ok frame

/-- The two parsers read one line alike. -/
structure ReadersAgreeAt (parse : List Char → Except Ts.ParseFailure Frame)
    (runtime : Rust.Runtime) (line : List UInt8) : Prop where
  wellFormed : ∀ text, Utf8.encode text = line → ∀ frame,
    parse text = .ok frame ↔ runtime.fromSlice line = .ok frame
  illFormed : ∀ frame, runtime.fromSlice line = .ok frame → ∃ text, Utf8.encode text = line
  blank : Ts.isBlankLine (Utf8.decodeLossy line) = true →
    ∀ frame, parse (Utf8.decodeLossy line) ≠ .ok frame

/-- The bytes are the UTF-8 encoding of some text. -/
def WellFormed (line : List UInt8) : Prop := ∃ text, Utf8.encode text = line

section

variable {parse : List Char → Except Ts.ParseFailure Frame} {runtime : Rust.Runtime}

theorem ReadersAgree.at (h : ReadersAgree parse runtime) (line : List UInt8) :
    ReadersAgreeAt parse runtime line where
  wellFormed := by
    rintro text rfl
    exact h.wellFormed text
  illFormed := h.illFormed line
  blank := h.blank _

variable (hagree : ReadersAgreeAt parse runtime line)

include hagree

theorem Rust.Reads.lossy (h : Rust.Reads runtime line frame) :
    Ts.Reads parse (Utf8.decodeLossy line) frame := by
  obtain ⟨hread, hvalid⟩ := h
  obtain ⟨text, rfl⟩ := hagree.illFormed frame hread
  rw [Utf8.decodeLossy_encode]
  exact ⟨(hagree.wellFormed text rfl frame).mpr hread, (Rust.validate_eq_ok.mp hvalid).1⟩

/-- Of the lines whose lossy text the TypeScript codec reads, the Rust codec
reads those that are UTF-8 and do not hold a hello with a dashed role. -/
theorem Rust.reads_iff_of_lossy
    (h : Ts.Reads parse (Utf8.decodeLossy line) frame) :
    Rust.Reads runtime line frame ↔ WellFormed line ∧ ¬ Rust.RoleEndsInDash frame := by
  constructor
  · rintro ⟨hread, hvalid⟩
    exact ⟨hagree.illFormed frame hread, (Rust.validate_eq_ok.mp hvalid).2⟩
  · rintro ⟨⟨text, rfl⟩, hdash⟩
    rw [Utf8.decodeLossy_encode] at h
    exact ⟨(hagree.wellFormed text rfl frame).mp h.1, Rust.validate_eq_ok.mpr ⟨h.2, hdash⟩⟩

theorem Ts.Reads.not_blank (h : Ts.Reads parse (Utf8.decodeLossy line) frame) :
    Ts.isBlankLine (Utf8.decodeLossy line) = false := by
  cases hblank : Ts.isBlankLine (Utf8.decodeLossy line) with
  | false => rfl
  | true => exact absurd h.1 (hagree.blank hblank frame)

end

theorem isBlankLine_of_isBlank (h : Rust.isBlank line = true) :
    Ts.isBlankLine (Utf8.decodeLossy line) = true := by
  rw [Ts.isBlankLine_decodeLossy]
  rw [Rust.isBlank, List.all_eq_true] at h
  have hmem : ∀ byte ∈ [(0x20 : UInt8), 0x09, 0x0A, 0x0C, 0x0D],
      Char.ofNat byte.toNat ∈ Ts.blankChars := by simp [Ts.blankChars]
  exact fun byte hbyte => hmem byte (of_decide_eq_true (h byte hbyte))

/-! ## A parser that reads one frame -/

/-- Reads one frame from its own text and refuses every other text. -/
def parseOnly (frame : Frame) (text : List Char) : Except Ts.ParseFailure Frame :=
  if text = frame.text then .ok frame else .error (.notJson "unexpected token")

/-- The same reader over bytes. -/
def runtimeOnly (frame : Frame) : Rust.Runtime where
  fromSlice line :=
    if line = frame.encodedBytes then .ok frame else .error ⟨.syntaxError, "expected value"⟩
  frameTypeOf _ := none
  preview _ := ""
  describe value := value

theorem not_isBlankLine_text (frame : Frame) : Ts.isBlankLine frame.text = false := by
  obtain ⟨tail, htail⟩ := Json.exists_render_obj (("type", .str frame.typeName) :: frame.members)
  have hopen : '\x7b' ∈ frame.text := by
    rw [Frame.text, Frame.toJson, htail]
    simp
  rw [Ts.isBlankLine, List.all_eq_false]
  exact ⟨'\x7b', hopen, by decide⟩

theorem readersAgree_only (frame : Frame) : ReadersAgree (parseOnly frame) (runtimeOnly frame) where
  wellFormed := by
    intro text other
    have hiff : Utf8.encode text = frame.encodedBytes ↔ text = frame.text :=
      ⟨fun h => by simpa [Frame.encodedBytes] using congrArg Utf8.decode? h, fun h => by rw [h]; rfl⟩
    simp only [parseOnly, runtimeOnly, hiff]
    split_ifs <;> simp
  illFormed := by
    intro line other h
    simp only [runtimeOnly] at h
    split_ifs at h with heq
    exact ⟨frame.text, heq.symm⟩
  blank := by
    intro text hblank other h
    simp only [parseOnly] at h
    split_ifs at h with heq
    rw [heq, not_isBlankLine_text] at hblank
    cases hblank

end MangoStudio.Protocol
