import MangoStudio.Lib.Assembly
import MangoStudio.Protocol.Codec

/-!
# The chunk framing of the WebSocket transport

`packages/protocol/src/codec/chunk.ts` and
`crates/mango-protocol/src/codec/chunk.rs`.  One frame becomes a run of binary
messages, each a nine-byte header (version, index, count) and a slice of the
frame's line.  A reassembler takes the messages in order and decodes the line
that they carry.

The two reassemblers keep different state and check in a different order.  The
TypeScript one holds a list of parts, their total size and a count that is `0`
between frames; the Rust one holds one buffer and an optional count.  Each
splits into `assemble`, the framing rules alone, and `push`, which decodes the
completed line and resets after a refusal.

`Assembly` is the receiver of `spec/transports/websocket.md` without either
layout: an open run whose fields are the bounds.  `receive` is that receiver
on messages.  `Ts.reassembler_implements` and `Rust.reassembler_implements`
relate the two implementations to it, and from there on nothing unfolds a
reassembler again.
-/

namespace MangoStudio.Protocol

open Assembly List

/-! ## Constants -/

/-- Version, index and count. -/
def chunkHeaderBytes : Nat := 9

/-- The only chunk format version of wire 1. -/
def chunkFormatVersion : UInt8 := 1

/-- Smallest message ceiling a sender may choose. -/
def minMaxMessageBytes : Nat := 2048

/-- Payload that every chunk but the last carries at least. -/
def minNonfinalPayloadBytes : Nat := 1024

/-! ## Messages -/

/-- Four bytes, the most significant first; higher bits are dropped. -/
def beBytes32 (value : Nat) : List UInt8 :=
  [UInt8.ofNat (value / 16777216), UInt8.ofNat (value / 65536), UInt8.ofNat (value / 256),
    UInt8.ofNat value]

/-- The four bytes at an offset, read as `beBytes32` writes them. -/
def readUint32 (message : List UInt8) (offset : Nat) : Nat :=
  match message.drop offset with
  | a :: b :: c :: d :: _ =>
    a.toNat * 16777216 + b.toNat * 65536 + c.toNat * 256 + d.toNat
  | _ => 0

/-- One binary message: the header, then a slice of the line. -/
def chunkMessage (index count : Nat) (payload : List UInt8) : List UInt8 :=
  chunkFormatVersion :: (beBytes32 index ++ beBytes32 count ++ payload)

theorem length_chunkMessage (index count : Nat) (payload : List UInt8) :
    (chunkMessage index count payload).length = chunkHeaderBytes + payload.length := by
  simp only [chunkMessage, beBytes32, length_cons, length_append, length_nil,
    chunkHeaderBytes]
  omega

theorem drop_chunkMessage (index count : Nat) (payload : List UInt8) :
    (chunkMessage index count payload).drop chunkHeaderBytes = payload := rfl

theorem uint32_of_bytes {value : Nat} (hvalue : value < 4294967296) :
    (UInt8.ofNat (value / 16777216)).toNat * 16777216 +
        (UInt8.ofNat (value / 65536)).toNat * 65536 +
        (UInt8.ofNat (value / 256)).toNat * 256 + (UInt8.ofNat value).toNat = value := by
  simp only [UInt8.toNat_ofNat']
  omega

theorem readUint32_index {index : Nat} (count : Nat) (payload : List UInt8)
    (hindex : index < 4294967296) :
    readUint32 (chunkMessage index count payload) 1 = index :=
  uint32_of_bytes hindex

theorem readUint32_count (index : Nat) {count : Nat} (payload : List UInt8)
    (hcount : count < 4294967296) :
    readUint32 (chunkMessage index count payload) 5 = count :=
  uint32_of_bytes hcount

/-! ## The TypeScript framing -/

namespace Ts

/-- The most messages one frame can need under a frame limit. -/
def maxChunksFor (maxFrameBytes : Nat) : Nat := ceilDiv maxFrameBytes minNonfinalPayloadBytes

/-- Splits one frame into messages, every one but the last filled to
capacity.  `ceiling` is the resolved `maxMessageBytes`. -/
def encodeChunks (frame : Frame) (ceiling : Nat) (limit : FrameLimit) :
    Except CodecError (List (List UInt8)) :=
  let capacity := ceiling - chunkHeaderBytes
  match encodeFrameBytes frame limit with
  | .error refusal => .error refusal
  | .ok bytes =>
    let count := max 1 (ceilDiv bytes.length capacity)
    .ok ((List.range count).map fun index =>
      let start := index * capacity
      chunkMessage index count ((bytes.take (min (start + capacity) bytes.length)).drop start))

/-- The reassembler's state.  `count` is `0` while no frame is open. -/
structure ChunkReassembler where
  frameLimit : FrameLimit
  maxChunks : Nat
  expectedIndex : Nat := 0
  count : Nat := 0
  size : Nat := 0
  parts : List (List UInt8) := []

namespace ChunkReassembler

def new (limit : FrameLimit) : ChunkReassembler := ⟨limit, maxChunksFor limit.bytes, 0, 0, 0, []⟩

/-- Drops a partly reassembled frame. -/
def reset (state : ChunkReassembler) : ChunkReassembler :=
  ⟨state.frameLimit, state.maxChunks, 0, 0, 0, []⟩

/-- Reads and checks the nine-byte header. -/
def readHeader (state : ChunkReassembler) (message : List UInt8) : Except CodecError (Nat × Nat) :=
  let version := message.headD 0
  let index := readUint32 message 1
  let count := readUint32 message 5
  if message.length < chunkHeaderBytes then
    .error ⟨.chunkHeader,
      s!"message is {message.length} bytes; expected at least the {chunkHeaderBytes}-byte chunk header",
      none⟩
  else if version ≠ chunkFormatVersion then
    .error ⟨.chunkVersion,
      s!"chunk format version is {version}; expected {chunkFormatVersion}", none⟩
  else if count < 1 ∨ state.maxChunks < count then
    .error ⟨.chunkCount,
      s!"chunk count is {count}; expected 1 to {state.maxChunks} under a {state.frameLimit.bytes}-byte frame limit",
      none⟩
  else if index ≠ state.expectedIndex then
    .error ⟨.chunkIndex,
      s!"chunk index is {index}; expected {state.expectedIndex} next in this frame", none⟩
  else if state.count ≠ 0 ∧ count ≠ state.count then
    .error ⟨.chunkCount,
      s!"chunk count is {count} at index {index}; expected {state.count}, the count the frame started with",
      none⟩
  else .ok (index, count)

/-- The framing rules of `accept`: the next state, and the line once its last
chunk is here. -/
def assemble (state : ChunkReassembler) (message : List UInt8) :
    Except CodecError (ChunkReassembler × Option (List UInt8)) :=
  match state.readHeader message with
  | .error refusal => .error refusal
  | .ok (index, count) =>
    let payload := message.drop chunkHeaderBytes
    let size := state.size + payload.length
    if state.frameLimit.bytes < size then
      .error ⟨.tooLarge,
        s!"reassembled frame is {size} bytes at chunk {index}; expected at most {state.frameLimit.bytes}",
        none⟩
    else if payload.length = 0 then
      .error ⟨.empty,
        s!"chunk {index} of {count} carries no payload; expected at least one byte", none⟩
    else if index ≠ count - 1 ∧ payload.length < minNonfinalPayloadBytes then
      .error ⟨.chunkDribble,
        s!"chunk {index} of {count} carries {payload.length} payload bytes; expected at least {minNonfinalPayloadBytes} on a non-final chunk",
        none⟩
    else if index ≠ count - 1 then
      .ok (⟨state.frameLimit, state.maxChunks, index + 1, count, size, state.parts ++ [payload]⟩,
        none)
    else .ok (state.reset, some (state.parts ++ [payload]).flatten)

variable (parse : List Char → Except ParseFailure Frame)

/-- Takes one message: the frame it completed, or nothing yet.  Every refusal
resets. -/
def push (state : ChunkReassembler) (message : List UInt8) :
    ChunkReassembler × Except CodecError (Option Frame) :=
  match state.assemble message with
  | .error refusal => (state.reset, .error refusal)
  | .ok (next, none) => (next, .ok none)
  | .ok (next, some line) =>
    match decodeLine parse line state.frameLimit with
    | .error refusal => (next.reset, .error refusal)
    | .ok frame => (next, .ok (some frame))

end ChunkReassembler

end Ts

/-! ## The Rust framing -/

namespace Rust

/-- The largest `u32`. -/
def u32Max : Nat := 4294967295

/-- The most chunks one frame can need, derived from the frame limit alone. -/
def maxChunksFor (maxFrameBytes : Nat) : Nat :=
  if ceilDiv maxFrameBytes minNonfinalPayloadBytes ≤ u32Max then
    ceilDiv maxFrameBytes minNonfinalPayloadBytes
  else u32Max

variable (runtime : Runtime)

/-- Splits one frame into chunk messages. -/
def encodeChunks (frame : Frame) (maxMessageBytes maxFrameBytes : Nat) :
    Except CodecError (List (List UInt8)) :=
  if maxMessageBytes < minMaxMessageBytes then
    .error ⟨.chunkHeader,
      s!"received a message ceiling of {maxMessageBytes} bytes, expected at least {minMaxMessageBytes}",
      none⟩
  else
    match encodeFrameBytes runtime frame maxFrameBytes with
    | .error error => .error error
    | .ok bytes =>
      let capacity := maxMessageBytes - chunkHeaderBytes
      let count := max (ceilDiv bytes.length capacity) 1
      let bound := maxChunksFor maxFrameBytes
      let count := if count ≤ u32Max then count else u32Max
      if bound < count then
        .error ⟨.chunkCount,
          s!"received a frame needing {count} chunks, expected at most {bound}", none⟩
      else
        .ok ((List.range count).map fun index =>
          let start := index * capacity
          let finish := min (start + capacity) bytes.length
          chunkMessage index count ((bytes.take finish).drop start))

/-- The reassembler's state. -/
structure ChunkReassembler where
  maxFrameBytes : FrameLimit
  count : Option Nat := none
  nextIndex : Nat := 0
  buffer : List UInt8 := []

namespace ChunkReassembler

def new (limit : FrameLimit) : ChunkReassembler := ⟨limit, none, 0, []⟩

/-- Drops any partially reassembled frame. -/
def reset (state : ChunkReassembler) : ChunkReassembler := ⟨state.maxFrameBytes, none, 0, []⟩

/-- The framing rules of `decode`.  The index is below the count where it is
incremented, so the `u32` sum does not wrap. -/
def assemble (state : ChunkReassembler) (message : List UInt8) :
    Except CodecError (ChunkReassembler × Option (List UInt8)) :=
  let version := message.headD chunkFormatVersion
  if version ≠ chunkFormatVersion then
    .error ⟨.chunkVersion,
      s!"received chunk format version {version}, expected {chunkFormatVersion}", none⟩
  else if message.length < chunkHeaderBytes then
    .error ⟨.chunkHeader,
      s!"received a chunk message of {message.length} bytes, expected at least {chunkHeaderBytes}",
      none⟩
  else
    let index := readUint32 message 1
    let count := readUint32 message 5
    let payload := message.drop chunkHeaderBytes
    let bound := maxChunksFor state.maxFrameBytes.bytes
    if count = 0 ∨ bound < count then
      .error ⟨.chunkCount, s!"received chunk count {count}, expected 1 to {bound}", none⟩
    else if state.count.any (fun started => decide (count ≠ started)) then
      .error ⟨.chunkCount,
        s!"received chunk count {count}, expected {state.count.getD 0} for this frame", none⟩
    else if index ≠ state.nextIndex then
      .error ⟨.chunkIndex,
        s!"received chunk index {index}, expected {state.nextIndex} of a {count}-chunk frame",
        none⟩
    else if payload.isEmpty then
      .error ⟨.chunkDribble,
        s!"received chunk {index} with no payload, expected at least 1 byte", none⟩
    else if index + 1 ≠ count ∧ payload.length < minNonfinalPayloadBytes then
      .error ⟨.chunkDribble,
        s!"received {payload.length} payload bytes in non-final chunk {index}, expected at least {minNonfinalPayloadBytes}",
        none⟩
    else if state.maxFrameBytes.bytes < state.buffer.length + payload.length then
      .error ⟨.tooLarge,
        s!"received {state.buffer.length + payload.length} reassembled bytes, expected at most {state.maxFrameBytes.bytes}",
        none⟩
    else if index + 1 ≠ count then
      .ok (⟨state.maxFrameBytes, some (state.count.getD count), index + 1,
        state.buffer ++ payload⟩, none)
    else .ok (state.reset, some (state.buffer ++ payload))

/-- Feeds one binary message. -/
def push (state : ChunkReassembler) (message : List UInt8) :
    ChunkReassembler × Except CodecError (Option Frame) :=
  match state.assemble message with
  | .error error => (state.reset, .error error)
  | .ok (next, none) => (next, .ok none)
  | .ok (next, some line) =>
    match decodeLine runtime line state.maxFrameBytes.bytes with
    | .error error => (next.reset, .error error)
    | .ok frame => (next, .ok (some frame))

end ChunkReassembler

end Rust

/-! ## The receiver of the specification -/

/-- The bounds that a frame limit puts on a run. -/
def chunkBounds (limit : FrameLimit) : Bounds :=
  ⟨limit.bytes, minNonfinalPayloadBytes, ceilDiv limit.bytes minNonfinalPayloadBytes⟩

/-- A run of chunks that has begun and not ended. -/
abbrev ChunkRun (limit : FrameLimit) := Option (OpenRun (chunkBounds limit) UInt8)

/-- The message has a whole header of the one version. -/
def HeaderOk (message : List UInt8) : Prop :=
  chunkHeaderBytes ≤ message.length ∧ message.head? = some chunkFormatVersion

instance (message : List UInt8) : Decidable (HeaderOk message) :=
  inferInstanceAs (Decidable (_ ∧ _))

/-- The piece that a message carries. -/
def pieceOf (message : List UInt8) : Piece UInt8 :=
  ⟨readUint32 message 1, readUint32 message 5, message.drop chunkHeaderBytes⟩

/-- The message may come next. -/
structure Admissible {limit : FrameLimit} (run : ChunkRun limit) (message : List UInt8) :
    Prop where
  header : HeaderOk message
  fits : Fits run (pieceOf message)

/-- Takes a message; `none` is a refusal. -/
def receive {limit : FrameLimit} (run : ChunkRun limit) (message : List UInt8) :
    Option (ChunkRun limit × Option (List UInt8)) :=
  if HeaderOk message then step run (pieceOf message) else none

variable {run : ChunkRun limit} {message : List UInt8} {limit : FrameLimit}

theorem receive_refused (h : ¬ Admissible run message) : receive run message = none := by
  rw [receive]
  split_ifs with hheader
  · exact step_of_not_fits fun hfits => h ⟨hheader, hfits⟩
  · rfl

theorem receive_last (h : Admissible run message)
    (hlast : readUint32 message 1 + 1 = readUint32 message 5) :
    receive run message = some (none, some (held run ++ message.drop chunkHeaderBytes)) := by
  rw [receive, if_pos h.header]
  exact step_last h.fits hlast

theorem receive_more (h : Admissible run message)
    (hmore : readUint32 message 1 + 1 ≠ readUint32 message 5) :
    receive run message = some (some (extend run (pieceOf message) h.fits hmore), none) := by
  rw [receive, if_pos h.header]
  exact step_more h.fits hmore

/-- The part of `Admissible` that reads the header only. -/
def HeaderFits {limit : FrameLimit} (run : ChunkRun limit) (message : List UInt8) : Prop :=
  HeaderOk message ∧
    (1 ≤ readUint32 message 5 ∧
      readUint32 message 5 ≤ ceilDiv limit.bytes minNonfinalPayloadBytes) ∧
    readUint32 message 1 = expected run ∧
    ∀ opened, run = some opened → readUint32 message 5 = opened.count

/-- The part of `Admissible` that reads the payload. -/
def PayloadFits {limit : FrameLimit} (run : ChunkRun limit) (message : List UInt8) : Prop :=
  (held run).length + (message.drop chunkHeaderBytes).length ≤ limit.bytes ∧
    message.drop chunkHeaderBytes ≠ [] ∧
    (readUint32 message 1 + 1 = readUint32 message 5 ∨
      minNonfinalPayloadBytes ≤ (message.drop chunkHeaderBytes).length)

theorem admissible_iff :
    Admissible run message ↔ HeaderFits run message ∧ PayloadFits run message := by
  constructor
  · intro ⟨hheader, hfits⟩
    exact ⟨⟨hheader, ⟨hfits.count_pos, hfits.count_le⟩, hfits.index_eq, hfits.count_eq⟩,
      hfits.length_le, hfits.payload_ne, hfits.floor_le⟩
  · intro ⟨⟨hheader, ⟨hpos, hle⟩, hindex, hcount⟩, hlength, hne, hfloor⟩
    exact ⟨hheader, hpos, hle, hindex, hcount, hne, hfloor, hlength⟩

/-! ## The TypeScript reassembler is the receiver -/

namespace Ts.ChunkReassembler

/-- The state stands for a run. -/
structure Represents {limit : FrameLimit} (state : ChunkReassembler) (run : ChunkRun limit) :
    Prop where
  frameLimit : state.frameLimit = limit
  maxChunks : state.maxChunks = maxChunksFor limit.bytes
  index : state.expectedIndex = expected run
  count : state.count = (run.map OpenRun.count).getD 0
  size : state.size = (held run).length
  parts : state.parts.flatten = held run
  idle : run = none → state.parts = []

variable {limit : FrameLimit} {state : ChunkReassembler} {run : ChunkRun limit}
  {message : List UInt8}

theorem represents_new (limit : FrameLimit) :
    Represents (new limit) (none : ChunkRun limit) :=
  ⟨rfl, rfl, rfl, rfl, rfl, rfl, fun _ => rfl⟩

theorem Represents.eq_new (h : Represents state (none : ChunkRun limit)) : state = new limit := by
  obtain ⟨rfl, hmax, hindex, hcount, hsize, -, hidle⟩ := h
  cases state
  simp only [new, mk.injEq, true_and]
  exact ⟨hmax, hindex, hcount, hsize, hidle rfl⟩

section

variable (h : Represents state run)

include h

theorem Represents.reset_eq : state.reset = new limit := by
  rw [reset, h.frameLimit, h.maxChunks]
  rfl

theorem Represents.count_iff (count : Nat) :
    (state.count ≠ 0 ∧ count ≠ state.count) ↔
      ¬ ∀ opened, run = some opened → count = opened.count := by
  rw [h.count]
  cases run with
  | none => simp
  | some opened =>
    have hpos : opened.count ≠ 0 := by
      have := opened.next_lt
      omega
    simp [hpos]

theorem readHeader_of_fits (hfits : HeaderFits run message) :
    state.readHeader message = .ok (readUint32 message 1, readUint32 message 5) := by
  obtain ⟨⟨hlength, hversion⟩, ⟨hpos, hle⟩, hindex, hcount⟩ := hfits
  have hhead : message.headD 0 = chunkFormatVersion := by
    rw [headD_eq_head?_getD, hversion]
    rfl
  have hmax : ¬ (readUint32 message 5 < 1 ∨ state.maxChunks < readUint32 message 5) := by
    rw [h.maxChunks, maxChunksFor]
    omega
  rw [readHeader, if_neg (Nat.not_lt.mpr hlength), if_neg (not_not.mpr hhead), if_neg hmax,
    if_neg (not_not.mpr (hindex.trans h.index.symm)),
    if_neg fun hbad => (h.count_iff _).mp hbad hcount]

theorem readHeader_of_not_fits (hnot : ¬ HeaderFits run message) :
    ∃ refusal, state.readHeader message = .error refusal := by
  simp only [readHeader]
  split_ifs with hlength hversion hmax hindex hcount
  any_goals exact ⟨_, rfl⟩
  -- every check passed, so the header fits
  refine absurd ⟨⟨Nat.le_of_not_lt hlength, ?_⟩, ?_, ?_, ?_⟩ hnot
  · cases message with
    | nil => exact absurd (by decide) hlength
    | cons version rest => exact congrArg some (not_not.mp hversion)
  · rw [h.maxChunks, maxChunksFor] at hmax
    omega
  · exact (not_not.mp hindex).trans h.index
  · exact not_not.mp fun hbad => hcount ((h.count_iff _).mpr hbad)

theorem assemble_refused (hnot : ¬ Admissible run message) :
    ∃ refusal, state.assemble message = .error refusal := by
  by_cases hheader : HeaderFits run message
  · rw [assemble, readHeader_of_fits h hheader]
    simp only
    split_ifs with hlarge hempty hdribble hmore
    any_goals exact ⟨_, rfl⟩
    all_goals
      refine absurd (admissible_iff.mpr ⟨hheader, ?_, ?_, ?_⟩) hnot
      · rw [h.size, h.frameLimit] at hlarge
        omega
      · exact fun hnil => hempty (by rw [hnil]; rfl)
      · have hpos := hheader.2.1.1
        omega
  · obtain ⟨refusal, hrefusal⟩ := readHeader_of_not_fits h hheader
    rw [assemble, hrefusal]
    exact ⟨refusal, rfl⟩

theorem assemble_of_admissible (hfits : Admissible run message) :
    state.assemble message =
      if readUint32 message 1 + 1 = readUint32 message 5 then
        .ok (new limit, some (held run ++ message.drop chunkHeaderBytes))
      else
        .ok (⟨limit, maxChunksFor limit.bytes, readUint32 message 1 + 1, readUint32 message 5,
          (held run).length + (message.drop chunkHeaderBytes).length,
          state.parts ++ [message.drop chunkHeaderBytes]⟩, none) := by
  obtain ⟨hheader, hlength, hne, hfloor⟩ := admissible_iff.mp hfits
  have hpos := hheader.2.1.1
  have hlast : readUint32 message 1 = readUint32 message 5 - 1 ↔
      readUint32 message 1 + 1 = readUint32 message 5 := by omega
  have hsize : ¬ state.frameLimit.bytes < state.size + (message.drop chunkHeaderBytes).length := by
    rw [h.size, h.frameLimit]
    omega
  have hpayload : (message.drop chunkHeaderBytes).length ≠ 0 := fun hzero =>
    hne (length_eq_zero_iff.mp hzero)
  have hdribble : ¬ (¬ readUint32 message 1 + 1 = readUint32 message 5 ∧
      (message.drop chunkHeaderBytes).length < minNonfinalPayloadBytes) := by
    omega
  rw [assemble, readHeader_of_fits h hheader]
  grind [Represents.reset_eq, cases Represents]

theorem represents_extend (hfits : Admissible run message)
    (hmore : readUint32 message 1 + 1 ≠ readUint32 message 5) :
    Represents (⟨limit, maxChunksFor limit.bytes, readUint32 message 1 + 1, readUint32 message 5,
        (held run).length + (message.drop chunkHeaderBytes).length,
        state.parts ++ [message.drop chunkHeaderBytes]⟩ : ChunkReassembler)
      (some (extend run (pieceOf message) hfits.fits hmore)) where
  frameLimit := rfl
  maxChunks := rfl
  index := rfl
  count := rfl
  size := length_append.symm
  parts := by
    show (state.parts ++ [message.drop chunkHeaderBytes]).flatten =
      held run ++ message.drop chunkHeaderBytes
    rw [flatten_append, h.parts, flatten_singleton]
  idle := by simp

end

end Ts.ChunkReassembler

/-! ## The Rust reassembler is the receiver -/

namespace Rust

theorem maxChunksFor_eq (limit : FrameLimit) :
    maxChunksFor limit.bytes = ceilDiv limit.bytes minNonfinalPayloadBytes := by
  have hceiling := limit.ceiling
  rw [maxAnnouncedFrameBytes] at hceiling
  rw [maxChunksFor, if_pos]
  rw [ceilDiv, minNonfinalPayloadBytes, u32Max]
  omega

namespace ChunkReassembler

/-- The state stands for a run. -/
structure Represents {limit : FrameLimit} (state : ChunkReassembler) (run : ChunkRun limit) :
    Prop where
  maxFrameBytes : state.maxFrameBytes = limit
  index : state.nextIndex = expected run
  count : state.count = run.map OpenRun.count
  buffer : state.buffer = held run

variable {limit : FrameLimit} {state : ChunkReassembler} {run : ChunkRun limit}
  {message : List UInt8}

theorem represents_new (limit : FrameLimit) :
    Represents (new limit) (none : ChunkRun limit) :=
  ⟨rfl, rfl, rfl, rfl⟩

theorem Represents.eq_new (h : Represents state (none : ChunkRun limit)) : state = new limit := by
  obtain ⟨rfl, hindex, hcount, hbuffer⟩ := h
  cases state
  simp only [new, mk.injEq, true_and]
  exact ⟨hcount, hindex, hbuffer⟩

theorem headD_eq_iff (hlength : ¬ message.length < chunkHeaderBytes) :
    message.headD chunkFormatVersion = chunkFormatVersion ↔
      message.head? = some chunkFormatVersion := by
  cases message with
  | nil => exact absurd (by decide) hlength
  | cons version rest => simp

section

variable (h : Represents state run)

include h

theorem Represents.reset_eq : state.reset = new limit := by
  rw [reset, h.maxFrameBytes]
  rfl

theorem Represents.count_iff (count : Nat) :
    state.count.any (fun started => decide (count ≠ started)) = true ↔
      ¬ ∀ opened, run = some opened → count = opened.count := by
  rw [h.count]
  cases run <;> simp

theorem assemble_refused (hnot : ¬ Admissible run message) :
    ∃ error, state.assemble message = .error error := by
  simp only [assemble]
  split_ifs with hversion hlength hbound hcount hindex hempty hdribble hlarge hmore
  any_goals exact ⟨_, rfl⟩
  all_goals
    refine absurd (admissible_iff.mpr ⟨⟨⟨Nat.le_of_not_lt hlength, ?_⟩, ?_, ?_, ?_⟩, ?_, ?_, ?_⟩)
      hnot
    · exact (headD_eq_iff hlength).mp (not_not.mp hversion)
    · rw [h.maxFrameBytes, maxChunksFor_eq] at hbound
      omega
    · exact (not_not.mp hindex).trans h.index
    · exact not_not.mp fun hbad => hcount ((h.count_iff _).mpr hbad)
    · rw [h.buffer, h.maxFrameBytes] at hlarge
      omega
    · exact fun hnil => hempty (isEmpty_iff.mpr hnil)
    · omega

theorem assemble_of_admissible (hfits : Admissible run message) :
    state.assemble message =
      if readUint32 message 1 + 1 = readUint32 message 5 then
        .ok (new limit, some (held run ++ message.drop chunkHeaderBytes))
      else
        .ok (⟨limit, some (readUint32 message 5), readUint32 message 1 + 1,
          held run ++ message.drop chunkHeaderBytes⟩, none) := by
  obtain ⟨⟨⟨hlength, hversion⟩, ⟨hpos, hle⟩, hindex, hcount⟩, hsize, hne, hfloor⟩ :=
    admissible_iff.mp hfits
  have hshort : ¬ message.length < chunkHeaderBytes := Nat.not_lt.mpr hlength
  have hbound : ¬ (readUint32 message 5 = 0 ∨
      maxChunksFor state.maxFrameBytes.bytes < readUint32 message 5) := by
    rw [h.maxFrameBytes, maxChunksFor_eq]
    omega
  have hdribble : ¬ (¬ readUint32 message 1 + 1 = readUint32 message 5 ∧
      (message.drop chunkHeaderBytes).length < minNonfinalPayloadBytes) := by
    omega
  have hlarge : ¬ state.maxFrameBytes.bytes <
      state.buffer.length + (message.drop chunkHeaderBytes).length := by
    rw [h.buffer, h.maxFrameBytes]
    omega
  have hstarted : state.count.getD (readUint32 message 5) = readUint32 message 5 := by
    rw [h.count]
    cases run with
    | none => rfl
    | some opened => exact (hcount opened rfl).symm
  have hempty : ¬ (message.drop chunkHeaderBytes).isEmpty = true := fun hnil =>
    hne (isEmpty_iff.mp hnil)
  simp only [assemble]
  rw [if_neg (not_not.mpr ((headD_eq_iff hshort).mpr hversion)), if_neg hshort, if_neg hbound,
    if_neg fun hbad => (h.count_iff _).mp hbad hcount,
    if_neg (not_not.mpr (hindex.trans h.index.symm)), if_neg hempty, if_neg hdribble,
    if_neg hlarge, h.reset_eq, h.buffer, h.maxFrameBytes, hstarted]
  simp

end

theorem represents_extend (hfits : Admissible run message)
    (hmore : readUint32 message 1 + 1 ≠ readUint32 message 5) :
    Represents (⟨limit, some (readUint32 message 5), readUint32 message 1 + 1,
        held run ++ message.drop chunkHeaderBytes⟩ : ChunkReassembler)
      (some (extend run (pieceOf message) hfits.fits hmore)) :=
  ⟨rfl, rfl, rfl, rfl⟩

end ChunkReassembler

end Rust

/-! ## Reassemblers and the receiver -/

/-- A reassembler as a machine: what a message gives, and the line it
completed. -/
structure Reassembler (σ : Type) where
  push : σ → List UInt8 → σ × Except CodecError (Option Frame)
  completes : σ → List UInt8 → Option (List UInt8)

namespace Reassembler

variable {σ : Type} (reassembler : Reassembler σ)

/-- The state after a sequence of messages. -/
def after (state : σ) : List (List UInt8) → σ
  | [] => state
  | message :: rest => after (reassembler.push state message).1 rest

/-- What each message of a sequence gave. -/
def results (state : σ) : List (List UInt8) → List (Except CodecError (Option Frame))
  | [] => []
  | message :: rest =>
    (reassembler.push state message).2 :: results (reassembler.push state message).1 rest

/-- The line that each message of a sequence completed. -/
def lines (state : σ) : List (List UInt8) → List (Option (List UInt8))
  | [] => []
  | message :: rest =>
    reassembler.completes state message :: lines (reassembler.push state message).1 rest

theorem after_append (state : σ) (first second : List (List UInt8)) :
    reassembler.after state (first ++ second) =
      reassembler.after (reassembler.after state first) second := by
  induction first generalizing state with
  | nil => rfl
  | cons message rest ih => exact ih _

theorem results_append (state : σ) (first second : List (List UInt8)) :
    reassembler.results state (first ++ second) =
      reassembler.results state first ++
        reassembler.results (reassembler.after state first) second := by
  induction first generalizing state with
  | nil => rfl
  | cons message rest ih =>
    simp only [cons_append, results, after, ih]

/-- The reassembler is the receiver, with `decode` for the completed lines.
`represents` relates its states to runs, and `fresh` is its one idle state. -/
structure Implements (limit : FrameLimit) (decode : List UInt8 → Except CodecError Frame)
    (represents : σ → ChunkRun limit → Prop) (fresh : σ) : Prop where
  idle : represents fresh none
  idle_unique : ∀ {state}, represents state none → state = fresh
  refused : ∀ {state run message}, represents state run → ¬ Admissible run message →
    (∃ error, reassembler.push state message = (fresh, .error error)) ∧
      reassembler.completes state message = none
  last : ∀ {state run message}, represents state run → Admissible run message →
    readUint32 message 1 + 1 = readUint32 message 5 →
    reassembler.push state message =
        (fresh, (decode (held run ++ message.drop chunkHeaderBytes)).map some) ∧
      reassembler.completes state message = some (held run ++ message.drop chunkHeaderBytes)
  more : ∀ {state run message}, represents state run → ∀ hfits : Admissible run message,
    ∀ hmore : readUint32 message 1 + 1 ≠ readUint32 message 5,
    (∃ next, reassembler.push state message = (next, .ok none) ∧
        represents next (some (extend run (pieceOf message) hfits.fits hmore))) ∧
      reassembler.completes state message = none

end Reassembler

/-- The line that a message completes, by the framing rules. -/
def completedLine {σ : Type} : Except CodecError (σ × Option (List UInt8)) → Option (List UInt8)
  | .error _ => none
  | .ok (_, line) => line

/-- The TypeScript reassembler as a machine. -/
def Ts.reassembler (parse : List Char → Except ParseFailure Frame) :
    Reassembler ChunkReassembler where
  push state message := state.push parse message
  completes state message := completedLine (state.assemble message)

/-- The Rust reassembler as a machine. -/
def Rust.reassembler (runtime : Runtime) : Reassembler ChunkReassembler where
  push state message := state.push runtime message
  completes state message := completedLine (state.assemble message)

theorem Ts.reassembler_implements (parse : List Char → Except ParseFailure Frame)
    (limit : FrameLimit) :
    (Ts.reassembler parse).Implements limit (fun line => decodeLine parse line limit)
      ChunkReassembler.Represents (.new limit) where
  idle := ChunkReassembler.represents_new limit
  idle_unique := ChunkReassembler.Represents.eq_new
  refused := by
    intro state run message h hnot
    obtain ⟨refusal, hrefusal⟩ := ChunkReassembler.assemble_refused h hnot
    simp only [reassembler, ChunkReassembler.push, hrefusal, completedLine, and_true]
    exact ⟨refusal, by rw [h.reset_eq]⟩
  last := by
    intro state run message h hfits hlast
    have hline := ChunkReassembler.assemble_of_admissible h hfits
    rw [if_pos hlast] at hline
    simp only [reassembler, ChunkReassembler.push, hline, completedLine, and_true, h.frameLimit]
    cases decodeLine parse (held run ++ message.drop chunkHeaderBytes) limit <;> rfl
  more := by
    intro state run message h hfits hmore
    have hline := ChunkReassembler.assemble_of_admissible h hfits
    rw [if_neg hmore] at hline
    simp only [reassembler, ChunkReassembler.push, hline, completedLine, and_true]
    exact ⟨_, rfl, ChunkReassembler.represents_extend h hfits hmore⟩

theorem Rust.reassembler_implements (runtime : Runtime) (limit : FrameLimit) :
    (Rust.reassembler runtime).Implements limit
      (fun line => decodeLine runtime line limit.bytes) ChunkReassembler.Represents
      (.new limit) where
  idle := ChunkReassembler.represents_new limit
  idle_unique := ChunkReassembler.Represents.eq_new
  refused := by
    intro state run message h hnot
    obtain ⟨error, herror⟩ := ChunkReassembler.assemble_refused h hnot
    simp only [reassembler, ChunkReassembler.push, herror, completedLine, and_true]
    exact ⟨error, by rw [h.reset_eq]⟩
  last := by
    intro state run message h hfits hlast
    have hline := ChunkReassembler.assemble_of_admissible h hfits
    rw [if_pos hlast] at hline
    simp only [reassembler, ChunkReassembler.push, hline, completedLine, and_true,
      h.maxFrameBytes]
    cases decodeLine runtime (held run ++ message.drop chunkHeaderBytes) limit.bytes <;> rfl
  more := by
    intro state run message h hfits hmore
    have hline := ChunkReassembler.assemble_of_admissible h hfits
    rw [if_neg hmore] at hline
    simp only [reassembler, ChunkReassembler.push, hline, completedLine, and_true]
    exact ⟨_, rfl, ChunkReassembler.represents_extend hfits hmore⟩

end MangoStudio.Protocol
