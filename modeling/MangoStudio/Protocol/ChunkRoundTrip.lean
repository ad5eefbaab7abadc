import MangoStudio.Protocol.ChunkAgreement

/-!
# The chunk framing round trip

What either SDK's `encodeChunks` cuts, either SDK's reassembler puts together
again.  Sender and receiver bound the number of chunks by different arithmetic:
the sender fills messages of its own ceiling, the receiver allows one chunk for
every 1024 bytes of its frame limit.  `ceilDiv_le_maxChunks` is why the two are
compatible, and `steps_chunkRun` is the receiver's side of it.

`Implements.results_chunkRun` takes one run through an implementation.
`Sdk.decodes_iff` takes a sequence of frames through a receiver: it gives the
frames back exactly when its line codec reads each one back.
`Sdk.roundTrips_iff` is the result for a sender and a receiver of any two SDKs.
Of the frames whose text the receiver's JSON reader reads back, those that do not
come back are a hello whose role ends in a dash, which the Rust validator refuses
and the TypeScript schema lets through, and a frame with an integer that does not
fit its Rust field.
-/

namespace MangoStudio.Protocol

open Assembly List

/-! ## Cutting a line -/

/-- The messages of a line under a message ceiling. -/
def chunkRun (bytes : List UInt8) (ceiling : Nat) : List (List UInt8) :=
  let capacity := ceiling - chunkHeaderBytes
  let count := ceilDiv bytes.length capacity
  (List.range count).map fun index =>
    chunkMessage index count
      ((bytes.take (min (index * capacity + capacity) bytes.length)).drop (index * capacity))

/-- The message that carries a piece. -/
def messageOf (piece : Piece UInt8) : List UInt8 :=
  chunkMessage piece.index piece.count piece.payload

variable {piece : Piece UInt8}

theorem pieceOf_messageOf (hindex : piece.index < 4294967296)
    (hcount : piece.count < 4294967296) : pieceOf (messageOf piece) = piece := by
  rw [pieceOf, messageOf, readUint32_index _ _ hindex, readUint32_count _ _ hcount,
    drop_chunkMessage]

theorem headerOk_messageOf (piece : Piece UInt8) : HeaderOk (messageOf piece) := by
  refine ⟨?_, rfl⟩
  rw [messageOf, length_chunkMessage]
  exact Nat.le_add_right _ _

variable {limit : FrameLimit}

theorem receive_messageOf (run : ChunkRun limit) (hindex : piece.index < 4294967296)
    (hcount : piece.count < 4294967296) :
    receive run (messageOf piece) = step run piece := by
  rw [receive, if_pos (headerOk_messageOf piece), pieceOf_messageOf hindex hcount]

theorem map_range_eq_piecesFrom (count start : Nat) (payloads : List (List UInt8)) :
    (piecesFrom count start payloads).map messageOf =
      payloads.mapIdx fun index payload => chunkMessage (start + index) count payload := by
  induction payloads generalizing start with
  | nil => rfl
  | cons payload rest ih =>
    rw [piecesFrom, map_cons, ih, mapIdx_cons]
    congr 1
    refine congrArg₂ mapIdx (funext fun index => ?_) rfl
    rw [Nat.add_assoc, Nat.add_comm 1]

theorem chunkRun_eq (bytes : List UInt8) (ceiling : Nat) :
    chunkRun bytes ceiling =
      (piecesFrom (ceilDiv bytes.length (ceiling - chunkHeaderBytes)) 0
        (slices (ceiling - chunkHeaderBytes)
          (ceilDiv bytes.length (ceiling - chunkHeaderBytes)) bytes)).map messageOf := by
  rw [map_range_eq_piecesFrom]
  apply ext_getElem
  · simp [chunkRun]
  · intro n hn hn'
    simp [chunkRun, slices]

theorem index_lt_of_mem_piecesFrom {count start : Nat} {payloads : List (List UInt8)}
    (h : piece ∈ piecesFrom count start payloads) :
    piece.index < start + payloads.length ∧ piece.count = count := by
  induction payloads generalizing start with
  | nil => cases h
  | cons payload rest ih =>
    rw [length_cons]
    rcases mem_cons.mp h with rfl | hmem
    · exact ⟨by show start < _; omega, rfl⟩
    · obtain ⟨hlt, hcount⟩ := ih hmem
      exact ⟨by omega, hcount⟩

section

variable {limit : FrameLimit} {ceiling : Nat} {bytes : List UInt8}

theorem ceilDiv_le_maxChunks (hceiling : minMaxMessageBytes ≤ ceiling)
    (hlength : bytes.length ≤ limit.bytes) :
    ceilDiv bytes.length (ceiling - chunkHeaderBytes) ≤
      ceilDiv limit.bytes minNonfinalPayloadBytes := by
  rw [minMaxMessageBytes] at hceiling
  apply ceilDiv_le_ceilDiv (by decide) hlength
  rw [minNonfinalPayloadBytes, chunkHeaderBytes]
  omega

theorem maxChunks_lt (limit : FrameLimit) :
    ceilDiv limit.bytes minNonfinalPayloadBytes < 4294967296 := by
  have hceiling := limit.ceiling
  rw [maxAnnouncedFrameBytes] at hceiling
  rw [ceilDiv, minNonfinalPayloadBytes]
  omega

theorem steps_chunkRun (hceiling : minMaxMessageBytes ≤ ceiling) (hbytes : 0 < bytes.length)
    (hlength : bytes.length ≤ limit.bytes) :
    steps (none : ChunkRun limit)
        (piecesFrom (ceilDiv bytes.length (ceiling - chunkHeaderBytes)) 0
          (slices (ceiling - chunkHeaderBytes)
            (ceilDiv bytes.length (ceiling - chunkHeaderBytes)) bytes)) =
      some (none, replicate (ceilDiv bytes.length (ceiling - chunkHeaderBytes) - 1) none ++
        [some bytes]) := by
  have hmax := ceilDiv_le_maxChunks hceiling hlength
  rw [minMaxMessageBytes] at hceiling
  have hcapacity : 0 < ceiling - chunkHeaderBytes := by
    rw [chunkHeaderBytes]
    omega
  have hcount := ceilDiv_pos hcapacity hbytes
  have hflatten : (slices (ceiling - chunkHeaderBytes)
      (ceilDiv bytes.length (ceiling - chunkHeaderBytes)) bytes).flatten = bytes :=
    flatten_slices (le_ceilDiv_mul _ hcapacity)
  have hinside : ∀ index < ceilDiv bytes.length (ceiling - chunkHeaderBytes),
      index * (ceiling - chunkHeaderBytes) < bytes.length :=
    fun index hindex => mul_lt_of_lt_ceilDiv hcapacity hbytes hindex
  have hsteps := @steps_pieces UInt8 (chunkBounds limit)
    (slices (ceiling - chunkHeaderBytes)
      (ceilDiv bytes.length (ceiling - chunkHeaderBytes)) bytes)
    (by
      rw [← length_pos_iff, length_slices]
      exact hcount)
    (by
      rw [length_slices]
      exact hmax)
    (slices_ne_nil hcapacity hinside)
    (by
      intro payload hpayload
      have hfull := capacity_le_of_mem_dropLast_slices hinside payload hpayload
      show minNonfinalPayloadBytes ≤ payload.length
      rw [chunkHeaderBytes] at hfull
      rw [minNonfinalPayloadBytes]
      omega)
    (by
      rw [hflatten]
      exact hlength)
  rw [length_slices, hflatten] at hsteps
  exact hsteps

end

/-- What the receiver's answer to a piece becomes once lines are decoded. -/
def decodeWhole (decode : List UInt8 → Except CodecError Frame) :
    Option (List UInt8) → Except CodecError (Option Frame)
  | none => .ok none
  | some line => (decode line).map some

theorem eventOf_messageOf {run next : ChunkRun limit} {whole : Option (List UInt8)}
    (hindex : piece.index < 4294967296) (hcount : piece.count < 4294967296)
    (hstep : step run piece = some (next, whole)) :
    (eventOf run (messageOf piece)).1 = next ∧
      ∀ (decode : List UInt8 → Except CodecError Frame) (result : Except CodecError (Option Frame)),
        ResultOf decode (eventOf run (messageOf piece)).2 result →
          result = decodeWhole decode whole := by
  rw [eventOf, receive_messageOf run hindex hcount, hstep]
  cases whole with
  | none | some => exact ⟨rfl, fun _ _ h => h⟩

variable {decode : List UInt8 → Except CodecError Frame} {σ : Type} {reassembler : Reassembler σ}
  {represents : σ → ChunkRun limit → Prop} {fresh : σ}

theorem Reassembler.Implements.results_of_steps
    (h : reassembler.Implements limit decode represents fresh) {state : σ}
    {run last : ChunkRun limit} (hrep : represents state run) {pieces : List (Piece UInt8)}
    {wholes : List (Option (List UInt8))}
    (hsmall : ∀ piece ∈ pieces, piece.index < 4294967296 ∧ piece.count < 4294967296)
    (hsteps : steps run pieces = some (last, wholes)) :
    reassembler.results state (pieces.map messageOf) = wholes.map (decodeWhole decode) ∧
      represents (reassembler.after state (pieces.map messageOf)) last := by
  induction pieces generalizing state run wholes with
  | nil =>
    cases hsteps
    exact ⟨rfl, hrep⟩
  | cons piece rest ih =>
    obtain ⟨hindex, hcount⟩ := hsmall piece mem_cons_self
    rw [steps] at hsteps
    cases hstep : step run piece with
    | none =>
      rw [hstep] at hsteps
      cases hsteps
    | some taken =>
      obtain ⟨next, whole⟩ := taken
      rw [hstep] at hsteps
      obtain ⟨⟨last', wholes'⟩, hrest, heq⟩ := Option.map_eq_some_iff.mp hsteps
      cases heq
      obtain ⟨hnext, hresult, -⟩ := h.push_eventOf hrep (messageOf piece)
      obtain ⟨hrun, hwhole⟩ := eventOf_messageOf hindex hcount hstep
      rw [hrun] at hnext
      obtain ⟨hresults, hafter⟩ := ih hnext
        (fun p hp => hsmall p (mem_cons_of_mem _ hp)) hrest
      refine ⟨?_, hafter⟩
      rw [map_cons, results, hresults, map_cons, hwhole decode _ hresult]

variable {ceiling : Nat} {bytes : List UInt8}

/-- An implementation on the run of one line: nothing before the last message,
the decoded line at the last, and the initial state after it. -/
theorem Reassembler.Implements.results_chunkRun
    (h : reassembler.Implements limit decode represents fresh)
    (hceiling : minMaxMessageBytes ≤ ceiling) (hbytes : 0 < bytes.length)
    (hlength : bytes.length ≤ limit.bytes) :
    reassembler.results fresh (chunkRun bytes ceiling) =
        replicate ((chunkRun bytes ceiling).length - 1) (.ok none) ++
          [(decode bytes).map some] ∧
      reassembler.after fresh (chunkRun bytes ceiling) = fresh := by
  have hlengthRun : (chunkRun bytes ceiling).length =
      ceilDiv bytes.length (ceiling - chunkHeaderBytes) := by
    rw [chunkRun, length_map, length_range]
  have hsmall : ∀ piece ∈ piecesFrom (ceilDiv bytes.length (ceiling - chunkHeaderBytes)) 0
      (slices (ceiling - chunkHeaderBytes)
        (ceilDiv bytes.length (ceiling - chunkHeaderBytes)) bytes),
      piece.index < 4294967296 ∧ piece.count < 4294967296 := by
    intro piece hpiece
    obtain ⟨hindex, hcount⟩ := index_lt_of_mem_piecesFrom hpiece
    rw [length_slices] at hindex
    have hmax := ceilDiv_le_maxChunks hceiling hlength
    have hbound := maxChunks_lt limit
    omega
  obtain ⟨hresults, hafter⟩ := h.results_of_steps h.idle hsmall
    (steps_chunkRun hceiling hbytes hlength)
  rw [← chunkRun_eq] at hresults hafter
  refine ⟨?_, h.idle_unique hafter⟩
  rw [hresults, hlengthRun, map_append, map_replicate]
  rfl

/-! ## The two senders -/

inductive Sdk where
  | ts
  | rust
  deriving DecidableEq, Repr

/-- What the two SDKs take from outside. -/
structure Readers where
  parse : List Char → Except Ts.ParseFailure Frame
  runtime : Rust.Runtime

/-- The value check that a sender makes.  A Rust frame has typed integers. -/
def Sdk.Accepts : Sdk → Frame → Prop
  | .ts, frame => Ts.isFrame frame = true
  | .rust, frame => Rust.validate frame = .ok () ∧ Rust.integersFit frame = true

def Sdk.encodeChunks (readers : Readers) (sender : Sdk) (frame : Frame) (ceiling : Nat)
    (limit : FrameLimit) : Except CodecError (List (List UInt8)) :=
  match sender with
  | .ts => Ts.encodeChunks frame ceiling limit
  | .rust => Rust.encodeChunks readers.runtime.typed frame ceiling limit.bytes

theorem encodedBytes_pos (frame : Frame) : 0 < frame.encodedBytes.length := by
  obtain ⟨tail, htail⟩ := Json.exists_render_obj (("type", .str frame.typeName) :: frame.members)
  have hbytes : frame.encodedBytes = Utf8.encode ('\x7b' :: (tail ++ ['\x7d'])) := by
    rw [Frame.encodedBytes, Frame.text, Frame.toJson, htail]
    rfl
  rw [hbytes, Utf8.encode_cons, length_append]
  have hopen : (String.utf8EncodeChar '\x7b').length = 1 := by decide
  omega

variable {readers : Readers} {frame : Frame} {sender : Sdk}

theorem Sdk.encodeChunks_eq (hceiling : minMaxMessageBytes ≤ ceiling)
    (haccepts : sender.Accepts frame) (hlength : measureFrameBytes frame ≤ limit.bytes) :
    sender.encodeChunks readers frame ceiling limit =
      .ok (chunkRun frame.encodedBytes ceiling) := by
  have hcapacity : 0 < ceiling - chunkHeaderBytes := by
    rw [minMaxMessageBytes] at hceiling
    rw [chunkHeaderBytes]
    omega
  have hpos := ceilDiv_pos hcapacity (encodedBytes_pos frame)
  have hmax := @ceilDiv_le_maxChunks limit ceiling frame.encodedBytes hceiling hlength
  cases sender with
  | ts =>
    have hbytes := Ts.encodeFrameBytes_eq_ok.mpr ⟨haccepts, hlength, rfl⟩
    simp [encodeChunks, Ts.encodeChunks, hbytes, chunkRun, Nat.max_eq_right hpos]
  | rust =>
    have hbytes := (Rust.encodeFrameBytes_eq_ok readers.runtime.typed).mpr ⟨haccepts.1, hlength, rfl⟩
    have hu32 : ceilDiv frame.encodedBytes.length (ceiling - chunkHeaderBytes) ≤ Rust.u32Max := by
      have hlt := maxChunks_lt limit
      rw [Rust.u32Max]
      omega
    simp only [encodeChunks, Rust.encodeChunks, if_neg (Nat.not_lt.mpr hceiling), hbytes,
      Nat.max_eq_left hpos, if_pos hu32, Rust.maxChunksFor_eq, if_neg (Nat.not_lt.mpr hmax),
      chunkRun]

/-! ## The two receivers -/

/-- How a receiver decodes a completed line. -/
def Sdk.decodeLine (readers : Readers) (receiver : Sdk) (limit : FrameLimit)
    (line : List UInt8) : Except CodecError Frame :=
  match receiver with
  | .ts => Ts.decodeLine readers.parse line limit
  | .rust => Rust.decodeLine readers.runtime.typed line limit.bytes

/-- A fresh receiver gives `outcomes` for a sequence of messages, refuses none
of them, and is back in its initial state after the last. -/
def Sdk.Decodes (readers : Readers) (receiver : Sdk) (limit : FrameLimit)
    (messages : List (List UInt8)) (outcomes : List (Option Frame)) : Prop :=
  match receiver with
  | .ts => (Ts.reassembler readers.parse).results (.new limit) messages = outcomes.map .ok ∧
      (Ts.reassembler readers.parse).after (.new limit) messages = .new limit
  | .rust =>
    (Rust.reassembler readers.runtime.typed).results (.new limit) messages = outcomes.map .ok ∧
      (Rust.reassembler readers.runtime.typed).after (.new limit) messages = .new limit

/-- What the run of one frame should give: nothing until the last message. -/
def runOutcomes (run : List (List UInt8)) (frame : Frame) : List (Option Frame) :=
  List.replicate (run.length - 1) none ++ [some frame]

/-- What the runs of a sequence of frames should give. -/
def outcomesOf (runs : List (List (List UInt8))) (frames : List Frame) : List (Option Frame) :=
  (List.zipWith runOutcomes runs frames).flatten

variable {frames : List Frame}

theorem Reassembler.Implements.results_runs
    (h : reassembler.Implements limit decode represents fresh)
    (hceiling : minMaxMessageBytes ≤ ceiling)
    (hlength : ∀ frame ∈ frames, measureFrameBytes frame ≤ limit.bytes) :
    (reassembler.results fresh
        (frames.map fun frame => chunkRun frame.encodedBytes ceiling).flatten =
      (outcomesOf (frames.map fun frame => chunkRun frame.encodedBytes ceiling) frames).map .ok ↔
        ∀ frame ∈ frames, decode frame.encodedBytes = .ok frame) ∧
      reassembler.after fresh
        (frames.map fun frame => chunkRun frame.encodedBytes ceiling).flatten = fresh := by
  induction frames with
  | nil => exact ⟨by simp [results, outcomesOf], rfl⟩
  | cons frame rest ih =>
    obtain ⟨hiff, hafter⟩ := ih fun f hf => hlength f (mem_cons_of_mem _ hf)
    obtain ⟨hresults, hfresh⟩ := h.results_chunkRun hceiling (encodedBytes_pos frame)
      (hlength frame mem_cons_self)
    rw [map_cons, flatten_cons, after_append, results_append, hfresh, hresults]
    refine ⟨?_, hafter⟩
    rw [outcomesOf, zipWith_cons_cons, flatten_cons, map_append, ← outcomesOf,
      forall_mem_cons, ← hiff]
    have hrun : replicate ((chunkRun frame.encodedBytes ceiling).length - 1) (.ok none) ++
          [(decode frame.encodedBytes).map some] =
        (runOutcomes (chunkRun frame.encodedBytes ceiling) frame).map .ok ↔
        decode frame.encodedBytes = .ok frame := by
      rw [runOutcomes, map_append, map_replicate, append_cancel_left_eq]
      cases decode frame.encodedBytes <;> simp [Except.map]
    rw [← hrun]
    constructor
    · intro happend
      exact append_inj happend (by simp [runOutcomes])
    · rintro ⟨hfirst, hsecond⟩
      rw [hfirst, hsecond]

theorem Sdk.decodes_iff (receiver : Sdk) (hceiling : minMaxMessageBytes ≤ ceiling)
    (hlength : ∀ frame ∈ frames, measureFrameBytes frame ≤ limit.bytes) :
    receiver.Decodes readers limit
        (frames.map fun frame => chunkRun frame.encodedBytes ceiling).flatten
        (outcomesOf (frames.map fun frame => chunkRun frame.encodedBytes ceiling) frames) ↔
      ∀ frame ∈ frames, receiver.decodeLine readers limit frame.encodedBytes = .ok frame := by
  cases receiver with
  | ts =>
    obtain ⟨hiff, hafter⟩ :=
      (Ts.reassembler_implements readers.parse limit).results_runs hceiling hlength
    rw [Decodes, hiff]
    exact and_iff_left hafter
  | rust =>
    obtain ⟨hiff, hafter⟩ :=
      (Rust.reassembler_implements readers.runtime.typed limit).results_runs hceiling hlength
    rw [Decodes, hiff]
    exact and_iff_left hafter

/-! ## Reading a frame's own line -/

theorem stripCarriageReturn_encodedBytes (frame : Frame) :
    stripCarriageReturn frame.encodedBytes = frame.encodedBytes := by
  obtain ⟨tail, htail⟩ := Json.exists_render_obj (("type", .str frame.typeName) :: frame.members)
  have hbytes : frame.encodedBytes = Utf8.encode ('\x7b' :: tail) ++ [0x7D] := by
    rw [Frame.encodedBytes, Frame.text, Frame.toJson, htail, Utf8.encode_append]
    rfl
  rw [stripCarriageReturn, hbytes, getLast?_concat, if_neg (by decide)]

/-- The receiver's JSON reader reads the frame's shape back from its text. -/
def Sdk.ReadsBack (readers : Readers) (receiver : Sdk) (frame : Frame) : Prop :=
  match receiver with
  | .ts => readers.parse frame.text = .ok frame
  | .rust => readers.runtime.fromSlice frame.encodedBytes = .ok frame

theorem Sdk.decodeLine_encodedBytes (receiver : Sdk)
    (hlength : measureFrameBytes frame ≤ limit.bytes) :
    receiver.decodeLine readers limit frame.encodedBytes = .ok frame ↔
      receiver.ReadsBack readers frame ∧ receiver.Accepts frame := by
  have hblank := not_isBlankLine_text frame
  have hlossy : Utf8.decodeLossy frame.encodedBytes = frame.text := Utf8.decodeLossy_encode _
  replace hlength : frame.encodedBytes.length ≤ limit.bytes := hlength
  cases receiver with
  | ts =>
    rw [decodeLine, Ts.decodeLine_eq_ok, stripCarriageReturn_encodedBytes, hlossy]
    exact ⟨fun h => h.2.2, fun h => ⟨hlength, hblank, h⟩⟩
  | rust =>
    have hascii : Rust.isBlank frame.encodedBytes = false := by
      rw [Bool.eq_false_iff]
      intro hbytes
      have htext := isBlankLine_of_isBlank hbytes
      rw [hlossy, hblank] at htext
      cases htext
    rw [decodeLine, Rust.decodeLine_eq_ok, stripCarriageReturn_encodedBytes, Rust.reads_typed]
    simp only [hlength, hascii, true_and, Rust.Reads, and_assoc]
    exact Iff.rfl

/-! ## Round trips -/

/-- A sender's run is within the receiver's bound on the number of chunks, and
every message but the last carries at least 1024 bytes of payload. -/
def RunWithinBounds (limit : FrameLimit) (run : List (List UInt8)) : Prop :=
  run.length ≤ Ts.maxChunksFor limit.bytes ∧ run.length ≤ Rust.maxChunksFor limit.bytes ∧
    ∀ message ∈ run.dropLast, 1024 ≤ (message.drop chunkHeaderBytes).length

/-- The sender cuts every frame, within bounds, and the receiver gives exactly
the frames back, each at the last message of its run. -/
def Sdk.RoundTrips (readers : Readers) (sender receiver : Sdk) (limit : FrameLimit)
    (ceiling : Nat) (frames : List Frame) : Prop :=
  ∃ runs, List.Forall₂ (fun frame run =>
      sender.encodeChunks readers frame ceiling limit = .ok run ∧ RunWithinBounds limit run)
      frames runs ∧
    receiver.Decodes readers limit runs.flatten (outcomesOf runs frames)

theorem runWithinBounds_chunkRun (hceiling : minMaxMessageBytes ≤ ceiling)
    (hbytes : 0 < bytes.length) (hlength : bytes.length ≤ limit.bytes) :
    RunWithinBounds limit (chunkRun bytes ceiling) := by
  have hmax := ceilDiv_le_maxChunks hceiling hlength
  have hcount : (chunkRun bytes ceiling).length =
      ceilDiv bytes.length (ceiling - chunkHeaderBytes) := by
    rw [chunkRun, length_map, length_range]
  refine ⟨?_, ?_, ?_⟩
  · rw [hcount]
    exact hmax
  · rw [hcount, Rust.maxChunksFor_eq]
    exact hmax
  · intro message hmessage
    rw [minMaxMessageBytes] at hceiling
    have hcapacity : 0 < ceiling - chunkHeaderBytes := by
      rw [chunkHeaderBytes]
      omega
    have hpayloads : (chunkRun bytes ceiling).map (·.drop chunkHeaderBytes) =
        slices (ceiling - chunkHeaderBytes)
          (ceilDiv bytes.length (ceiling - chunkHeaderBytes)) bytes := by
      rw [chunkRun, map_map]
      rfl
    have hmem : message.drop chunkHeaderBytes ∈ (slices (ceiling - chunkHeaderBytes)
        (ceilDiv bytes.length (ceiling - chunkHeaderBytes)) bytes).dropLast := by
      rw [← hpayloads, ← map_dropLast]
      exact mem_map_of_mem hmessage
    have hfull := capacity_le_of_mem_dropLast_slices
      (fun index hindex => mul_lt_of_lt_ceilDiv hcapacity hbytes hindex) _ hmem
    rw [chunkHeaderBytes] at hfull ⊢
    omega

theorem Sdk.Accepts.isFrame (h : sender.Accepts frame) :
    Ts.isFrame frame = true := by
  cases sender with
  | ts => exact h
  | rust => exact (Rust.validate_eq_ok.mp h.1).1

theorem Sdk.accepts_iff (receiver : Sdk) (h : sender.Accepts frame) :
    receiver.Accepts frame ↔ (receiver = .rust →
      ¬ Rust.RoleEndsInDash frame ∧ Rust.integersFit frame = true) := by
  cases receiver with
  | ts => simp [Accepts, h.isFrame]
  | rust => simp [Accepts, Rust.validate_eq_ok, h.isFrame]

theorem forall₂_iff_eq_map {α β : Type} {related : α → β → Prop} {image : α → β}
    {xs : List α} {ys : List β} (h : ∀ x ∈ xs, ∀ y, related x y ↔ y = image x) :
    List.Forall₂ related xs ys ↔ ys = xs.map image := by
  induction xs generalizing ys with
  | nil => simp
  | cons x xs ih =>
    have hrest := fun y hy => h y (mem_cons_of_mem x hy)
    cases ys with
    | nil => simp
    | cons y ys =>
      rw [forall₂_cons, h x mem_cons_self, ih hrest, map_cons, cons.injEq]

theorem Sdk.roundTrips_iff_decodeLine (receiver : Sdk) (hceiling : minMaxMessageBytes ≤ ceiling)
    (haccepts : ∀ frame ∈ frames, sender.Accepts frame)
    (hlength : ∀ frame ∈ frames, measureFrameBytes frame ≤ limit.bytes) :
    sender.RoundTrips readers receiver limit ceiling frames ↔
      ∀ frame ∈ frames, receiver.decodeLine readers limit frame.encodedBytes = .ok frame := by
  have hruns : ∀ frame ∈ frames, ∀ run,
      (sender.encodeChunks readers frame ceiling limit = .ok run ∧ RunWithinBounds limit run) ↔
        run = chunkRun frame.encodedBytes ceiling := by
    intro frame hframe run
    rw [encodeChunks_eq hceiling (haccepts frame hframe) (hlength frame hframe),
      Except.ok.injEq, eq_comm]
    refine and_iff_left_of_imp ?_
    intro heq
    rw [heq]
    exact runWithinBounds_chunkRun hceiling (encodedBytes_pos frame) (hlength frame hframe)
  rw [RoundTrips]
  simp [forall₂_iff_eq_map hruns, decodes_iff receiver hceiling hlength]

/-- A sequence of frames that the sender accepts round-trips exactly when the
receiver's JSON reader reads each of them back and, if the receiver is the Rust
SDK, none is a hello whose role ends in a dash and their integers fit. -/
theorem Sdk.roundTrips_iff {readers : Readers} {sender : Sdk} (receiver : Sdk)
    {limit : FrameLimit} {ceiling : Nat} {frames : List Frame}
    (hceiling : 2048 ≤ ceiling)
    (haccepts : ∀ frame ∈ frames, sender.Accepts frame)
    (hlength : ∀ frame ∈ frames, measureFrameBytes frame ≤ limit.bytes) :
    sender.RoundTrips readers receiver limit ceiling frames ↔
      ∀ frame ∈ frames, receiver.ReadsBack readers frame ∧
        (receiver = .rust → ¬ Rust.RoleEndsInDash frame ∧ Rust.integersFit frame = true) := by
  rw [roundTrips_iff_decodeLine receiver hceiling haccepts hlength]
  refine forall₂_congr fun frame hframe => ?_
  rw [decodeLine_encodedBytes receiver (hlength frame hframe),
    accepts_iff receiver (haccepts frame hframe)]

/-- Two pings from TypeScript to Rust. -/
theorem Sdk.roundTrips_pings :
    Sdk.ts.RoundTrips ⟨parseOnly .ping, runtimeOnly .ping⟩ .rust .least
      2048 [.ping, .ping] := by
  have hping : ∀ frame ∈ [Frame.ping, Frame.ping], frame = .ping := by simp
  refine (Sdk.roundTrips_iff .rust (Nat.le_refl _) ?_ ?_).mpr ?_
  · intro frame hframe
    rw [hping frame hframe]
    rfl
  · intro frame hframe
    rw [hping frame hframe]
    decide
  · intro frame hframe
    rw [hping frame hframe]
    exact ⟨by simp [ReadsBack, runtimeOnly], fun _ => ⟨id, rfl⟩⟩

/-- A hello whose role is `hub-`. -/
def dashRoleHello : Frame := .hello ⟨⟨1, 0⟩, ⟨"hub", "1.0.0", "hub-"⟩, [], none⟩

/-- The TypeScript SDK sends it, and the Rust SDK refuses what it sent. -/
theorem Sdk.not_roundTrips_dash_role :
    ¬ Sdk.ts.RoundTrips ⟨parseOnly dashRoleHello, runtimeOnly dashRoleHello⟩ .rust
      .least 2048 [dashRoleHello] := by
  have haccepts : ∀ frame ∈ [dashRoleHello], Sdk.ts.Accepts frame := by
    intro frame hframe
    rw [List.mem_singleton.mp hframe]
    show Ts.isFrame dashRoleHello = true
    decide
  have hlength : ∀ frame ∈ [dashRoleHello], measureFrameBytes frame ≤ FrameLimit.least.bytes := by
    intro frame hframe
    rw [List.mem_singleton.mp hframe]
    decide +kernel
  intro h
  have hread := (Sdk.roundTrips_iff_decodeLine .rust (Nat.le_refl _) haccepts hlength).mp h
    dashRoleHello List.mem_cons_self
  have haccepted := (Sdk.decodeLine_encodedBytes .rust
    (hlength dashRoleHello List.mem_cons_self)).mp hread
  have hrefuses : Rust.validate dashRoleHello = .ok () → False := by decide
  exact hrefuses haccepted.2.1

end MangoStudio.Protocol
