import MangoStudio.Lib.RecordStream
import MangoStudio.Protocol.Codec

/-!
# The NDJSON stream decoders

`LineDecoder` of `packages/protocol/src/codec/ndjson.ts` and of
`crates/mango-protocol/src/codec/ndjson.rs`: bytes arrive in pieces, and whole
frames come out, one for each line.

`Ts.LineDecoder` keeps a search offset so that it does not scan the same bytes
twice, checks a completed line, a partial line and the final record at three
places, and latches its refusal.  `Rust.LineDecoder` consumes its buffer by
index and drains it at the end of each call.  Both are the machine of
`RecordStream` under their own policy: `Ts.LineDecoder.push_spec` and
`Rust.LineDecoder.push_spec` say so for one call, `Ts.run_eq` and `Rust.run_eq`
for a whole stream in any pieces.

`CutInvariant` collects what follows for the pieces in which a stream arrives:
they change neither the frames nor the kind of the refusal, no frame before a
refusal is lost, and after it nothing is delivered.
-/

namespace MangoStudio.Protocol

open RecordStream List CodecError

/-- What one call of a decoder produced: frames, and the refusal that ended
the stream. -/
structure Outcome where
  frames : List Frame
  error : Option CodecError

/-! ## The TypeScript decoder -/

namespace Ts

/-- `indexOf` from an offset on. -/
def indexOf (bytes : List UInt8) (byte : UInt8) (start : Nat) : Option Nat :=
  ((bytes.drop start).idxOf? byte).map (start + ·)

theorem indexOf_lt {bytes : List UInt8} {byte : UInt8} {start n : Nat}
    (h : indexOf bytes byte start = some n) : n < bytes.length := by
  obtain ⟨k, hk, rfl⟩ := Option.map_eq_some_iff.mp h
  obtain ⟨hlt, -, -⟩ := idxOf?_eq_some_iff.mp hk
  rw [length_drop] at hlt
  omega

theorem indexOf_eq_idxOf? {bytes : List UInt8} {byte : UInt8} {start : Nat}
    (hsearched : byte ∉ bytes.take start) : indexOf bytes byte start = bytes.idxOf? byte := by
  have hnone : (bytes.take start).idxOf? byte = none := idxOf?_eq_none_iff.mpr hsearched
  have hwhole : bytes.idxOf? byte =
      ((bytes.drop start).idxOf? byte).map (· + (bytes.take start).length) := by
    conv_lhs => rw [← take_append_drop start bytes]
    rw [idxOf?, findIdx?_append, ← idxOf?, hnone, Option.none_or]
  rw [indexOf, hwhole]
  grind [drop_eq_nil_of_le]

/-- The decoder's state: the bytes of the record that has not ended, how many
of them hold no terminator, and the refusal once there is one. -/
structure LineDecoder where
  limit : FrameLimit
  pending : List UInt8 := []
  searched : Nat := 0
  refusal : Option CodecError := none

namespace LineDecoder

/-- Refuses a line past the limit and ends the stream. -/
def refuse (decoder : LineDecoder) (byteLength : Nat) (unterminated : Bool) :
    LineDecoder × CodecError :=
  let measured := if unterminated then "partial line is already" else "line is"
  let refusal : CodecError :=
    ⟨.tooLarge, s!"{measured} {byteLength} bytes; expected at most {decoder.limit.bytes}", none⟩
  (⟨decoder.limit, [], 0, some refusal⟩, refusal)

variable (parse : List Char → Except ParseFailure Frame)

/-- Decodes one record whose terminator is already stripped: a blank one gives
nothing.  The caller latches the refusal. -/
def consume (limit : FrameLimit) (content : List UInt8) : Except CodecError (Option Frame) :=
  if isBlankLine (Utf8.decodeLossy content) then .ok none
  else
    match decodeRecord parse (Utf8.decodeLossy content) content.length limit with
    | .error refusal => .error refusal
    | .ok frame => .ok (some frame)

/-- The loop of `drain`: one completed record a round, up to the first
refusal. -/
def drainLoop (decoder : LineDecoder) (frames : List Frame) : LineDecoder × Outcome :=
  match _hnewline : indexOf decoder.pending lineFeed decoder.searched with
  | none => (decoder, ⟨frames, none⟩)
  | some newline =>
    let content := stripCarriageReturn (decoder.pending.take newline)
    let rest : LineDecoder := ⟨decoder.limit, decoder.pending.drop (newline + 1), 0,
      decoder.refusal⟩
    if decoder.limit.bytes < content.length then
      ((rest.refuse content.length false).1, ⟨frames, some (rest.refuse content.length false).2⟩)
    else
      match consume parse decoder.limit content with
      | .error refusal => (⟨rest.limit, rest.pending, 0, some refusal⟩, ⟨frames, some refusal⟩)
      | .ok item => drainLoop rest (frames ++ item.toList)
  termination_by decoder.pending.length
  decreasing_by
    have hlt := indexOf_lt _hnewline
    show (decoder.pending.drop (newline + 1)).length < decoder.pending.length
    rw [List.length_drop]
    omega

/-- Decodes every completed record, then either the final one or the size of
the partial one. -/
def drain (decoder : LineDecoder) (final : Bool) : LineDecoder × Outcome :=
  match drainLoop parse decoder [] with
  | (drained, ⟨frames, some refusal⟩) => (drained, ⟨frames, some refusal⟩)
  | (drained, ⟨frames, none⟩) =>
    let content := stripCarriageReturn drained.pending
    if final then
      match consume parse drained.limit content with
      | .error refusal => (⟨drained.limit, [], 0, some refusal⟩, ⟨frames, some refusal⟩)
      | .ok item => (⟨drained.limit, [], 0, drained.refusal⟩, ⟨frames ++ item.toList, none⟩)
    else if drained.limit.bytes < content.length then
      ((drained.refuse content.length true).1,
        ⟨frames, some (drained.refuse content.length true).2⟩)
    else
      (⟨drained.limit, drained.pending, drained.pending.length, drained.refusal⟩, ⟨frames, none⟩)

/-- Feeds the next piece of the stream. -/
def push (decoder : LineDecoder) (chunk : List UInt8) : LineDecoder × Outcome :=
  match decoder.refusal with
  | some refusal => (decoder, ⟨[], some refusal⟩)
  | none =>
    drain parse ⟨decoder.limit, decoder.pending ++ chunk, decoder.searched, decoder.refusal⟩ false

/-- Ends the stream: a final record without a terminator is still decoded. -/
def finish (decoder : LineDecoder) : LineDecoder × Outcome :=
  match decoder.refusal with
  | some refusal => (decoder, ⟨[], some refusal⟩)
  | none => drain parse decoder true

end LineDecoder

end Ts

/-! ## The Rust decoder -/

namespace Rust

/-- The decoder's state: the buffered bytes and the refusal once there is
one. -/
structure LineDecoder where
  limit : FrameLimit
  buffer : List UInt8 := []
  failure : Option CodecError := none

namespace LineDecoder

variable (runtime : Runtime)

/-- The loop of `push`: one completed record a round from the index that is
consumed so far, up to the first refusal. -/
def pushLoop (limit : FrameLimit) (buffer : List UInt8) (consumed : Nat) (frames : List Frame) :
    Nat × Outcome :=
  match _hoffset : (buffer.drop consumed).idxOf? lineFeed with
  | none => (consumed, ⟨frames, none⟩)
  | some offset =>
    let line := (buffer.drop consumed).take offset
    let content := stripCarriageReturn line
    if limit.bytes < content.length then
      (consumed + offset + 1, ⟨frames, some (tooLarge content.length limit.bytes)⟩)
    else if isBlank content then pushLoop limit buffer (consumed + offset + 1) frames
    else
      match decodeLine runtime line limit.bytes with
      | .error error => (consumed + offset + 1, ⟨frames, some error⟩)
      | .ok frame => pushLoop limit buffer (consumed + offset + 1) (frames ++ [frame])
  termination_by buffer.length - consumed
  decreasing_by
    all_goals
      obtain ⟨hlt, -, -⟩ := List.idxOf?_eq_some_iff.mp _hoffset
      rw [List.length_drop] at hlt
      omega

/-- Feeds the next bytes off the transport. -/
def push (decoder : LineDecoder) (bytes : List UInt8) : LineDecoder × Outcome :=
  match decoder.failure with
  | some failure => (decoder, ⟨[], some failure⟩)
  | none =>
    let buffer := decoder.buffer ++ bytes
    match pushLoop runtime decoder.limit buffer 0 [] with
    | (_, ⟨frames, some failure⟩) => (⟨decoder.limit, [], some failure⟩, ⟨frames, some failure⟩)
    | (consumed, ⟨frames, none⟩) =>
      let held := (stripCarriageReturn (buffer.drop consumed)).length
      if decoder.limit.bytes < held then
        (⟨decoder.limit, [], some (tooLarge held decoder.limit.bytes)⟩,
          ⟨frames, some (tooLarge held decoder.limit.bytes)⟩)
      else (⟨decoder.limit, buffer.drop consumed, none⟩, ⟨frames, none⟩)

/-- Flushes a final record that arrived without a terminator. -/
def finish (decoder : LineDecoder) : LineDecoder × Outcome :=
  match decoder.failure with
  | some failure => (decoder, ⟨[], some failure⟩)
  | none =>
    if isBlank (stripCarriageReturn decoder.buffer) then
      (⟨decoder.limit, [], none⟩, ⟨[], none⟩)
    else
      match decodeLine runtime decoder.buffer decoder.limit.bytes with
      | .ok frame => (⟨decoder.limit, [], none⟩, ⟨[frame], none⟩)
      | .error error => (⟨decoder.limit, [], some error⟩, ⟨[], some error⟩)

end LineDecoder

end Rust

/-! ## The two policies -/

/-- A record that is over the limit before its terminator arrives. -/
def overflow (limit : FrameLimit) (held : List UInt8) : Option CodecErrorKind :=
  if limit.bytes < (stripCarriageReturn held).length then some .tooLarge else none

theorem overflow_nil (limit : FrameLimit) : overflow limit [] = none := by
  rw [overflow, if_neg]
  exact Nat.not_lt_zero _

variable {limit : FrameLimit}

theorem overflow_append {held more : List UInt8} {kind : CodecErrorKind}
    (h : overflow limit held = some kind) : overflow limit (held ++ more) = some kind := by
  rw [overflow] at h ⊢
  split_ifs at h with hlarge
  rw [if_pos (lt_of_lt_of_le hlarge (length_stripCarriageReturn_mono held more))]
  exact h

theorem overflow_eq_none {held : List UInt8} :
    overflow limit held = none ↔ (stripCarriageReturn held).length ≤ limit.bytes := by
  rw [overflow]
  split_ifs with h
  · simp only [false_iff]
    omega
  · simp only [true_iff]
    omega

/-- The verdict of a read record: a refusal keeps its kind only. -/
def verdictOf : Except CodecError (Option Frame) → Verdict Frame CodecErrorKind
  | .error refusal => .refuse refusal.kind
  | .ok none => .skip
  | .ok (some frame) => .item frame

/-- What becomes of a record: the size comes first, then the reading. -/
def verdict (limit : FrameLimit) (read : List UInt8 → Except CodecError (Option Frame))
    (record : List UInt8) : Verdict Frame CodecErrorKind :=
  if limit.bytes < (stripCarriageReturn record).length then .refuse .tooLarge
  else verdictOf (read record)

section

variable {read : List UInt8 → Except CodecError (Option Frame)} {record : List UInt8}

theorem verdict_of_read {result : Except CodecError (Option Frame)}
    (hwithin : ¬ limit.bytes < (stripCarriageReturn record).length) (hread : read record = result) :
    verdict limit read record = verdictOf result := by
  rw [verdict, if_neg hwithin, hread]

theorem settle_of_read {item : Option Frame}
    (hwithin : ¬ limit.bytes < (stripCarriageReturn record).length) (hread : read record = .ok item)
    : settle (verdict limit read record) = (.live ([] : List UInt8), item.toList) := by
  rw [verdict_of_read hwithin hread]
  cases item <;> rfl

end

/-- A line decoder's policy, for the way it reads a record within the limit. -/
def linePolicy (limit : FrameLimit) (read : List UInt8 → Except CodecError (Option Frame)) :
    Policy UInt8 Frame CodecErrorKind where
  terminator := lineFeed
  verdict := verdict limit read
  overflow := overflow limit
  overflow_nil := overflow_nil limit
  overflow_append := overflow_append
  verdict_of_overflow := by
    intro held kind h
    rw [overflow] at h
    split_ifs at h with hlarge
    cases h
    rw [verdict, if_pos hlarge]

/-- How the TypeScript decoder reads a record within the limit. -/
def Ts.readRecord (parse : List Char → Except ParseFailure Frame) (limit : FrameLimit)
    (record : List UInt8) : Except CodecError (Option Frame) :=
  LineDecoder.consume parse limit (stripCarriageReturn record)

/-- How the Rust decoder reads a record within the limit. -/
def Rust.readRecord (runtime : Runtime) (limit : FrameLimit) (record : List UInt8) :
    Except CodecError (Option Frame) :=
  if isBlank (stripCarriageReturn record) then .ok none
  else (decodeLine runtime record limit.bytes).map some

def Ts.policy (parse : List Char → Except ParseFailure Frame) (limit : FrameLimit) :
    Policy UInt8 Frame CodecErrorKind :=
  linePolicy limit (Ts.readRecord parse limit)

def Rust.policy (runtime : Runtime) (limit : FrameLimit) : Policy UInt8 Frame CodecErrorKind :=
  linePolicy limit (Rust.readRecord runtime limit)

/-! ## The TypeScript decoder is the machine -/

namespace Ts.LineDecoder

variable (parse : List Char → Except ParseFailure Frame)

/-- The machine's state that the decoder stands for. -/
def state (decoder : LineDecoder) : State UInt8 CodecErrorKind :=
  match decoder.refusal with
  | some refusal => .dead refusal.kind
  | none => .live decoder.pending

/-- Between two calls: what is pending holds no terminator and is within the
limit, and no more than it has been searched. -/
def Sound (decoder : LineDecoder) : Prop :=
  decoder.refusal = none →
    lineFeed ∉ decoder.pending ∧ overflow decoder.limit decoder.pending = none ∧
      decoder.searched ≤ decoder.pending.length

variable {decoder : LineDecoder}

theorem drainLoop_of_none (frames : List Frame)
    (h : indexOf decoder.pending lineFeed decoder.searched = none) :
    drainLoop parse decoder frames = (decoder, ⟨frames, none⟩) := by
  rw [drainLoop]
  split
  · rfl
  · rename_i hsome
    rw [h] at hsome
    cases hsome

theorem drainLoop_of_some (frames : List Frame) {newline : Nat}
    (h : indexOf decoder.pending lineFeed decoder.searched = some newline) :
    drainLoop parse decoder frames =
      let content := stripCarriageReturn (decoder.pending.take newline)
      let rest : LineDecoder := ⟨decoder.limit, decoder.pending.drop (newline + 1), 0,
        decoder.refusal⟩
      if decoder.limit.bytes < content.length then
        ((rest.refuse content.length false).1,
          ⟨frames, some (rest.refuse content.length false).2⟩)
      else
        match consume parse decoder.limit content with
        | .error refusal => (⟨rest.limit, rest.pending, 0, some refusal⟩, ⟨frames, some refusal⟩)
        | .ok item => drainLoop parse rest (frames ++ item.toList) := by
  rw [drainLoop]
  grind

theorem drainLoop_refusal (decoder : LineDecoder) (frames : List Frame)
    (hlive : decoder.refusal = none) :
    (drainLoop parse decoder frames).1.refusal = (drainLoop parse decoder frames).2.error := by
  induction hlength : decoder.pending.length using Nat.strong_induction_on
    generalizing decoder frames with
  | _ length ih =>
    cases hindex : indexOf decoder.pending lineFeed decoder.searched with
    | none =>
      rw [drainLoop_of_none parse frames hindex]
      exact hlive
    | some newline =>
      have hlt := indexOf_lt hindex
      rw [drainLoop_of_some parse frames hindex]
      simp only
      split_ifs
      · rfl
      · split
        · rfl
        · refine ih _ ?_ _ _ hlive rfl
          rw [length_drop]
          omega

/-- The loop settles every completed record: it ends with the bytes after the
last terminator, or with the refusal it latched. -/
theorem drainLoop_spec (decoder : LineDecoder) (frames : List Frame)
    (hsearched : lineFeed ∉ decoder.pending.take decoder.searched) :
    ∃ delivered, (drainLoop parse decoder frames).2.frames = frames ++ delivered ∧
      (policy parse decoder.limit).Settles decoder.pending
        (drainLoop parse decoder frames).1.pending delivered
        ((drainLoop parse decoder frames).2.error.map kind) ∧
      (drainLoop parse decoder frames).1.limit = decoder.limit := by
  -- on the number of pending bytes, since every round drops a record
  induction hlength : decoder.pending.length using Nat.strong_induction_on
    generalizing decoder frames with
  | _ length ih =>
    cases hindex : indexOf decoder.pending lineFeed decoder.searched with
    | none =>
      rw [drainLoop_of_none parse frames hindex]
      rw [indexOf_eq_idxOf? hsearched, idxOf?_eq_none_iff] at hindex
      exact ⟨[], by simp, (policy parse decoder.limit).settles_open hindex, rfl⟩
    | some newline =>
      have hlt := indexOf_lt hindex
      rw [drainLoop_of_some parse frames hindex]
      rw [indexOf_eq_idxOf? hsearched] at hindex
      simp only
      split_ifs with hlarge
      · have hsettles := (policy parse decoder.limit).settles_refuse [] hindex (if_pos hlarge)
        exact ⟨[], by simp, hsettles, rfl⟩
      · cases hread : readRecord parse decoder.limit (decoder.pending.take newline) with
        | error refusal =>
          have hsettles := (policy parse decoder.limit).settles_refuse
            (decoder.pending.drop (newline + 1)) hindex (verdict_of_read hlarge hread)
          rw [readRecord] at hread
          rw [hread]
          exact ⟨[], by simp, hsettles, rfl⟩
        | ok item =>
          have hshorter : (decoder.pending.drop (newline + 1)).length < length := by
            rw [length_drop]
            omega
          obtain ⟨delivered, hframes, hsettles, hlimit⟩ := ih _ hshorter
            ⟨decoder.limit, decoder.pending.drop (newline + 1), 0, decoder.refusal⟩
            (frames ++ item.toList) (by simp) rfl
          replace hsettles := (policy parse decoder.limit).settles_next hindex
            (settle_of_read hlarge hread) hsettles
          rw [readRecord] at hread
          rw [hread]
          refine ⟨item.toList ++ delivered, ?_, hsettles, hlimit⟩
          rw [hframes, append_assoc]

theorem state_of_live (h : decoder.refusal = none) :
    decoder.state = .live decoder.pending := by
  rw [state, h]

theorem state_of_refusal {refusal : CodecError}
    (h : decoder.refusal = some refusal) : decoder.state = .dead refusal.kind := by
  rw [state, h]

/-- One push: the decoder stays sound, goes where the machine goes, delivers
what the machine delivers, and reports the refusal it has latched. -/
theorem push_spec (hsound : decoder.Sound) (chunk : List UInt8) :
    (decoder.push parse chunk).1.Sound ∧ (decoder.push parse chunk).1.limit = decoder.limit ∧
      (decoder.push parse chunk).1.state =
        ((policy parse decoder.limit).feedAll decoder.state chunk).1 ∧
      (decoder.push parse chunk).2.frames =
        ((policy parse decoder.limit).feedAll decoder.state chunk).2 ∧
      (decoder.push parse chunk).2.error = (decoder.push parse chunk).1.refusal := by
  cases hlive : decoder.refusal with
  | some refusal =>
    simp only [push, hlive, state_of_refusal hlive, Policy.feedAll_dead, and_self, and_true]
    exact hsound
  | none =>
    obtain ⟨hfree, hwithin, hle⟩ := hsound hlive
    have hsearched : lineFeed ∉ (decoder.pending ++ chunk).take decoder.searched := by
      rw [take_append_of_le_length hle]
      exact fun h => hfree (mem_of_mem_take h)
    obtain ⟨delivered, hframes, hsettles, hlimit⟩ := drainLoop_spec parse
      ⟨decoder.limit, decoder.pending ++ chunk, decoder.searched, none⟩ [] hsearched
    have hrefusal := drainLoop_refusal parse
      ⟨decoder.limit, decoder.pending ++ chunk, decoder.searched, none⟩ [] rfl
    obtain ⟨hfed, hheld⟩ := hsettles.feedAll hfree hwithin
    simp only [push, hlive, drain, state_of_live hlive, hfed]
    rcases hloop : drainLoop parse
      ⟨decoder.limit, decoder.pending ++ chunk, decoder.searched, none⟩ [] with
      ⟨drained, ⟨frames, error⟩⟩
    rw [hloop] at hframes hheld hlimit hrefusal
    simp only [nil_append] at hframes hlimit hrefusal
    cases error with
    | some refusal =>
      refine ⟨?_, hlimit, state_of_refusal hrefusal, hframes, hrefusal.symm⟩
      intro hnone
      rw [hrefusal] at hnone
      cases hnone
    | none =>
      have hover : (policy parse decoder.limit).overflow drained.pending =
        if drained.limit.bytes < (stripCarriageReturn drained.pending).length then
          some .tooLarge else none := by
        rw [hlimit]
        rfl
      simp only [Option.map_none, Option.elim_none, Policy.hold, hover, ← hframes,
        Bool.false_eq_true, if_false]
      split_ifs with hlarge
      · refine ⟨?_, hlimit, rfl, rfl, rfl⟩
        intro hnone
        cases hnone
      · refine ⟨?_, hlimit, state_of_live hrefusal, rfl, hrefusal.symm⟩
        intro hnone
        exact ⟨hheld rfl, if_neg hlarge, Nat.le_refl _⟩

theorem finish_spec (hsound : decoder.Sound) :
    ((decoder.finish parse).2.frames, (decoder.finish parse).2.error.map kind) =
      (policy parse decoder.limit).observe true decoder.state := by
  cases hlive : decoder.refusal with
  | some refusal =>
    simp [finish, hlive, state_of_refusal hlive, Policy.observe]
  | none =>
    obtain ⟨hfree, hwithin, -⟩ := hsound hlive
    have hindex : indexOf decoder.pending lineFeed decoder.searched = none := by
      rw [indexOf_eq_idxOf? fun h => hfree (mem_of_mem_take h)]
      exact idxOf?_eq_none_iff.mpr hfree
    have hlarge : ¬ decoder.limit.bytes < (stripCarriageReturn decoder.pending).length :=
      Nat.not_lt.mpr (overflow_eq_none.mp hwithin)
    have hverdict : (policy parse decoder.limit).verdict decoder.pending =
        verdictOf (consume parse decoder.limit (stripCarriageReturn decoder.pending)) :=
      verdict_of_read hlarge rfl
    simp only [finish, hlive, drain, drainLoop_of_none parse [] hindex, if_true,
      state_of_live hlive, Policy.observe, hverdict, nil_append]
    cases hread : consume parse decoder.limit (stripCarriageReturn decoder.pending) with
    | error refusal => rfl
    | ok item => cases item <;> rfl

end Ts.LineDecoder

/-- The TypeScript decoder as a decoder of pieces. -/
def Ts.lineDecoder (parse : List Char → Except ParseFailure Frame) :
    Decoder LineDecoder UInt8 Frame CodecError where
  push decoder chunk :=
    ((decoder.push parse chunk).1, (decoder.push parse chunk).2.frames,
      (decoder.push parse chunk).2.error)
  finish decoder :=
    ((decoder.finish parse).1, (decoder.finish parse).2.frames, (decoder.finish parse).2.error)

theorem Ts.lineDecoder_follows (parse : List Char → Except ParseFailure Frame)
    (limit : FrameLimit) :
    (Ts.lineDecoder parse).Follows (Ts.policy parse limit) kind
      (fun decoder => decoder.Sound ∧ decoder.limit = limit) LineDecoder.state := by
  refine .of_latched LineDecoder.refusal (fun decoder => ?_) ?_ ?_
  · rw [LineDecoder.state]
    cases decoder.refusal <;> rfl
  · rintro decoder chunk ⟨hsound, rfl⟩
    obtain ⟨hsound', hlimit, hstate⟩ := LineDecoder.push_spec parse hsound chunk
    exact ⟨⟨hsound', hlimit⟩, hstate⟩
  · rintro decoder ⟨hsound, rfl⟩
    exact LineDecoder.finish_spec parse hsound

/-! ## The Rust decoder is the machine -/

namespace Rust.LineDecoder

variable (runtime : Runtime)

/-- The machine's state that the decoder stands for. -/
def state (decoder : LineDecoder) : State UInt8 CodecErrorKind :=
  match decoder.failure with
  | some failure => .dead failure.kind
  | none => .live decoder.buffer

/-- Between two calls: what is buffered holds no terminator and is within the
limit. -/
def Sound (decoder : LineDecoder) : Prop :=
  decoder.failure = none →
    lineFeed ∉ decoder.buffer ∧ overflow decoder.limit decoder.buffer = none

variable {decoder : LineDecoder}

theorem state_of_live (h : decoder.failure = none) :
    decoder.state = .live decoder.buffer := by
  rw [state, h]

theorem state_of_failure {failure : CodecError}
    (h : decoder.failure = some failure) : decoder.state = .dead failure.kind := by
  rw [state, h]

theorem pushLoop_of_none (limit : FrameLimit) {buffer : List UInt8} {consumed : Nat}
    (frames : List Frame) (h : (buffer.drop consumed).idxOf? lineFeed = none) :
    pushLoop runtime limit buffer consumed frames = (consumed, ⟨frames, none⟩) := by
  rw [pushLoop]
  split
  · rfl
  · rename_i hsome
    rw [h] at hsome
    cases hsome

theorem pushLoop_of_some (limit : FrameLimit) {buffer : List UInt8} {consumed offset : Nat}
    (frames : List Frame) (h : (buffer.drop consumed).idxOf? lineFeed = some offset) :
    pushLoop runtime limit buffer consumed frames =
      let line := (buffer.drop consumed).take offset
      if limit.bytes < (stripCarriageReturn line).length then
        (consumed + offset + 1,
          ⟨frames, some (tooLarge (stripCarriageReturn line).length limit.bytes)⟩)
      else
        match readRecord runtime limit line with
        | .error error => (consumed + offset + 1, ⟨frames, some error⟩)
        | .ok item =>
          pushLoop runtime limit buffer (consumed + offset + 1) (frames ++ item.toList) := by
  rw [pushLoop]
  split
  · rename_i hnone
    rw [h] at hnone
    cases hnone
  · rename_i other hother
    rw [h] at hother
    cases hother
    simp only [readRecord]
    split_ifs with hlarge hblank
    · rfl
    · simp
    · cases decodeLine runtime ((buffer.drop consumed).take offset) limit.bytes <;> rfl

theorem pushLoop_spec (limit : FrameLimit) (buffer : List UInt8) (consumed : Nat)
    (frames : List Frame) :
    ∃ delivered, (pushLoop runtime limit buffer consumed frames).2.frames = frames ++ delivered ∧
      (policy runtime limit).Settles (buffer.drop consumed)
        (buffer.drop (pushLoop runtime limit buffer consumed frames).1) delivered
        ((pushLoop runtime limit buffer consumed frames).2.error.map kind) := by
  -- on the number of bytes that are not consumed
  induction hlength : (buffer.drop consumed).length using Nat.strong_induction_on
    generalizing consumed frames with
  | _ length ih =>
    cases hindex : (buffer.drop consumed).idxOf? lineFeed with
    | none =>
      rw [pushLoop_of_none runtime limit frames hindex]
      rw [idxOf?_eq_none_iff] at hindex
      exact ⟨[], by simp, (policy runtime limit).settles_open hindex⟩
    | some offset =>
      rw [pushLoop_of_some runtime limit frames hindex]
      obtain ⟨hlt, -, -⟩ := idxOf?_eq_some_iff.mp hindex
      have hrest : (buffer.drop consumed).drop (offset + 1) =
          buffer.drop (consumed + offset + 1) := by
        rw [drop_drop, Nat.add_assoc]
      simp only
      split_ifs with hlarge
      · have hsettles := (policy runtime limit).settles_refuse
          (buffer.drop (consumed + offset + 1)) hindex (if_pos hlarge)
        exact ⟨[], by simp, hsettles⟩
      · cases hread : readRecord runtime limit ((buffer.drop consumed).take offset) with
        | error error =>
          have hsettles := (policy runtime limit).settles_refuse
            (buffer.drop (consumed + offset + 1)) hindex (verdict_of_read hlarge hread)
          exact ⟨[], by simp, hsettles⟩
        | ok item =>
          have hshorter : (buffer.drop (consumed + offset + 1)).length < length := by
            rw [← hrest, length_drop]
            omega
          obtain ⟨delivered, hframes, hsettles⟩ := ih _ hshorter (consumed + offset + 1)
            (frames ++ item.toList) rfl
          rw [← hrest] at hsettles
          refine ⟨item.toList ++ delivered, ?_, (policy runtime limit).settles_next hindex
            (settle_of_read hlarge hread) hsettles⟩
          rw [hframes, append_assoc]

theorem push_spec (hsound : decoder.Sound) (bytes : List UInt8) :
    (decoder.push runtime bytes).1.Sound ∧ (decoder.push runtime bytes).1.limit = decoder.limit ∧
      (decoder.push runtime bytes).1.state =
        ((policy runtime decoder.limit).feedAll decoder.state bytes).1 ∧
      (decoder.push runtime bytes).2.frames =
        ((policy runtime decoder.limit).feedAll decoder.state bytes).2 ∧
      (decoder.push runtime bytes).2.error = (decoder.push runtime bytes).1.failure := by
  cases hlive : decoder.failure with
  | some failure =>
    simp only [push, hlive, state_of_failure hlive, Policy.feedAll_dead, and_self, and_true]
    exact hsound
  | none =>
    obtain ⟨hfree, hwithin⟩ := hsound hlive
    obtain ⟨delivered, hframes, hsettles⟩ := pushLoop_spec runtime decoder.limit
      (decoder.buffer ++ bytes) 0 []
    rw [drop_zero] at hsettles
    obtain ⟨hfed, hheld⟩ := hsettles.feedAll hfree hwithin
    simp only [push, hlive, state_of_live hlive, hfed]
    rcases hloop : pushLoop runtime decoder.limit (decoder.buffer ++ bytes) 0 [] with
      ⟨consumed, ⟨frames, error⟩⟩
    rw [hloop] at hframes hheld
    simp only [nil_append] at hframes
    cases error with
    | some failure =>
      refine ⟨?_, rfl, rfl, hframes, rfl⟩
      intro hnone
      cases hnone
    | none =>
      have hover : (policy runtime decoder.limit).overflow
          ((decoder.buffer ++ bytes).drop consumed) =
        if decoder.limit.bytes <
            (stripCarriageReturn ((decoder.buffer ++ bytes).drop consumed)).length then
          some .tooLarge else none := rfl
      simp only [Option.map_none, Option.elim_none, Policy.hold, hover, ← hframes]
      split_ifs with hlarge
      · refine ⟨?_, rfl, rfl, rfl, rfl⟩
        intro hnone
        cases hnone
      · refine ⟨?_, rfl, rfl, rfl, rfl⟩
        intro hnone
        exact ⟨hheld rfl, if_neg hlarge⟩

theorem finish_spec (hsound : decoder.Sound) :
    ((decoder.finish runtime).2.frames, (decoder.finish runtime).2.error.map kind) =
      (policy runtime decoder.limit).observe true decoder.state := by
  cases hlive : decoder.failure with
  | some failure =>
    simp [finish, hlive, state_of_failure hlive, Policy.observe]
  | none =>
    obtain ⟨-, hwithin⟩ := hsound hlive
    have hlarge : ¬ decoder.limit.bytes < (stripCarriageReturn decoder.buffer).length :=
      Nat.not_lt.mpr (overflow_eq_none.mp hwithin)
    have hverdict : (policy runtime decoder.limit).verdict decoder.buffer =
        verdictOf (readRecord runtime decoder.limit decoder.buffer) :=
      verdict_of_read hlarge rfl
    simp only [finish, hlive, state_of_live hlive, Policy.observe, hverdict, readRecord, if_true]
    split_ifs with hblank
    · rfl
    · cases decodeLine runtime decoder.buffer decoder.limit.bytes <;> rfl

end Rust.LineDecoder

/-- The Rust decoder as a decoder of pieces. -/
def Rust.lineDecoder (runtime : Runtime) : Decoder LineDecoder UInt8 Frame CodecError where
  push decoder bytes :=
    ((decoder.push runtime bytes).1, (decoder.push runtime bytes).2.frames,
      (decoder.push runtime bytes).2.error)
  finish decoder :=
    ((decoder.finish runtime).1, (decoder.finish runtime).2.frames,
      (decoder.finish runtime).2.error)

theorem Rust.lineDecoder_follows (runtime : Runtime) (limit : FrameLimit) :
    (Rust.lineDecoder runtime).Follows (Rust.policy runtime limit) kind
      (fun decoder => decoder.Sound ∧ decoder.limit = limit) LineDecoder.state := by
  refine .of_latched LineDecoder.failure (fun decoder => ?_) ?_ ?_
  · rw [LineDecoder.state]
    cases decoder.failure <;> rfl
  · rintro decoder bytes ⟨hsound, rfl⟩
    obtain ⟨hsound', hlimit, hstate⟩ := LineDecoder.push_spec runtime hsound bytes
    exact ⟨⟨hsound', hlimit⟩, hstate⟩
  · rintro decoder ⟨hsound, rfl⟩
    exact LineDecoder.finish_spec runtime hsound

/-! ## The cut does not matter -/

section

variable {δ : Type} (decoder : Decoder δ UInt8 Frame CodecError) (fresh : δ)
  (policy : Policy UInt8 Frame CodecErrorKind) (refused : δ → Option CodecError)

/-- The same bytes give the same frames and the same kind of refusal, however
they are cut. -/
def IgnoresCut : Prop :=
  ∀ (ended : Bool) (pieces pieces' : List (List UInt8)), pieces.flatten = pieces'.flatten →
    (decoder.run ended fresh pieces).1 = (decoder.run ended fresh pieces').1 ∧
      (decoder.run ended fresh pieces).2.map CodecError.kind =
        (decoder.run ended fresh pieces').2.map CodecError.kind

/-- Every frame before the first refused line is delivered, and the refusal is
that line's: a line with its terminator, or the last one, which has none. -/
def KeepsFrames : Prop :=
  ∀ (ended : Bool) (pieces lines : List (List UInt8)) (bad : List UInt8) (kind : CodecErrorKind),
    (∀ line ∈ lines, lineFeed ∉ line) → lineFeed ∉ bad →
    (∀ line ∈ lines, ∀ k, policy.verdict line ≠ .refuse k) →
    ((∃ rest, policy.verdict bad = .refuse kind ∧
        pieces.flatten = (lines.map (· ++ [lineFeed])).flatten ++ (bad ++ lineFeed :: rest)) ∨
      policy.lastVerdict ended bad = .refuse kind ∧
        pieces.flatten = (lines.map (· ++ [lineFeed])).flatten ++ bad) →
    (decoder.run ended fresh pieces).1 =
        lines.filterMap (fun line => (policy.verdict line).item?) ∧
      (decoder.run ended fresh pieces).2.map CodecError.kind = some kind

/-- What a stream decoder owes its caller, whatever the pieces.  A refusal is
latched by the call that reports it, and after it every call repeats it and
delivers nothing. -/
structure CutInvariant : Prop where
  cut : IgnoresCut decoder fresh
  kept : KeepsFrames decoder fresh policy
  latched : ∀ state piece error, (decoder.push state piece).2.2 = some error →
    refused (decoder.push state piece).1 = some error
  latchedFinish : ∀ state error, (decoder.finish state).2.2 = some error →
    refused (decoder.finish state).1 = some error
  silent : ∀ state error, refused state = some error →
    (∀ piece, decoder.push state piece = (state, [], some error)) ∧
      decoder.finish state = (state, [], some error)

end

section

variable {δ : Type} {decoder : Decoder δ UInt8 Frame CodecError} {fresh : δ}
  {policy : Policy UInt8 Frame CodecErrorKind}
  (hrun : ∀ ended pieces, ((decoder.run ended fresh pieces).1,
    (decoder.run ended fresh pieces).2.map kind) =
      policy.decodeRecords ended (pieces.flatten.splitOn policy.terminator))

include hrun

theorem ignoresCut_of_run_eq : IgnoresCut decoder fresh := by
  intro ended pieces pieces' hflatten
  have hfirst := hrun ended pieces
  rw [hflatten, ← hrun ended pieces'] at hfirst
  exact Prod.ext_iff.mp hfirst

theorem keepsFrames_of_run_eq (hterm : policy.terminator = lineFeed) :
    KeepsFrames decoder fresh policy := by
  intro ended pieces lines bad kind hlines hbad hkept hrefused
  grind [Policy.splitOn_terminated, splitOn_append_cons_self_of_not_mem,
      Policy.decodeRecords_refuse, splitOn_ne_nil, splitOn_eq_singleton, Policy.decodeRecords_refuse_last, Policy.decodeRecords_append]

end

/-- A fresh TypeScript decoder. -/
def Ts.LineDecoder.new (limit : FrameLimit) : LineDecoder := ⟨limit, [], 0, none⟩

/-- A fresh Rust decoder. -/
def Rust.LineDecoder.new (limit : FrameLimit) : LineDecoder := ⟨limit, [], none⟩

variable (parse : List Char → Except Ts.ParseFailure Frame) (runtime : Rust.Runtime)
  (limit : FrameLimit) (ended : Bool) (pieces : List (List UInt8))

theorem Ts.run_eq :
    (((Ts.lineDecoder parse).run ended (.new limit) pieces).1,
        ((Ts.lineDecoder parse).run ended (.new limit) pieces).2.map kind) =
      (Ts.policy parse limit).decodeRecords ended (pieces.flatten.splitOn lineFeed) := by
  have hsound : (LineDecoder.new limit).Sound := fun _ =>
    ⟨not_mem_nil, overflow_nil limit, Nat.le_refl _⟩
  exact (Ts.lineDecoder_follows parse limit).run_eq ended ⟨hsound, rfl⟩ rfl pieces

theorem Rust.run_eq :
    (((Rust.lineDecoder runtime).run ended (.new limit) pieces).1,
        ((Rust.lineDecoder runtime).run ended (.new limit) pieces).2.map kind) =
      (Rust.policy runtime limit).decodeRecords ended (pieces.flatten.splitOn lineFeed) := by
  have hsound : (LineDecoder.new limit).Sound := fun _ => ⟨not_mem_nil, overflow_nil limit⟩
  exact (Rust.lineDecoder_follows runtime limit).run_eq ended ⟨hsound, rfl⟩ rfl pieces

theorem Ts.LineDecoder.drain_refusal (decoder : LineDecoder) (final : Bool)
    (hlive : decoder.refusal = none) :
    (decoder.drain parse final).1.refusal = (decoder.drain parse final).2.error := by
  have hloop := drainLoop_refusal parse decoder [] hlive
  rw [drain]
  split
  · rename_i drained frames refusal h
    rw [h] at hloop
    exact hloop
  · rename_i drained frames h
    rw [h] at hloop
    simp only
    split_ifs
    · split
      · rfl
      · exact hloop
    · rfl
    · exact hloop

theorem Ts.lineDecoder_cutInvariant :
    CutInvariant (Ts.lineDecoder parse) (.new limit) (Ts.policy parse limit)
      LineDecoder.refusal where
  cut := ignoresCut_of_run_eq (Ts.run_eq parse limit)
  kept := keepsFrames_of_run_eq (Ts.run_eq parse limit) rfl
  latched := by
    intro decoder chunk error herror
    simp only [lineDecoder, LineDecoder.push] at herror ⊢
    cases hlive : decoder.refusal with
    | some refusal =>
      rw [hlive] at herror
      exact hlive.trans herror
    | none =>
      rw [hlive] at herror
      rw [← herror]
      exact LineDecoder.drain_refusal parse _ false rfl
  latchedFinish := by
    intro decoder error herror
    simp only [lineDecoder, LineDecoder.finish] at herror ⊢
    cases hlive : decoder.refusal with
    | some refusal =>
      rw [hlive] at herror
      exact hlive.trans herror
    | none =>
      rw [hlive] at herror
      rw [← herror]
      exact LineDecoder.drain_refusal parse decoder true hlive
  silent := by
    intro decoder error hrefused
    simp [lineDecoder, LineDecoder.push, LineDecoder.finish, hrefused]

theorem Rust.lineDecoder_cutInvariant :
    CutInvariant (Rust.lineDecoder runtime) (.new limit) (Rust.policy runtime limit)
      LineDecoder.failure where
  cut := ignoresCut_of_run_eq (Rust.run_eq runtime limit)
  kept := keepsFrames_of_run_eq (Rust.run_eq runtime limit) rfl
  latched := by
    intro decoder bytes error herror
    simp only [lineDecoder, LineDecoder.push] at herror ⊢
    cases hlive : decoder.failure with
    | some failure =>
      rw [hlive] at herror
      exact hlive.trans herror
    | none =>
      rw [hlive] at herror
      simp only at herror ⊢
      split at herror
      · exact herror
      · split_ifs at herror ⊢
        exact herror
  latchedFinish := by
    intro decoder error herror
    simp only [lineDecoder, LineDecoder.finish] at herror ⊢
    cases hlive : decoder.failure with
    | some failure =>
      rw [hlive] at herror
      exact hlive.trans herror
    | none =>
      rw [hlive] at herror
      simp only at herror ⊢
      split_ifs at herror ⊢
      split at herror
      · cases herror
      · exact herror
  silent := by
    intro decoder error hrefused
    simp [lineDecoder, LineDecoder.push, LineDecoder.finish, hrefused]

/-- Both decoders deliver the same for every cut of a stream, lose no frame
before a refusal, and are silent after it. -/
theorem lineDecoders_cutInvariant (parse : List Char → Except Ts.ParseFailure Frame)
    (runtime : Rust.Runtime) (limit : FrameLimit) :
    CutInvariant (Ts.lineDecoder parse) (.new limit) (Ts.policy parse limit)
        Ts.LineDecoder.refusal ∧
      CutInvariant (Rust.lineDecoder runtime) (.new limit) (Rust.policy runtime limit)
        Rust.LineDecoder.failure :=
  ⟨Ts.lineDecoder_cutInvariant parse limit, Rust.lineDecoder_cutInvariant runtime limit⟩

end MangoStudio.Protocol
