import MangoStudio.Protocol.Chunk

/-!
# Where the two chunk reassemblers part

Over a whole sequence of messages, the two reassemblers take the same messages
by the framing rules and complete the same lines; their states stay inside the
bounds; a refusal leaves the initial state.  They part only where the line
codecs do: on a completed line that the TypeScript codec reads and the Rust
codec does not (`PartsCodecs`).  `reassemblersAgree_iff` is the exact statement,
for messages on whose lines the two JSON readers agree.

It goes through `events`, the receiver of the specification on a sequence of
messages, and `Implements.results_events`, which says that an implementation's
results are those events with the completed lines decoded.
-/

namespace MangoStudio.Protocol

open Assembly

/-! ## Events -/

/-- What a message comes to, before its line is decoded. -/
inductive ChunkEvent where
  | refused
  | more
  | line (bytes : List UInt8)
  deriving DecidableEq

/-- The completed line, if there is one. -/
def ChunkEvent.line? : ChunkEvent → Option (List UInt8)
  | .line bytes => some bytes
  | _ => none

/-- One message: the next run, and the event.  A refusal ends the run. -/
def eventOf {limit : FrameLimit} (run : ChunkRun limit) (message : List UInt8) :
    ChunkRun limit × ChunkEvent :=
  match receive run message with
  | none => (none, .refused)
  | some (next, none) => (next, .more)
  | some (next, some bytes) => (next, .line bytes)

/-- The events of a sequence of messages. -/
def events {limit : FrameLimit} (run : ChunkRun limit) : List (List UInt8) → List ChunkEvent
  | [] => []
  | message :: rest => (eventOf run message).2 :: events (eventOf run message).1 rest

/-- The run that is open after a sequence of messages. -/
def runAfter {limit : FrameLimit} (run : ChunkRun limit) : List (List UInt8) → ChunkRun limit
  | [] => run
  | message :: rest => runAfter (eventOf run message).1 rest

/-- A result is an event with its line decoded. -/
def ResultOf (decode : List UInt8 → Except CodecError Frame) :
    ChunkEvent → Except CodecError (Option Frame) → Prop
  | .refused, result => ∃ error, result = .error error
  | .more, result => result = .ok none
  | .line bytes, result => result = (decode bytes).map some

variable {limit : FrameLimit} {run : ChunkRun limit}

theorem length_le_of_eventOf {message bytes : List UInt8}
    (h : (eventOf run message).2 = .line bytes) :
    bytes.length ≤ limit.bytes := by
  by_cases hfits : Admissible run message
  · by_cases hlast : readUint32 message 1 + 1 = readUint32 message 5
    · rw [eventOf, receive_last hfits hlast] at h
      cases h
      rw [List.length_append]
      exact hfits.fits.length_le
    · rw [eventOf, receive_more hfits hlast] at h
      cases h
  · rw [eventOf, receive_refused hfits] at h
    cases h

theorem length_le_of_mem_events {messages : List (List UInt8)} {bytes : List UInt8}
    (run : ChunkRun limit) (h : .line bytes ∈ events run messages) :
    bytes.length ≤ limit.bytes := by
  induction messages generalizing run with
  | nil => cases h
  | cons message rest ih =>
    rcases List.mem_cons.mp h with heq | hmem
    · exact length_le_of_eventOf heq.symm
    · exact ih _ hmem

namespace Reassembler.Implements

variable {σ : Type} {reassembler : Reassembler σ} {limit : FrameLimit}
  {decode : List UInt8 → Except CodecError Frame} {represents : σ → ChunkRun limit → Prop}
  {fresh : σ}

variable {run : ChunkRun limit} {state : σ}

section

variable (h : reassembler.Implements limit decode represents fresh) (hrep : represents state run)

include h hrep

theorem push_eventOf (message : List UInt8) :
    represents (reassembler.push state message).1 (eventOf run message).1 ∧
      ResultOf decode (eventOf run message).2 (reassembler.push state message).2 ∧
      reassembler.completes state message = (eventOf run message).2.line? := by
  by_cases hfits : Admissible run message
  · by_cases hlast : readUint32 message 1 + 1 = readUint32 message 5
    · obtain ⟨hpush, hline⟩ := h.last hrep hfits hlast
      rw [eventOf, receive_last hfits hlast, hpush, hline]
      exact ⟨h.idle, rfl, rfl⟩
    · obtain ⟨⟨next, hpush, hnext⟩, hline⟩ := h.more hrep hfits hlast
      rw [eventOf, receive_more hfits hlast, hpush, hline]
      exact ⟨hnext, rfl, rfl⟩
  · obtain ⟨⟨error, hpush⟩, hline⟩ := h.refused hrep hfits
    rw [eventOf, receive_refused hfits, hpush, hline]
    exact ⟨h.idle, ⟨error, rfl⟩, rfl⟩

theorem fresh_of_error {message : List UInt8} {error : CodecError}
    (herror : (reassembler.push state message).2 = .error error) :
    (reassembler.push state message).1 = fresh := by
  by_cases hfits : Admissible run message
  · grind [cases Implements]
  · obtain ⟨⟨error', hpush⟩, -⟩ := h.refused hrep hfits
    rw [hpush]

theorem represents_after (messages : List (List UInt8)) :
    represents (reassembler.after state messages) (runAfter run messages) := by
  induction messages generalizing state run with
  | nil => exact hrep
  | cons message rest ih => exact ih (h.push_eventOf hrep message).1

theorem results_events (messages : List (List UInt8)) :
    List.Forall₂ (ResultOf decode) (events run messages) (reassembler.results state messages) := by
  induction messages generalizing state run with
  | nil => exact .nil
  | cons message rest ih =>
    obtain ⟨hnext, hresult, -⟩ := h.push_eventOf hrep message
    exact .cons hresult (ih hnext)

theorem lines_events (messages : List (List UInt8)) :
    reassembler.lines state messages = (events run messages).map ChunkEvent.line? := by
  induction messages generalizing state run with
  | nil => rfl
  | cons message rest ih =>
    obtain ⟨hnext, -, hline⟩ := h.push_eventOf hrep message
    rw [lines, events, List.map_cons, hline, ih hnext]

end

end Reassembler.Implements

/-! ## Equivalence -/

/-- The message was not refused, given what decoding a line comes to. -/
def ChunkEvent.accepted (decode : List UInt8 → Except CodecError Frame) : ChunkEvent → Bool
  | .refused => false
  | .more => true
  | .line bytes => (decode bytes).isOk

variable {decode : List UInt8 → Except CodecError Frame}

theorem isOk_of_resultOf {event : ChunkEvent} {result : Except CodecError (Option Frame)}
    (h : ResultOf decode event result) :
    result.isOk = event.accepted decode := by
  cases event with
  | refused =>
    obtain ⟨error, rfl⟩ := h
    rfl
  | more =>
    cases h
    rfl
  | line bytes =>
    rw [ResultOf] at h
    rw [h, ChunkEvent.accepted]
    cases decode bytes <;> rfl

theorem map_isOk_of_forall₂ {trace : List ChunkEvent}
    {results : List (Except CodecError (Option Frame))}
    (h : List.Forall₂ (ResultOf decode) trace results) :
    results.map Except.isOk = trace.map (ChunkEvent.accepted decode) := by
  induction h with
  | nil => rfl
  | cons hresult _ ih => rw [List.map_cons, List.map_cons, isOk_of_resultOf hresult, ih]

theorem map_accepted_eq_iff (decode decode' : List UInt8 → Except CodecError Frame)
    (trace : List ChunkEvent) :
    trace.map (ChunkEvent.accepted decode) = trace.map (ChunkEvent.accepted decode') ↔
      ∀ bytes, .line bytes ∈ trace → (decode bytes).isOk = (decode' bytes).isOk := by
  rw [List.map_inj_left]
  constructor
  · intro h bytes hbytes
    exact h _ hbytes
  · intro h event hevent
    cases event with
    | refused | more => rfl
    | line bytes => exact h bytes hevent

/-- The bounds on a TypeScript reassembler's state. -/
structure Ts.ChunkReassembler.Bounded (limit : FrameLimit) (state : ChunkReassembler) :
    Prop where
  buffered : state.parts.flatten.length ≤ limit.bytes
  opened : state.count ≠ 0 →
    state.expectedIndex < state.count ∧ state.count ≤ (limit.bytes + 1023) / 1024
  filled : 1024 * state.expectedIndex ≤ state.parts.flatten.length

/-- The bounds on a Rust reassembler's state. -/
structure Rust.ChunkReassembler.Bounded (limit : FrameLimit) (state : ChunkReassembler) :
    Prop where
  buffered : state.buffer.length ≤ limit.bytes
  opened : ∀ count, state.count = some count →
    state.nextIndex < count ∧ count ≤ (limit.bytes + 1023) / 1024
  filled : 1024 * state.nextIndex ≤ state.buffer.length

theorem length_held_le (run : ChunkRun limit) :
    (held run).length ≤ limit.bytes := by
  cases run with
  | none => exact Nat.zero_le _
  | some opened => exact opened.length_le

theorem Ts.ChunkReassembler.Represents.bounded {state : ChunkReassembler}
    (h : Represents state run) : Bounded limit state where
  buffered := by
    rw [h.parts]
    exact length_held_le run
  opened := by
    intro hcount
    rw [h.count] at hcount ⊢
    rw [h.index]
    cases run with
    | none => exact absurd rfl hcount
    | some opened => exact ⟨opened.next_lt, opened.count_le⟩
  filled := by
    rw [h.parts, h.index]
    exact floor_mul_expected_le run

theorem Rust.ChunkReassembler.Represents.bounded {state : ChunkReassembler}
    (h : Represents state run) : Bounded limit state where
  buffered := by
    rw [h.buffer]
    exact length_held_le run
  opened := by
    intro count hcount
    rw [h.count] at hcount
    rw [h.index]
    cases run with
    | none => cases hcount
    | some opened =>
      cases hcount
      exact ⟨opened.next_lt, opened.count_le⟩
  filled := by
    rw [h.buffer, h.index]
    exact floor_mul_expected_le run

/-- A machine's states stay inside `bounded` and every refusal leaves
`fresh`, along a sequence of messages. -/
structure StaysBounded {σ : Type} (reassembler : Reassembler σ) (fresh : σ) (bounded : σ → Prop)
    (messages : List (List UInt8)) : Prop where
  bounded : ∀ n, bounded (reassembler.after fresh (messages.take n))
  resets : ∀ n message error, messages[n]? = some message →
    (reassembler.push (reassembler.after fresh (messages.take n)) message).2 = .error error →
    (reassembler.push (reassembler.after fresh (messages.take n)) message).1 = fresh

theorem Reassembler.Implements.staysBounded {σ : Type} {reassembler : Reassembler σ}
    {represents : σ → ChunkRun limit → Prop} {fresh : σ} {bounded : σ → Prop}
    (h : reassembler.Implements limit decode represents fresh)
    (hbounded : ∀ {state run}, represents state run → bounded state)
    (messages : List (List UInt8)) : StaysBounded reassembler fresh bounded messages where
  bounded _ := hbounded (h.represents_after h.idle _)
  resets _ _ _ _ herror := h.fresh_of_error (h.represents_after h.idle _) herror

section

variable (parse : List Char → Except Ts.ParseFailure Frame) (runtime : Rust.Runtime)

/-- Along a sequence of messages the two reassemblers accept the same messages
and complete the same lines, and each stays inside its bounds. -/
structure ReassemblersAgree (limit : FrameLimit) (messages : List (List UInt8)) : Prop where
  accepted : ((Ts.reassembler parse).results (.new limit) messages).map Except.isOk =
    ((Rust.reassembler runtime).results (.new limit) messages).map Except.isOk
  lines : (Ts.reassembler parse).lines (.new limit) messages =
    (Rust.reassembler runtime).lines (.new limit) messages
  ts : StaysBounded (Ts.reassembler parse) (.new limit) (Ts.ChunkReassembler.Bounded limit) messages
  rust : StaysBounded (Rust.reassembler runtime) (.new limit) (Rust.ChunkReassembler.Bounded limit)
    messages

/-- The line, with a replacement character for what is not UTF-8, reads as a
frame, and it is not UTF-8, or a hello whose role ends in a dash, or a frame with
an integer that does not fit its Rust field. -/
def PartsCodecs (line : List UInt8) : Prop :=
  ∃ frame, Ts.Reads parse (Utf8.decodeLossy (stripCarriageReturn line)) frame ∧
    (¬ WellFormed (stripCarriageReturn line) ∨ Rust.RoleEndsInDash frame ∨
      Rust.integersFit frame = false)

end

section

variable {parse : List Char → Except Ts.ParseFailure Frame} {runtime : Rust.Runtime}

theorem isOk_iff {α : Type} {result : Except CodecError α} :
    result.isOk = true ↔ ∃ value, result = .ok value := by
  cases result <;> simp [Except.isOk, Except.toBool]

variable {limit : FrameLimit} {line : List UInt8}

section

variable (hagree : ReadersAgreeAt parse runtime (stripCarriageReturn line))
  (hlength : line.length ≤ limit.bytes)

include hagree hlength

theorem Ts.isOk_decodeLine :
    (Ts.decodeLine parse line limit).isOk = true ↔
      ∃ frame, Ts.Reads parse (Utf8.decodeLossy (stripCarriageReturn line)) frame := by
  have hstrip := le_trans (length_stripCarriageReturn_le line) hlength
  simp only [isOk_iff, Ts.decodeLine_eq_ok, hstrip, true_and]
  exact exists_congr fun frame => and_iff_right_of_imp fun h => h.not_blank hagree

theorem Rust.isOk_decodeLine :
    (Rust.decodeLine runtime.typed line limit.bytes).isOk = true ↔
      ∃ frame, Rust.Reads runtime (stripCarriageReturn line) frame ∧
        Rust.integersFit frame = true := by
  have hstrip := le_trans (length_stripCarriageReturn_le line) hlength
  simp only [isOk_iff, Rust.decodeLine_eq_ok, hstrip, true_and, Rust.reads_typed]
  refine exists_congr fun frame => and_iff_right_of_imp fun h => ?_
  rw [Bool.eq_false_iff]
  intro hblank
  have hnot := (h.1.lossy hagree).not_blank hagree
  rw [isBlankLine_of_isBlank hblank] at hnot
  cases hnot

theorem isOk_decodeLine_eq_iff :
    (Ts.decodeLine parse line limit).isOk =
        (Rust.decodeLine runtime.typed line limit.bytes).isOk ↔
      ¬ PartsCodecs parse line := by
  rw [Bool.eq_iff_iff, Ts.isOk_decodeLine hagree hlength, Rust.isOk_decodeLine hagree hlength]
  constructor
  · rintro h ⟨frame, hreads, hparts⟩
    obtain ⟨other, hother, hfit⟩ := h.mp ⟨frame, hreads⟩
    obtain rfl : frame = other :=
      Except.ok.inj (hreads.1.symm.trans (hother.lossy hagree).1)
    obtain ⟨hwell, hdash⟩ := (Rust.reads_iff_of_lossy hagree hreads).mp hother
    rcases hparts with hill | hdashed | hunfit
    · exact hill hwell
    · exact hdash hdashed
    · exact Bool.false_ne_true (hunfit.symm.trans hfit)
  · intro hnot
    constructor
    · rintro ⟨frame, hreads⟩
      refine ⟨frame, (Rust.reads_iff_of_lossy hagree hreads).mpr ⟨?_, ?_⟩, ?_⟩
      · exact not_not.mp fun hill => hnot ⟨frame, hreads, .inl hill⟩
      · exact fun hdash => hnot ⟨frame, hreads, .inr (.inl hdash)⟩
      · exact Bool.eq_true_of_not_eq_false fun hunfit => hnot ⟨frame, hreads, .inr (.inr hunfit)⟩
    · rintro ⟨frame, hreads, -⟩
      exact ⟨frame, hreads.lossy hagree⟩

end

/-- The reassemblers agree on a sequence of messages exactly when no line that
it completes parts the line codecs, if the JSON readers agree on these lines. -/
theorem reassemblersAgree_iff {limit : FrameLimit} {messages : List (List UInt8)}
    (hagree : ∀ line, .line line ∈ events (none : ChunkRun limit) messages →
      ReadersAgreeAt parse runtime (stripCarriageReturn line)) :
    ReassemblersAgree parse runtime.typed limit messages ↔
      ∀ line, .line line ∈ events (none : ChunkRun limit) messages → ¬ PartsCodecs parse line := by
  have hts := Ts.reassembler_implements parse limit
  have hrust := Rust.reassembler_implements runtime.typed limit
  have haccepted : ((Ts.reassembler parse).results (.new limit) messages).map Except.isOk =
        ((Rust.reassembler runtime.typed).results (.new limit) messages).map Except.isOk ↔
      ∀ line, .line line ∈ events (none : ChunkRun limit) messages →
        ¬ PartsCodecs parse line := by
    rw [map_isOk_of_forall₂ (hts.results_events hts.idle messages),
      map_isOk_of_forall₂ (hrust.results_events hrust.idle messages), map_accepted_eq_iff]
    exact forall_congr' fun line => forall_congr' fun hline =>
      isOk_decodeLine_eq_iff (hagree line hline) (length_le_of_mem_events none hline)
  constructor
  · intro h
    exact haccepted.mp h.accepted
  · intro h
    exact ⟨haccepted.mpr h,
      (hts.lines_events hts.idle messages).trans (hrust.lines_events hrust.idle messages).symm,
      hts.staysBounded (fun hrep => hrep.bounded) messages,
      hrust.staysBounded (fun hrep => hrep.bounded) messages⟩

end

/-- A ping in one chunk, taken by both reassemblers. -/
theorem reassemblersAgree_on_ping :
    ReassemblersAgree (parseOnly .ping) (runtimeOnly .ping).typed .least
      [chunkMessage 0 1 Frame.ping.encodedBytes] := by
  have hevents : events (none : ChunkRun .least)
      [chunkMessage 0 1 Frame.ping.encodedBytes] = [.line Frame.ping.encodedBytes] := by
    decide
  refine (reassemblersAgree_iff fun _ _ => (readersAgree_only .ping).at _).mpr ?_
  intro line hline
  rw [hevents, List.mem_singleton, ChunkEvent.line.injEq] at hline
  have hstrip : stripCarriageReturn line = Frame.ping.encodedBytes := by
    rw [hline]
    decide
  rintro ⟨frame, hreads, hparts⟩
  rw [hstrip] at hreads hparts
  have hping : frame = .ping := by
    have hparse := hreads.1
    rw [parseOnly] at hparse
    split_ifs at hparse
    exact (Except.ok.inj hparse).symm
  rw [hping] at hparts
  rcases hparts with hill | hdash | hunfit
  · exact hill ⟨Frame.ping.text, rfl⟩
  · exact hdash
  · cases hunfit

/-- A cancel whose id is the replacement character. -/
def replacedCancel : Frame := .cancel ⟨String.ofList [Utf8.replacement]⟩

/-- The line of a cancel whose id is the one byte `0xFF`, which is not UTF-8. -/
def illFormedCancelLine : List UInt8 :=
  Utf8.encode "\x7b\"type\":\"cancel\",\"id\":\"".toList ++ [0xFF] ++
    Utf8.encode "\"\x7d".toList

/-- The TypeScript reassembler accepts that line as the cancel of the
replacement character; the Rust reassembler refuses it. -/
theorem reassemblers_disagree_ill_formed :
    ¬ ReassemblersAgree (parseOnly replacedCancel) (runtimeOnly replacedCancel).typed
      .least [chunkMessage 0 1 illFormedCancelLine] := by
  intro h
  have hts : ((Ts.reassembler (parseOnly replacedCancel)).results
      (.new .least) [chunkMessage 0 1 illFormedCancelLine]).map
        Except.isOk = [true] := by
    decide
  have hrust : ((Rust.reassembler (runtimeOnly replacedCancel).typed).results
      (.new .least) [chunkMessage 0 1 illFormedCancelLine]).map
        Except.isOk = [false] := by
    decide
  have haccepted := h.accepted
  rw [hts, hrust] at haccepted
  cases haccepted

end MangoStudio.Protocol
