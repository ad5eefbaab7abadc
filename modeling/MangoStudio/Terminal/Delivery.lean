import Mathlib
import MangoStudio.Terminal.Flow

/-!
# What a call publishes to its viewer

The frames of one viewer's time, beside the bytes the shell wrote in it.

* A frame is read as the bytes it stands for, an announced loss as that many
  unknown bytes (`OutputFrame.reading`).
* While a viewer is attached to a running shell, what it has been shown, what
  has been lost since the last announcement and what is queued make up the
  bytes since its attach (`Accounts`).  Every frame of a drain keeps this, and
  the credit in flight bounds what was sent beyond what was acknowledged
  (`Serves`).
* The exit announces what is left, so that the frames then read as all the bytes
  (`Serves.announceLost`, `Closing.announceExit`).
-/

namespace MangoStudio.Terminal

open List

/-! ## Reading frames -/

/-- The bytes a frame stands for; an unknown byte is `none`. -/
def OutputFrame.reading (frame : OutputFrame) : List (Option UInt8) :=
  match frame.payload with
  | .data bytes => bytes.map some
  | .dropped bytes => List.replicate bytes none
  | .exit .. => []

/-- The number of data bytes of a frame. -/
def OutputFrame.dataBytes (frame : OutputFrame) : Nat :=
  match frame.payload with
  | .data bytes => bytes.length
  | .dropped _ => 0
  | .exit .. => 0

/-- What a list of frames reads as. -/
def reading (frames : List Answered) : List (Option UInt8) :=
  frames.flatMap (fun answered => answered.frame.reading)

/-- The data bytes of a list of frames. -/
def dataBytes (frames : List Answered) : Nat :=
  (frames.map (fun answered => answered.frame.dataBytes)).sum

/-- A known byte agrees with itself only, an unknown one with every byte. -/
def Agrees (read : Option UInt8) (byte : UInt8) : Prop := ∀ known ∈ read, known = byte

/-- The frames read as the bytes. -/
def ReadsAs (frames : List Answered) (bytes : List UInt8) : Prop :=
  List.Forall₂ Agrees (reading frames) bytes

theorem readsAs_nil : ReadsAs [] [] := List.Forall₂.nil

theorem ReadsAs.append {frames next : List Answered} {bytes more : List UInt8}
    (hfirst : ReadsAs frames bytes) (hnext : ReadsAs next more) :
    ReadsAs (frames ++ next) (bytes ++ more) := by
  unfold ReadsAs reading
  rw [flatMap_append]
  exact rel_append hfirst hnext

theorem readsAs_data (bytes : List UInt8) (accepted : Bool) :
    ReadsAs [⟨.data bytes, accepted⟩] bytes := by
  show List.Forall₂ Agrees (bytes.map some ++ []) bytes
  rw [append_nil, forall₂_map_left_iff, forall₂_same]
  intro byte _ known hknown
  exact (Option.some.inj hknown).symm

theorem readsAs_dropped (bytes : List UInt8) (accepted : Bool) :
    ReadsAs [⟨.dropped bytes.length, accepted⟩] bytes := by
  show List.Forall₂ Agrees (replicate bytes.length none ++ []) bytes
  rw [append_nil]
  induction bytes with
  | nil => exact .nil
  | cons byte bytes ih =>
    refine .cons ?_ ih
    intro known hknown
    cases hknown

theorem readsAs_exit (exitCode : Option Int) (signal : Option String) (consentRevoked : Bool)
    (accepted : Bool) : ReadsAs [⟨.exit exitCode signal consentRevoked, accepted⟩] [] :=
  List.Forall₂.nil

theorem dataBytes_append (frames next : List Answered) :
    dataBytes (frames ++ next) = dataBytes frames + dataBytes next := by
  rw [dataBytes, map_append, sum_append]
  rfl

/-! ## A viewer's time -/

/-- One viewer's time at the terminal. -/
structure Viewer where
  /-- The bytes received before the attach. -/
  before : List UInt8
  /-- The scrollback the attach returned. -/
  scrollback : List UInt8
  /-- The bytes received since the attach. -/
  received : List UInt8
  /-- The bytes acknowledged since the attach. -/
  acked : Nat
  /-- The frames published to the viewer, with their answers. -/
  frames : List Answered
  /-- The shell exited while the viewer was attached. -/
  sawExit : Bool

/-! ## Where a call stands -/

/-- What was shown, what was lost unannounced and what is queued make up the bytes. -/
def Accounts (received : List UInt8) (frames : List Answered) (pending : ByteRing) : Prop :=
  ∃ shown lost, received = shown ++ (lost ++ pending.items) ∧ lost.length = pending.dropped ∧
    ReadsAs frames shown

/-- The frames read as a prefix of the bytes. -/
def ReadsPrefix (received : List UInt8) (frames : List Answered) : Prop :=
  ∃ shown, shown <+: received ∧ ReadsAs frames shown

/-- A data frame has a chunk's size. -/
def Sized (frame : OutputFrame) : Prop :=
  ∀ bytes, frame.payload = .data bytes → 1 ≤ bytes.length ∧ bytes.length ≤ chunkMaxBytes

/-- Somebody refused one of the frames. -/
def Refused (frames : List Answered) : Prop := ∃ answered ∈ frames, answered.accepted = false

variable {frames : List Answered}

section

variable {received : List UInt8} {pending : ByteRing} (haccounts : Accounts received frames pending)

include haccounts

theorem Accounts.readsPrefix : ReadsPrefix received frames := by
  obtain ⟨shown, lost, hreceived, -, hreads⟩ := haccounts
  exact ⟨shown, hreceived ▸ prefix_append _ _, hreads⟩

theorem Accounts.push (bytes : List UInt8) :
    Accounts (received ++ bytes) frames (pending.push bytes) := by
  obtain ⟨shown, lost, hreceived, hlost, hreads⟩ := haccounts
  obtain ⟨cut, hcut, hdropped⟩ := pending.push_spec bytes
  refine ⟨shown, lost ++ cut, ?_, ?_, hreads⟩
  · grind
  · rw [length_append, hdropped, hlost]

end

/-- Where a call stands that began with the viewer's frames so far. -/
structure Serves (viewer : Viewer) (call : Call) : Prop where
  accounts : call.flow.attached = true →
    Accounts viewer.received (viewer.frames ++ call.sent) call.flow.pending
  reads : ReadsPrefix viewer.received (viewer.frames ++ call.sent)
  credit : viewer.scrollback.length + dataBytes (viewer.frames ++ call.sent) ≤
    call.flow.inflight + viewer.acked
  window : call.flow.inflight ≤ inflightWindowBytes
  gone : call.flow.attached = false → Refused (viewer.frames ++ call.sent)
  sized : ∀ answered ∈ call.sent, Sized answered.frame
  open_ : ∀ answered ∈ call.sent, answered.frame.ends = false

namespace Serves

variable {viewer : Viewer} {call : Call} {answer : Nat → Bool}

theorem begin {flow : TerminalFlow} (hattached : flow.attached = true)
    (haccounts : Accounts viewer.received viewer.frames flow.pending)
    (hcredit : viewer.scrollback.length + dataBytes viewer.frames ≤ flow.inflight + viewer.acked)
    (hwindow : flow.inflight ≤ inflightWindowBytes) : Serves viewer flow.call := by
  have hframes : viewer.frames ++ flow.call.sent = viewer.frames := append_nil _
  constructor
  case accounts => exact fun _ => hframes.symm ▸ haccounts
  case reads => exact hframes.symm ▸ haccounts.readsPrefix
  case credit => exact hframes.symm ▸ hcredit
  case window => exact hwindow
  case gone => exact fun hgone => absurd (hattached.symm.trans hgone) nofun
  case sized => exact fun _ hmem => absurd hmem not_mem_nil
  case open_ => exact fun _ hmem => absurd hmem not_mem_nil

theorem emit {frame : OutputFrame}
    (haccounts : ∀ accepted, Accounts viewer.received
      (viewer.frames ++ call.sent ++ [⟨frame, accepted⟩]) call.flow.pending)
    (hcredit : viewer.scrollback.length + dataBytes (viewer.frames ++ call.sent) +
      frame.dataBytes ≤ call.flow.inflight + viewer.acked)
    (hwindow : call.flow.inflight ≤ inflightWindowBytes)
    (hattached : call.flow.attached = true)
    (hsized : ∀ answered ∈ call.sent, Sized answered.frame) (hframe : Sized frame)
    (hopen : ∀ answered ∈ call.sent, answered.frame.ends = false) (hends : frame.ends = false) :
    Serves viewer (call.emit answer frame) := by
  have hframes : viewer.frames ++ (call.emit answer frame).sent =
      viewer.frames ++ call.sent ++ [⟨frame, answer call.sent.length⟩] :=
    (append_assoc ..).symm
  have hall : ∀ P : OutputFrame → Prop, (∀ answered ∈ call.sent, P answered.frame) → P frame →
      ∀ answered ∈ (call.emit answer frame).sent, P answered.frame := by
    intro P hsent hnew answered hmem
    rcases mem_append.1 hmem with hold | hlast
    · exact hsent answered hold
    · obtain rfl := mem_singleton.1 hlast
      exact hnew
  constructor
  case accounts =>
    intro hstays
    have haccepted : answer call.sent.length = true := by
      rw [Call.emit_attached, Bool.and_eq_true] at hstays
      exact hstays.2
    rw [hframes, Call.emit, if_pos haccepted]
    exact haccounts _
  case reads =>
    rw [hframes]
    exact (haccounts _).readsPrefix
  case credit =>
    have hlast : dataBytes [⟨frame, answer call.sent.length⟩] = frame.dataBytes := by
      simp [dataBytes]
    rw [hframes, Call.emit_inflight, dataBytes_append, hlast]
    omega
  case window =>
    rw [Call.emit_inflight]
    exact hwindow
  case gone =>
    intro hgone
    have hrefused : answer call.sent.length = false := by
      rw [Call.emit_attached, hattached, Bool.true_and] at hgone
      exact hgone
    rw [hframes]
    exact ⟨⟨frame, answer call.sent.length⟩, mem_concat_self, hrefused⟩
  case sized => exact hall _ hsized hframe
  case open_ => exact hall (·.ends = false) hopen hends

theorem drainTurn (hserves : Serves viewer call) (hsending : call.flow.sending = true)
    (hdropped : call.flow.pending.dropped = 0) : Serves viewer (call.drainTurn answer) := by
  simp only [TerminalFlow.sending, Bool.and_eq_true, decide_eq_true_eq, Bool.not_eq_true',
    isEmpty_eq_false_iff] at hsending
  obtain ⟨⟨hattached, hroom⟩, hqueue⟩ := hsending
  obtain ⟨shown, lost, hreceived, hlost, hreads⟩ := hserves.accounts hattached
  obtain rfl : lost = [] := eq_nil_of_length_eq_zero (hlost.trans hdropped)
  have hcredit := hserves.credit
  have hpos := length_pos_iff.2 hqueue
  have hchunkMax : 0 < chunkMaxBytes := by decide
  apply emit
  case haccounts =>
    intro accepted
    refine ⟨shown ++ call.flow.nextChunk.1, [], ?_, hdropped.symm, hreads.append (readsAs_data _ _)⟩
    show viewer.received = shown ++ call.flow.pending.items.take _ ++
      ([] ++ call.flow.pending.items.drop _)
    rw [hreceived, append_assoc, nil_append, nil_append, take_append_drop]
  case hcredit =>
    show _ + call.flow.nextChunk.1.length ≤ call.flow.inflight + call.flow.nextChunk.1.length + _
    show viewer.scrollback.length + dataBytes (viewer.frames ++ call.sent) + _ ≤ _
    omega
  case hwindow =>
    show call.flow.inflight + (call.flow.pending.items.take _).length ≤ inflightWindowBytes
    rw [length_take]
    omega
  case hattached => exact hattached
  case hsized => exact hserves.sized
  case hframe =>
    intro bytes hbytes
    obtain rfl : call.flow.pending.items.take
        (min chunkMaxBytes (inflightWindowBytes - call.flow.inflight)) = bytes :=
      OutputPayload.data.inj hbytes
    rw [length_take]
    omega
  case hopen => exact hserves.open_
  case hends => rfl

theorem drainTurn_dropped (hdropped : call.flow.pending.dropped = 0) :
    (call.drainTurn answer).flow.pending.dropped = 0 := by
  unfold Call.drainTurn Call.emit
  dsimp only
  split_ifs
  · exact hdropped
  · rfl

theorem drainLoop (turns : Nat) (hserves : Serves viewer call)
    (hdropped : call.flow.pending.dropped = 0) :
    Serves viewer (call.drainLoop answer turns) := by
  induction turns generalizing call with
  | zero => exact hserves
  | succ turns ih =>
    rw [Call.drainLoop]
    grind [drainTurn, drainTurn_dropped]

theorem lossTaken_of_zero (hdropped : call.flow.pending.dropped = 0) : call.lossTaken = call := by
  unfold Call.lossTaken RingBuffer.takeDropped
  dsimp only
  rw [← hdropped]

theorem announce (hserves : Serves viewer call) (hattached : call.flow.attached = true) :
    Serves viewer (call.announce answer) := by
  unfold Call.announce
  dsimp only
  split_ifs with hloss
  · obtain ⟨shown, lost, hreceived, hlost, hreads⟩ := hserves.accounts hattached
    apply emit
    case haccounts =>
      intro accepted
      refine ⟨shown ++ lost, [], ?_, rfl, hreads.append ?_⟩
      · rw [hreceived, nil_append, append_assoc]
        rfl
      · show ReadsAs [⟨.dropped call.flow.pending.dropped, accepted⟩] lost
        rw [← hlost]
        exact readsAs_dropped lost accepted
    case hcredit => exact hserves.credit
    case hwindow => exact hserves.window
    case hattached => exact hattached
    case hsized => exact hserves.sized
    case hframe => exact fun bytes hbytes => by cases hbytes
    case hopen => exact hserves.open_
    case hends => rfl
  · rw [lossTaken_of_zero (Nat.eq_zero_of_not_pos hloss)]
    exact hserves

theorem announce_dropped : (call.announce answer).flow.pending.dropped = 0 := by
  unfold Call.announce Call.emit
  dsimp only
  split_ifs <;> rfl

theorem drain (hserves : Serves viewer call) (hattached : call.flow.attached = true) :
    Serves viewer (call.drain answer) := by
  unfold Call.drain
  split_ifs
  · exact hserves
  · exact (hserves.announce hattached).drainLoop _ announce_dropped

end Serves

/-! ## The exit -/

/-- Nothing follows a frame that ends the stream. -/
def EndsOnce (frames : List Answered) : Prop :=
  ∀ first answered rest, frames = first ++ answered :: rest → answered.frame.ends = true →
    rest = []

theorem endsOnce_of_open
    (hopen : ∀ answered ∈ frames, answered.frame.ends = false) : EndsOnce frames := by
  intro first answered rest hframes hends
  have := hopen answered (by rw [hframes]; exact mem_append_right _ mem_cons_self)
  rw [hends] at this
  cases this

theorem endsOnce_concat (answered : Answered)
    (hopen : ∀ answered ∈ frames, answered.frame.ends = false) :
    EndsOnce (frames ++ [answered]) := by
  intro first ending rest hframes hends
  rcases eq_nil_or_concat rest with rfl | ⟨init, last, rfl⟩
  all_goals grind [append_inj']

theorem EndsOnce.append {frames next : List Answered}
    (hopen : ∀ answered ∈ frames, answered.frame.ends = false) (hnext : EndsOnce next) :
    EndsOnce (frames ++ next) := by
  intro first answered rest hframes hends
  rcases append_eq_append_iff.1 hframes with ⟨mid, hmid, hrest⟩ | ⟨mid, hmid, hrest⟩
  · exact hnext mid answered rest hrest hends
  · cases mid with
    | nil => exact hnext [] answered rest hrest.symm hends
    | cons head mid =>
      grind

/-- What holds of a viewer's frames once a call is over. -/
structure Outcome (viewer : Viewer) (sent : List Answered) : Prop where
  reads : ReadsPrefix viewer.received (viewer.frames ++ sent)
  credit : viewer.scrollback.length + dataBytes (viewer.frames ++ sent) ≤
    inflightWindowBytes + viewer.acked
  sized : ∀ answered ∈ sent, Sized answered.frame

variable {viewer : Viewer} {call : Call}

theorem Serves.outcome (hserves : Serves viewer call) :
    Outcome viewer call.sent := by
  refine ⟨hserves.reads, ?_, hserves.sized⟩
  have hcredit := hserves.credit
  have hwindow := hserves.window
  omega

theorem Outcome.concat {sent : List Answered} (houtcome : Outcome viewer sent) {answered : Answered}
    (hreads : ReadsPrefix viewer.received (viewer.frames ++ (sent ++ [answered])))
    (hnoData : ∀ bytes, answered.frame.payload ≠ .data bytes) :
    Outcome viewer (sent ++ [answered]) := by
  have hzero : answered.frame.dataBytes = 0 := by
    grind [OutputFrame.dataBytes]
  refine ⟨hreads, ?_, ?_⟩
  · grind [dataBytes, cases Outcome]
  · intro other hmem
    rcases mem_append.1 hmem with hold | hlast
    · exact houtcome.sized other hold
    · obtain rfl := mem_singleton.1 hlast
      exact fun bytes hbytes => absurd hbytes (hnoData bytes)

/-- Where a call stands once the exit's loss is announced. -/
structure Closing (viewer : Viewer) (call : Call) : Prop where
  outcome : Outcome viewer call.sent
  settled : ReadsAs (viewer.frames ++ call.sent) viewer.received ∨
    Refused (viewer.frames ++ call.sent) ∧ call.flow.attached = false
  open_ : ∀ answered ∈ call.sent, answered.frame.ends = false

theorem Serves.announceLost {answer : Nat → Bool}
    (hserves : Serves viewer call) : Closing viewer (call.announceLost answer) := by
  unfold Call.announceLost
  dsimp only
  split_ifs with hloss
  · obtain ⟨shown, lost, hreceived, hlost, hreads⟩ := hserves.accounts hloss.2
    have hall : ∀ accepted, ReadsAs (viewer.frames ++ (call.sent ++ [⟨.dropped
        (call.flow.pending.items.length + call.flow.pending.dropped), accepted⟩]))
        viewer.received := by
      intro accepted
      have hlength : call.flow.pending.items.length + call.flow.pending.dropped =
          (lost ++ call.flow.pending.items).length := by
        rw [length_append, hlost, Nat.add_comm]
      rw [← append_assoc, hreceived, hlength]
      exact hreads.append (readsAs_dropped _ accepted)
    refine ⟨?_, .inl (hall _), ?_⟩
    · exact hserves.outcome.concat ⟨_, prefix_rfl, hall _⟩ (fun bytes h => by cases h)
    · intro answered hmem
      rcases mem_append.1 hmem with hold | hlast
      · exact hserves.open_ answered hold
      · obtain rfl := mem_singleton.1 hlast
        rfl
  · refine ⟨hserves.outcome, ?_, hserves.open_⟩
    cases hattached : call.flow.attached with
    | false => exact .inr ⟨hserves.gone hattached, hattached⟩
    | true =>
      obtain ⟨shown, lost, hreceived, hlost, hreads⟩ := hserves.accounts hattached
      have hnone : call.flow.pending.items.length + call.flow.pending.dropped = 0 := by
        have : ¬ 0 < call.flow.pending.items.length + call.flow.pending.dropped :=
          fun h => hloss ⟨h, hattached⟩
        omega
      have hempty : lost ++ call.flow.pending.items = [] := by
        apply eq_nil_of_length_eq_zero
        rw [length_append]
        omega
      left
      rw [hreceived, hempty, append_nil]
      exact hreads

theorem Closing.announceExit {answer : Nat → Bool} (hclosing : Closing viewer call)
    (exit : ExitInfo) (consentRevoked : Bool) :
    let told := call.announceExit answer exit consentRevoked
    Outcome viewer told.sent ∧ EndsOnce told.sent ∧
      (ReadsAs (viewer.frames ++ told.sent) viewer.received ∨
        Refused (viewer.frames ++ told.sent)) := by
  unfold Call.announceExit
  split_ifs with hattached
  · have hfull : ∀ accepted, ReadsAs (viewer.frames ++ (call.sent ++
        [⟨.exit exit.exitCode exit.signal consentRevoked, accepted⟩])) viewer.received := by
      intro accepted
      rcases hclosing.settled with hreads | ⟨-, hgone⟩
      · rw [← append_assoc, ← append_nil viewer.received]
        exact hreads.append (readsAs_exit _ _ _ _)
      · rw [hattached] at hgone
        cases hgone
    refine ⟨?_, endsOnce_concat _ hclosing.open_, .inl (hfull _)⟩
    exact hclosing.outcome.concat ⟨_, prefix_rfl, hfull _⟩ (fun bytes h => by cases h)
  · exact ⟨hclosing.outcome, endsOnce_of_open hclosing.open_,
      hclosing.settled.imp_right And.left⟩

end MangoStudio.Terminal
