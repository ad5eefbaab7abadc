import MangoStudio.Lib.RingBuffer

/-!
# Terminal output under a viewer's credit

The state of one terminal of the runtime: a scrollback ring, a ring of output
that waits for the viewer, and the count of bytes the viewer has not
acknowledged.

* A call that may publish takes the answers of `emit` as a function: `answer k`
  is what the call's `k`-th frame is answered with.  A refused frame means that
  the viewer is gone.
* A call returns the flow it leaves and the frames it published, each with its
  answer (`Call`).
* The data of a frame is its bytes; on the wire they are Base64.
* Byte counters are natural numbers, and the subtraction of an acknowledgement
  is truncated as in the code.
* Login terminals, which have a clock and their own ceilings, are not part of
  the model: the flow here is one whose `login` is absent.
-/

namespace MangoStudio.Terminal

/-- Maximum raw bytes in one terminal output event. -/
def chunkMaxBytes : Nat := 8 * 1024

/-- Maximum unacknowledged bytes sent to a viewer. -/
def inflightWindowBytes : Nat := 256 * 1024

/-- Maximum bytes retained for a slow viewer. -/
def pendingMaxBytes : Nat := 1024 * 1024

/-- Maximum scrollback bytes retained for a reconnecting viewer. -/
def scrollbackMaxBytes : Nat := 256 * 1024

/-- Why a shell was stopped, where the exit frame says so. -/
inductive ExitReason where
  | consentRevoked
  deriving DecidableEq, Repr

/-- The payload of an output event. -/
inductive OutputPayload where
  | data (bytes : List UInt8)
  | dropped (bytes : Nat)
  | exit (exitCode : Option Int) (signal : Option String) (reason : Option ExitReason)
  deriving DecidableEq, Repr

/-- A terminal output payload and the flag that ends the stream. -/
structure OutputFrame where
  payload : OutputPayload
  ends : Bool
  deriving DecidableEq, Repr

namespace OutputFrame

def data (bytes : List UInt8) : OutputFrame := ⟨.data bytes, false⟩

def dropped (bytes : Nat) : OutputFrame := ⟨.dropped bytes, false⟩

def exit (exitCode : Option Int) (signal : Option String) (consentRevoked : Bool) : OutputFrame :=
  ⟨.exit exitCode signal (if consentRevoked then some .consentRevoked else none), true⟩

end OutputFrame

/-- A bounded byte queue that discards its oldest bytes when full. -/
abbrev ByteRing := RingBuffer UInt8

/-- A queue with a positive capacity. -/
def ByteRing.new (capacity : Nat) : Except String ByteRing :=
  if h : 0 < capacity then .ok (RingBuffer.empty capacity h)
  else .error ("ByteRing capacity " ++ toString capacity ++
    " is invalid; expected a positive byte count.")

/-- The exit of the shell's process. -/
structure ExitInfo where
  exitCode : Option Int
  signal : Option String
  deriving DecidableEq, Repr

/-- What an attach returns. -/
structure AttachState where
  scrollback : List UInt8
  exited : Bool
  exit : Option ExitInfo
  deriving DecidableEq, Repr

/-- One terminal's scrollback, pending output, and viewer credit. -/
structure TerminalFlow where
  scrollback : ByteRing
  pending : ByteRing
  inflight : Nat
  attached : Bool
  exit : Option ExitInfo

/-- A published frame with the answer of `emit`. -/
structure Answered where
  frame : OutputFrame
  accepted : Bool
  deriving DecidableEq, Repr

/-- Where a call stands: the flow and what it has published so far. -/
structure Call where
  flow : TerminalFlow
  sent : List Answered

namespace TerminalFlow

/-- A fresh flow; the scrollback is clamped to the wire's ceiling. -/
def new (scrollbackBytes : Nat) : Except String TerminalFlow := do
  let scrollback ← ByteRing.new (min scrollbackBytes scrollbackMaxBytes)
  let pending ← ByteRing.new pendingMaxBytes
  return { scrollback, pending, inflight := 0, attached := false, exit := none }

/-- Removes a viewer that refused a frame. -/
def viewerGone (flow : TerminalFlow) : TerminalFlow :=
  { flow with attached := false, pending := flow.pending.clear }

/-- Replays the retained tail and charges it to a fresh viewer's window. -/
def attach (flow : TerminalFlow) : AttachState × TerminalFlow :=
  let scrollback := flow.scrollback.items
  ({ scrollback, exited := flow.exit.isSome, exit := flow.exit },
    { flow with pending := flow.pending.clear, attached := true, inflight := scrollback.length })

/-- Removes the viewer without closing the shell. -/
def detach (flow : TerminalFlow) : TerminalFlow :=
  { flow with attached := false, pending := flow.pending.clear }

/-- Whether the loop of `drain` takes another turn. -/
def sending (flow : TerminalFlow) : Bool :=
  flow.attached && decide (flow.inflight < inflightWindowBytes) && !flow.pending.items.isEmpty

/-- Takes the next chunk off the queue and charges it. -/
def nextChunk (flow : TerminalFlow) : List UInt8 × TerminalFlow :=
  let room := inflightWindowBytes - flow.inflight
  let (chunk, pending) := flow.pending.take (min chunkMaxBytes room)
  (chunk, { flow with pending, inflight := flow.inflight + chunk.length })

end TerminalFlow

namespace Call

variable (answer : Nat → Bool)

/-- Publishes a frame; a refused one removes the viewer. -/
def emit (call : Call) (frame : OutputFrame) : Call :=
  let accepted := answer call.sent.length
  { flow := if accepted then call.flow else call.flow.viewerGone
    sent := call.sent ++ [⟨frame, accepted⟩] }

/-- One turn of the loop of `drain`. -/
def drainTurn (call : Call) : Call :=
  let (chunk, flow) := call.flow.nextChunk
  Call.emit answer { call with flow } (.data chunk)

/-- The loop of `drain`. Every turn shortens the queue, which bounds the turns. -/
def drainLoop : Nat → Call → Call
  | 0, call => call
  | turns + 1, call => if call.flow.sending then drainLoop turns (call.drainTurn answer) else call

/-- The call with the count of lost bytes taken from the queue. -/
def lossTaken (call : Call) : Call :=
  { call with flow := { call.flow with pending := call.flow.pending.takeDropped.2 } }

/-- Announces what the queue has lost, before the next chunk. -/
def announce (call : Call) : Call :=
  let dropped := call.flow.pending.takeDropped.1
  if 0 < dropped then call.lossTaken.emit answer (.dropped dropped) else call.lossTaken

/-- Publishes what the credit permits. -/
def drain (call : Call) : Call :=
  if inflightWindowBytes ≤ call.flow.inflight ∨ call.flow.pending.items = [] then call
  else
    -- A viewer that refuses the announcement is gone, and the loop takes no turn.
    let announced := call.announce answer
    announced.drainLoop answer announced.flow.pending.items.length

/-- Announces at the exit what the viewer will not get any more. -/
def announceLost (call : Call) : Call :=
  let lost := call.flow.pending.items.length + call.flow.pending.takeDropped.1
  if 0 < lost ∧ call.flow.attached then call.lossTaken.emit answer (.dropped lost)
  else call.lossTaken

/-- Publishes the exit to a viewer that is still there. -/
def announceExit (exit : ExitInfo) (consentRevoked : Bool) (call : Call) : Call :=
  if call.flow.attached then
    call.emit answer (.exit exit.exitCode exit.signal consentRevoked)
  else call

end Call

namespace TerminalFlow

/-- A call that has published nothing yet. -/
def call (flow : TerminalFlow) : Call := ⟨flow, []⟩

/-- Retains the shell's bytes and publishes only what the viewer's credit permits. -/
def onData (flow : TerminalFlow) (bytes : List UInt8) (answer : Nat → Bool) : Call :=
  let kept := { flow with scrollback := flow.scrollback.push bytes }
  if kept.exit.isSome ∨ kept.attached = false then kept.call
  else ({ kept with pending := kept.pending.push bytes }).call.drain answer

/-- Restores consumed byte credit and resumes pending output. -/
def ack (flow : TerminalFlow) (bytes : Nat) (answer : Nat → Bool) : Call :=
  let credited := { flow with inflight := flow.inflight - bytes }
  if credited.attached ∧ credited.exit.isNone then credited.call.drain answer
  else credited.call

/-- Publishes the exit last and ends this viewer's stream once. -/
def onExit (flow : TerminalFlow) (exit : ExitInfo) (consentRevoked : Bool)
    (answer : Nat → Bool) : Call :=
  if flow.exit.isSome then flow.call
  else
    let settled := { flow with exit := some exit }
    if settled.attached then
      let told := ((settled.call.drain answer).announceLost answer).announceExit answer exit
        consentRevoked
      { told with flow := told.flow.detach }
    else settled.call

end TerminalFlow

/-! ## The loop of `drain` -/

namespace Call

variable {answer : Nat → Bool}

section

variable (call : Call) (frame : OutputFrame)

@[simp] theorem emit_attached :
    (call.emit answer frame).flow.attached =
      (call.flow.attached && answer call.sent.length) := by
  cases haccepted : answer call.sent.length <;> simp [emit, haccepted, TerminalFlow.viewerGone]

@[simp] theorem emit_inflight : (call.emit answer frame).flow.inflight = call.flow.inflight := by
  unfold emit
  dsimp only
  split_ifs <;> rfl

end

/-! ## What publishing leaves alone -/

/-- The scrollback and the exit are as before. -/
structure Keeps (before after : TerminalFlow) : Prop where
  scrollback : after.scrollback = before.scrollback
  exit : after.exit = before.exit

theorem Keeps.trans {first second third : TerminalFlow} (hfirst : Keeps first second)
    (hsecond : Keeps second third) : Keeps first third :=
  ⟨hsecond.scrollback.trans hfirst.scrollback, hsecond.exit.trans hfirst.exit⟩

theorem Keeps.emit {before : TerminalFlow} {call : Call} (hkeeps : Keeps before call.flow)
    (frame : OutputFrame) : Keeps before (call.emit answer frame).flow := by
  unfold Call.emit
  dsimp only
  split_ifs
  · exact hkeeps
  · exact ⟨hkeeps.scrollback, hkeeps.exit⟩

theorem lossTaken_keeps (call : Call) : Keeps call.flow call.lossTaken.flow := ⟨rfl, rfl⟩

theorem drainTurn_keeps (call : Call) : Keeps call.flow (call.drainTurn answer).flow := by
  apply Keeps.emit
  exact ⟨rfl, rfl⟩

theorem drainLoop_keeps (turns : Nat) (call : Call) :
    Keeps call.flow (call.drainLoop answer turns).flow := by
  induction turns generalizing call with
  | zero => exact ⟨rfl, rfl⟩
  | succ turns ih =>
    rw [drainLoop]
    split_ifs
    · exact (drainTurn_keeps call).trans (ih _)
    · exact ⟨rfl, rfl⟩

theorem announce_keeps (call : Call) : Keeps call.flow (call.announce answer).flow := by
  unfold announce
  dsimp only
  split_ifs
  · exact call.lossTaken_keeps.emit _
  · exact call.lossTaken_keeps

theorem drain_keeps (call : Call) : Keeps call.flow (call.drain answer).flow := by
  unfold drain
  split_ifs
  · exact ⟨rfl, rfl⟩
  · exact (announce_keeps call).trans (drainLoop_keeps _ _)

theorem announceLost_keeps (call : Call) : Keeps call.flow (call.announceLost answer).flow := by
  unfold announceLost
  dsimp only
  split_ifs
  · exact call.lossTaken_keeps.emit _
  · exact call.lossTaken_keeps

theorem announceExit_keeps (exit : ExitInfo) (consentRevoked : Bool) (call : Call) :
    Keeps call.flow (call.announceExit answer exit consentRevoked).flow := by
  unfold announceExit
  split_ifs
  · exact Keeps.emit ⟨rfl, rfl⟩ _
  · exact ⟨rfl, rfl⟩

theorem farewell_keeps (exit : ExitInfo) (consentRevoked : Bool) (call : Call) :
    Keeps call.flow (((call.drain answer).announceLost answer).announceExit answer exit
      consentRevoked).flow :=
  ((drain_keeps call).trans (announceLost_keeps _)).trans (announceExit_keeps exit _ _)

end Call

end MangoStudio.Terminal
