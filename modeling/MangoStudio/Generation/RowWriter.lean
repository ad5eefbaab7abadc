import MangoStudio.Lib.PromiseChain
import MangoStudio.Lib.Run

/-!
# The writers of an assistant row

`TurnCheckpointWriter` of
`apps/api/src/modules/generation/application/turn-checkpoint.ts` and
`ExternalTranscriptWriter` of
`apps/api/src/modules/external-agents/application/external-transcript-writer.ts`:
the row of an answer is written while the answer grows.  A required write is
queued on a chain of promises; a best-effort request only marks the state dirty,
and a trailing write takes it when a timer or `flush` has queued it and its turn
comes.

The two classes are one machine with three differences (`WriterKind`).

* The content is its version: how often it has changed.  A row holds the version
  that was written last.
* A `ticket` is the place in the chain of the trailing write that has not started.
* `start`, `complete` and `settle` are the three moments of a task on the chain:
  its callback runs, the update of the row comes back, and the handlers behind it
  have run.
* `accepted`, `started`, `outcomes` and `resolved` record what happened; nothing
  reads them.
-/

namespace MangoStudio.Generation

open PromiseChain

def checkpointTextIntervalChars : Nat := 512

def checkpointMaxIntervalMs : Nat := 1000

inductive WriterKind where
  | turnCheckpoint
  | externalTranscript
  deriving DecidableEq, Repr

namespace WriterKind

/-- A required write of the checkpoint writer is serialized when it is called; all other writes
are when they run. -/
def snapshotsAtCall : WriterKind → Bool
  | .turnCheckpoint => true
  | .externalTranscript => false

/-- A required write of the transcript writer that fails hands back what it superseded. -/
def handsBack : WriterKind → Bool
  | .turnCheckpoint => false
  | .externalTranscript => true

/-- `flush` of the transcript writer also waits for what became dirty meanwhile. -/
def flushesUntilClean : WriterKind → Bool
  | .turnCheckpoint => false
  | .externalTranscript => true

end WriterKind

structure RequiredWrite where
  /-- The version that was serialized at the call. -/
  snapshot : Option Nat
  supersededDirty : Bool
  /-- Whether a correction of the content is to be made if the write fails. -/
  onFailure : Bool
  deriving DecidableEq, Repr

inductive WriteTask where
  | bestEffort
  | required (write : RequiredWrite)
  deriving DecidableEq, Repr

def WriteTask.isRequired : WriteTask → Bool
  | .bestEffort => false
  | .required _ => true

inductive WriteProgress where
  /-- The update of the row is under way. -/
  | executing (version : Nat)
  | returned (ok : Bool)
  deriving DecidableEq, Repr

abbrev WriteLink := Link WriteTask WriteProgress

/-- An update of the row, as it was started. -/
structure StartedUpdate where
  bestEffort : Bool
  version : Nat
  /-- Whether a required write was queued behind it. -/
  overtaken : Bool
  deriving DecidableEq, Repr

/-- A call of `flush` that waits. -/
structure PendingFlush where
  /-- The version at the last request that was accepted before the call. -/
  wanted : Option Nat
  /-- The tail of the chain that it waits for. -/
  tail : Nat
  deriving DecidableEq, Repr

/-- A call of `flush` that has resolved, with what the row held then. -/
structure ResolvedFlush where
  wanted : Option Nat
  row : Option Nat
  /-- Whether the updates so far succeeded. -/
  outcomes : List Bool
  deriving DecidableEq, Repr

structure RowWriter where
  kind : WriterKind
  version : Nat := 0
  lastTextLength : Nat := 0
  lastWrittenAt : Nat
  chain : List WriteLink := []
  dirty : Bool := false
  ticket : Option Nat := none
  timerArmed : Bool := false
  flushes : List PendingFlush := []
  row : Option Nat := none
  accepted : Option Nat := none
  started : List StartedUpdate := []
  outcomes : List Bool := []
  resolved : List ResolvedFlush := []
  deriving DecidableEq, Repr

/-- `new TurnCheckpointWriter` and `new ExternalTranscriptWriter`.  The time is that of the
checkpoint, or the current one. -/
def newWriter (kind : WriterKind) (lastWrittenAt : Nat) : RowWriter :=
  { kind, lastWrittenAt }

namespace RowWriter

variable (writer : RowWriter)

/-! ## Queueing -/

def shouldWrite (textLength now : Nat) (force : Bool) : Bool :=
  force || writer.lastTextLength + checkpointTextIntervalChars ≤ textLength ||
    writer.lastWrittenAt + checkpointMaxIntervalMs ≤ now

def queueTrailingWrite : RowWriter :=
  if writer.ticket.isSome then writer
  else
    { writer with
      ticket := some writer.chain.length
      chain := enqueue writer.chain .bestEffort }

def armTrailingWrite : RowWriter :=
  if writer.timerArmed || writer.ticket.isSome then writer
  else { writer with timerArmed := true }

def markDirty : RowWriter :=
  { writer with dirty := true }.armTrailingWrite

/-- A required write supersedes the dirty state and the ticket. -/
def enqueueRequired (onFailure : Bool) : RowWriter :=
  { writer with
    dirty := false
    ticket := none
    accepted := some writer.version
    chain := enqueue writer.chain <| .required
      { snapshot := if writer.kind.snapshotsAtCall then some writer.version else none
        supersededDirty := writer.dirty
        onFailure } }

/-- `checkpoint(options)` and `write(options)`. -/
def request (force hasStatus : Bool) (textLength now : Nat) : RowWriter :=
  if writer.shouldWrite textLength now force then
    let noted := { writer with lastTextLength := textLength, lastWrittenAt := now }
    if force || writer.kind == .turnCheckpoint && hasStatus then noted.enqueueRequired false
    else { noted with accepted := some writer.version }.markDirty
  else writer

/-- The deferred callback. -/
def fireTimer : RowWriter :=
  if writer.timerArmed then
    let fired := { writer with timerArmed := false }
    if writer.dirty then fired.queueTrailingWrite else fired
  else writer

/-! ## The tasks -/

/-- The update of the row by the task at a place. -/
def startUpdate (place : Nat) (bestEffort : Bool) (version : Nat) : RowWriter :=
  { writer with
    chain := setStatus writer.chain place (.running (.executing version))
    started := writer.started ++
      [{ bestEffort, version
         overtaken := (writer.chain.drop (place + 1)).any (·.task.isRequired) }] }

/-- The task at a place ends without an update. -/
def skip (place : Nat) : RowWriter :=
  { writer with chain := setStatus writer.chain place .settled }

/-- The callback of a task runs. -/
def start (place : Nat) : RowWriter :=
  if ready writer.chain place then
    match writer.chain[place]? with
    | some ⟨.bestEffort, _⟩ =>
      if writer.ticket = some place then
        let taken := { writer with ticket := none }
        if writer.dirty then
          { taken with dirty := false }.startUpdate place true writer.version
        else taken.skip place
      else writer.skip place
    | some ⟨.required write, _⟩ =>
      writer.startUpdate place false (write.snapshot.getD writer.version)
    | none => writer
  else writer

/-- The update of the row comes back. -/
def complete (place : Nat) (ok : Bool) : RowWriter :=
  match writer.chain[place]? with
  | some ⟨_, .running (.executing version)⟩ =>
    { writer with
      chain := setStatus writer.chain place (.running (.returned ok))
      row := if ok then some version else writer.row
      outcomes := writer.outcomes ++ [ok] }
  | _ => writer

/-- The failure handler of a required write. -/
def handleFailure (write : RequiredWrite) : RowWriter :=
  let corrected :=
    if write.onFailure then { writer with version := writer.version + 1 } else writer
  if write.supersededDirty then corrected.markDirty else corrected

/-- The handlers behind the update have run. -/
def settle (place : Nat) : RowWriter :=
  match writer.chain[place]? with
  | some ⟨.required write, .running (.returned false)⟩ =>
    if writer.kind.handsBack then (writer.skip place).handleFailure write else writer.skip place
  | some ⟨_, .running (.returned _)⟩ => writer.skip place
  | _ => writer

/-! ## Flushing -/

def flush : RowWriter :=
  let queued := if writer.dirty then writer.queueTrailingWrite else writer
  { queued with
    flushes := queued.flushes ++ [{ wanted := queued.accepted, tail := queued.chain.length }] }

/-- The wait of a flush is over: it resolves, or waits for the new tail. -/
def resume (index : Nat) : RowWriter :=
  match writer.flushes[index]? with
  | some pending =>
    if settledUpTo writer.chain pending.tail then
      if pending.tail = writer.chain.length ∧ ¬ (writer.kind.flushesUntilClean ∧ writer.dirty) then
        { writer with
          flushes := writer.flushes.eraseIdx index
          resolved := writer.resolved ++
            [{ wanted := pending.wanted, row := writer.row, outcomes := writer.outcomes }] }
      else
        let queued :=
          if writer.kind.flushesUntilClean ∧ writer.dirty then writer.queueTrailingWrite
          else writer
        { queued with
          flushes := queued.flushes.set index { pending with tail := queued.chain.length } }
    else writer
  | none => writer

/-! ## The machine -/

inductive Action where
  /-- The content changes. -/
  | change
  | request (force hasStatus : Bool) (textLength now : Nat)
  /-- `writeRequired` of the transcript writer. -/
  | requireWrite (onFailure : Bool)
  | flush
  | fireTimer
  | start (place : Nat)
  | complete (place : Nat) (ok : Bool)
  | settle (place : Nat)
  | resume (index : Nat)
  deriving DecidableEq, Repr

def step (writer : RowWriter) : Action → RowWriter
  | .change => { writer with version := writer.version + 1 }
  | .request force hasStatus textLength now => writer.request force hasStatus textLength now
  | .requireWrite onFailure =>
    if writer.kind = .externalTranscript then writer.enqueueRequired onFailure else writer
  | .flush => writer.flush
  | .fireTimer => writer.fireTimer
  | .start place => writer.start place
  | .complete place ok => writer.complete place ok
  | .settle place => writer.settle place
  | .resume index => writer.resume index

abbrev run (writer : RowWriter) (actions : List Action) : RowWriter :=
  Run.run step writer actions

end RowWriter

end MangoStudio.Generation
