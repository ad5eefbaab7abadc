import MangoStudio.Generation.RowWriter
import Mathlib.Logic.Relation

/-!
# The row never goes back

What holds of the two writers over whole runs, for any order of requests, timers,
flushes, tasks and results of updates.

* `Move` lists the elementary changes, with what is known when each is made.
  Every step is a sequence of moves (`step_moves`), so an invariant is proved
  once per move.
* `Chained`: the chain is serial, the ticket is a trailing write that waits, and
  no required write was queued behind it.
* `Ascending`: the versions of the updates, in the order they start, never fall,
  and those of the required writes that still wait continue them.
* `Covered`: the version of every accepted request is stored, queued or dirty; for
  a waiting flush the last case means that a trailing write is queued.
* `Synced`: when no update is under way, the row holds the last started version if
  the last update succeeded.
-/

namespace MangoStudio.Generation.RowWriter

open PromiseChain List Option

/-! ## Moves -/

/-- The elementary changes of a writer. -/
inductive Move (writer : RowWriter) : RowWriter → Prop where
  | note (textLength now : Nat) (timerArmed : Bool) :
    Move writer
      { writer with lastTextLength := textLength, lastWrittenAt := now, timerArmed := timerArmed }
  | change : Move writer { writer with version := writer.version + 1 }
  | dirty : Move writer { writer with dirty := true }
  | accept : Move writer { writer with dirty := true, accepted := some writer.version }
  | trail (hticket : writer.ticket = none) :
    Move writer
      { writer with
        ticket := some writer.chain.length, chain := enqueue writer.chain .bestEffort }
  | require (onFailure : Bool) : Move writer (writer.enqueueRequired onFailure)
  | startTrailing (place : Nat) (hbefore : settledUpTo writer.chain place = true)
      (hticket : writer.ticket = some place) (hdirty : writer.dirty = true) :
    Move writer
      ({ writer with ticket := none, dirty := false }.startUpdate place true writer.version)
  | startRequired (place : Nat) (write : RequiredWrite)
      (hbefore : settledUpTo writer.chain place = true)
      (hlink : writer.chain[place]? = some ⟨.required write, .waiting⟩) :
    Move writer (writer.startUpdate place false (write.snapshot.getD writer.version))
  | skipStale (place : Nat) (hbefore : settledUpTo writer.chain place = true)
      (hlink : writer.chain[place]? = some ⟨.bestEffort, .waiting⟩)
      (hticket : writer.ticket ≠ some place) : Move writer (writer.skip place)
  | skipClean (place : Nat) (hbefore : settledUpTo writer.chain place = true)
      (hlink : writer.chain[place]? = some ⟨.bestEffort, .waiting⟩)
      (hdirty : writer.dirty = false) : Move writer ({ writer with ticket := none }.skip place)
  | returned (place : Nat) (task : WriteTask) (version : Nat) (ok : Bool)
      (hlink : writer.chain[place]? = some ⟨task, .running (.executing version)⟩) :
    Move writer
      { writer with
        chain := setStatus writer.chain place (.running (.returned ok))
        row := if ok then some version else writer.row
        outcomes := writer.outcomes ++ [ok] }
  | settled (place : Nat) (task : WriteTask) (ok : Bool)
      (hlink : writer.chain[place]? = some ⟨task, .running (.returned ok)⟩) :
    Move writer (writer.skip place)
  | await (hqueued : writer.dirty = true → writer.ticket.isSome = true) :
    Move writer
      { writer with
        flushes := writer.flushes ++
          [{ wanted := writer.accepted, tail := writer.chain.length }] }
  | awaitAgain (index : Nat) (pending : PendingFlush)
      (hpending : writer.flushes[index]? = some pending) :
    Move writer
      { writer with
        flushes := writer.flushes.set index { pending with tail := writer.chain.length } }
  | resolve (index : Nat) (pending : PendingFlush)
      (hpending : writer.flushes[index]? = some pending)
      (htail : settledUpTo writer.chain writer.chain.length = true) :
    Move writer
      { writer with
        flushes := writer.flushes.eraseIdx index
        resolved := writer.resolved ++
          [{ wanted := pending.wanted, row := writer.row, outcomes := writer.outcomes }] }

abbrev Moves := Relation.ReflTransGen Move

variable {writer : RowWriter}

theorem queueTrailingWrite_moves : Moves writer writer.queueTrailingWrite := by
  unfold queueTrailingWrite
  split_ifs with hticket
  · exact .refl
  · exact .single (.trail (by simpa using hticket))

theorem armTrailingWrite_moves : Moves writer writer.armTrailingWrite := by
  unfold armTrailingWrite
  split_ifs
  · exact .refl
  · exact .single (.note _ _ _)

theorem markDirty_moves : Moves writer writer.markDirty :=
  .trans (.single .dirty) armTrailingWrite_moves

theorem queueTrailingWrite_isSome : (writer.queueTrailingWrite).ticket.isSome = true := by
  unfold queueTrailingWrite
  split_ifs with hticket
  · exact hticket
  · rfl

@[simp] theorem queueTrailingWrite_flushes :
    (writer.queueTrailingWrite).flushes = writer.flushes := by
  unfold queueTrailingWrite
  split_ifs <;> rfl

theorem request_moves (force hasStatus : Bool) (textLength now : Nat) :
    Moves writer (writer.request force hasStatus textLength now) := by
  unfold request
  simp only
  split_ifs
  · exact .trans (.single (.note textLength now writer.timerArmed)) (.single (.require false))
  · exact .trans (.single (.note textLength now writer.timerArmed))
      (.trans (.single .accept) armTrailingWrite_moves)
  · exact .refl

theorem fireTimer_moves : Moves writer writer.fireTimer := by
  unfold fireTimer
  simp only
  split_ifs
  · exact .trans (.single (.note _ _ false)) queueTrailingWrite_moves
  · exact .single (.note _ _ false)
  · exact .refl

theorem ready_cases {place : Nat} (hready : ready writer.chain place = true) :
    settledUpTo writer.chain place = true ∧
      ∃ task, writer.chain[place]? = some ⟨task, .waiting⟩ := by
  simp only [ready, Bool.and_eq_true, Option.any_eq_true, isWaiting_iff] at hready
  obtain ⟨⟨link, hlink, hwaiting⟩, hbefore⟩ := hready
  refine ⟨hbefore, link.task, ?_⟩
  rw [hlink, ← hwaiting]

theorem start_moves (place : Nat) : Moves writer (writer.start place) := by
  by_cases hready : ready writer.chain place = true
  · obtain ⟨hbefore, task, hlink⟩ := ready_cases hready
    rw [start, if_pos hready, hlink]
    cases task with
    | bestEffort =>
      simp only
      split_ifs with hticket hdirty
      · exact .single (.startTrailing place hbefore hticket hdirty)
      · exact .single (.skipClean place hbefore hlink (by simpa using hdirty))
      · exact .single (.skipStale place hbefore hlink hticket)
    | required write => exact .single (.startRequired place write hbefore hlink)
  · rw [start, if_neg hready]

theorem complete_moves (place : Nat) (ok : Bool) : Moves writer (writer.complete place ok) := by
  unfold complete
  split
  · rename_i task version hlink
    exact .single (.returned place task version ok hlink)
  · exact .refl

theorem handleFailure_moves (write : RequiredWrite) : Moves writer (writer.handleFailure write) := by
  unfold handleFailure
  simp only
  split_ifs
  · exact .trans (.single .change) markDirty_moves
  · exact markDirty_moves
  · exact .single .change
  · exact .refl

theorem settle_moves (place : Nat) : Moves writer (writer.settle place) := by
  unfold settle
  split
  · rename_i write hlink
    have hskip : Moves writer (writer.skip place) := .single (.settled place _ _ hlink)
    split_ifs
    · exact .trans hskip (handleFailure_moves write)
    · exact hskip
  · rename_i task ok _ hlink
    exact .single (.settled place _ _ hlink)
  · exact .refl

theorem flush_moves : Moves writer writer.flush := by
  unfold flush
  simp only
  split_ifs with hdirty
  · exact .trans queueTrailingWrite_moves (.single (.await fun _ => queueTrailingWrite_isSome))
  · exact .single (.await fun h => absurd h hdirty)

theorem resume_moves (index : Nat) : Moves writer (writer.resume index) := by
  unfold resume
  split
  · rename_i pending hpending
    split_ifs with hsettled hdone hdirty
    · exact .single (.resolve index pending hpending (hdone.1 ▸ hsettled))
    · refine .trans queueTrailingWrite_moves (.single (.awaitAgain index pending ?_))
      rw [queueTrailingWrite_flushes, hpending]
    · exact .single (.awaitAgain index pending hpending)
    · exact .refl
  · exact .refl

theorem step_moves (action : Action) : Moves writer (writer.step action) := by
  cases action with
  | change => exact .single .change
  | request force hasStatus textLength now => exact request_moves force hasStatus textLength now
  | requireWrite onFailure =>
    simp only [step]
    split_ifs
    · exact .single (.require onFailure)
    · exact .refl
  | flush => exact flush_moves
  | fireTimer => exact fireTimer_moves
  | start place => exact start_moves place
  | complete place ok => exact complete_moves place ok
  | settle place => exact settle_moves place
  | resume index => exact resume_moves index

theorem run_keeps {inv : RowWriter → Prop} (hmove : ∀ {a b}, inv a → Move a b → inv b)
    (hinv : inv writer) (actions : List Action) : inv (writer.run actions) := by
  refine Run.run_invariant (fun state action hstate => ?_) hinv actions
  have hmoves : Moves state (state.step action) := step_moves action
  generalize state.step action = after at hmoves
  induction hmoves with
  | refl => exact hstate
  | tail _ hlast ih => exact hmove ih hlast

/-! ## The chain -/

structure Chained (writer : RowWriter) : Prop where
  serial : Serial writer.chain
  ticketed : ∀ place : Nat, writer.ticket = some place →
    writer.chain[place]? = some ⟨.bestEffort, .waiting⟩
  unsuperseded : ∀ place : Nat, writer.ticket = some place → ∀ later link, place < later →
    writer.chain[later]? = some link → link.task.isRequired = false
  snapshots : ∀ (place : Nat) (write : RequiredWrite) (status : Status WriteProgress),
    writer.chain[place]? = some ⟨.required write, status⟩ →
      write.snapshot.isSome = writer.kind.snapshotsAtCall
  tails : ∀ pending ∈ writer.flushes, pending.tail ≤ writer.chain.length

variable {place i : Nat}

theorem required_of_setStatus {chain : List WriteLink} {status status' : Status WriteProgress}
    {write : RequiredWrite}
    (hlink : (setStatus chain place status)[i]? = some ⟨.required write, status'⟩) :
    ∃ old, chain[i]? = some ⟨.required write, old⟩ := by
  obtain ⟨⟨task, old⟩, hold, htask, -⟩ := getElem?_setStatus_cases hlink
  cases htask
  exact ⟨old, hold⟩

namespace Chained

variable {after : RowWriter}

theorem setStatus (hchained : Chained writer) {place : Nat}
    (hbefore : settledUpTo writer.chain place = true) {link : WriteLink}
    (hlink : writer.chain[place]? = some link) (hopen : link.status ≠ .settled)
    (status : Status WriteProgress)
    (hticket : ∀ other, after.ticket = some other → writer.ticket = some other ∧ other ≠ place)
    (hchain : after.chain = PromiseChain.setStatus writer.chain place status)
    (hkind : after.kind = writer.kind) (hflushes : after.flushes = writer.flushes) :
    Chained after := by
  constructor
  case serial =>
    rw [hchain]
    exact hchained.serial.setStatus hbefore hlink hopen status
  case ticketed =>
    intro other hother
    obtain ⟨hold, hne⟩ := hticket other hother
    rw [hchain, getElem?_setStatus_ne hne]
    exact hchained.ticketed other hold
  case unsuperseded =>
    intro other hother later link' hlt hlink'
    rw [hchain] at hlink'
    obtain ⟨old, hold, htask, -⟩ := getElem?_setStatus_cases hlink'
    rw [htask]
    exact hchained.unsuperseded other (hticket other hother).1 later old hlt hold
  case snapshots =>
    intro other write status' hother
    rw [hchain] at hother
    obtain ⟨old, hold⟩ := required_of_setStatus hother
    rw [hkind]
    exact hchained.snapshots other write old hold
  case tails =>
    rw [hchain, hflushes, length_setStatus]
    exact hchained.tails

theorem enqueue (hchained : Chained writer) {task : WriteTask}
    (hticket : ∀ place, after.ticket = some place →
      task = .bestEffort ∧ place = writer.chain.length)
    (hsnapshot : ∀ write, task = .required write →
      write.snapshot.isSome = writer.kind.snapshotsAtCall)
    (hchain : after.chain = PromiseChain.enqueue writer.chain task)
    (hkind : after.kind = writer.kind) (hflushes : after.flushes = writer.flushes) :
    Chained after := by
  constructor
  case serial =>
    rw [hchain]
    exact hchained.serial.enqueue task
  case ticketed =>
    intro place hplace
    obtain ⟨rfl, rfl⟩ := hticket place hplace
    rw [hchain, PromiseChain.enqueue, List.getElem?_concat_length]
  case unsuperseded =>
    intro place hplace later link hlt hlink
    obtain ⟨rfl, rfl⟩ := hticket place hplace
    rw [hchain] at hlink
    rcases getElem?_enqueue_cases hlink with hold | ⟨-, rfl⟩
    · have := (List.getElem?_eq_some_iff.1 hold).1
      omega
    · rfl
  case snapshots =>
    intro place write status hlink
    rw [hchain] at hlink
    rw [hkind]
    rcases getElem?_enqueue_cases hlink with hold | ⟨-, hnew⟩
    · exact hchained.snapshots place write status hold
    · exact hsnapshot write (congrArg Link.task hnew).symm
  case tails =>
    rw [hchain, hflushes, length_enqueue]
    exact fun pending hpending => Nat.le_succ_of_le (hchained.tails pending hpending)

theorem move (hchained : Chained writer) (hmove : Move writer after) :
    Chained after := by
  cases hmove with
  | note | change | dirty | accept =>
    exact ⟨hchained.1, hchained.2, hchained.3, hchained.4, hchained.5⟩
  | trail hticket =>
    exact hchained.enqueue (fun place hplace => ⟨rfl, (some.inj hplace).symm⟩) nofun rfl
      rfl rfl
  | require onFailure =>
    refine hchained.enqueue nofun (fun write hwrite => ?_) rfl rfl rfl
    cases hwrite
    cases writer.kind.snapshotsAtCall <;> rfl
  | startTrailing place hbefore hticket hdirty =>
    exact hchained.setStatus hbefore (hchained.ticketed place hticket) nofun _ nofun rfl rfl rfl
  | startRequired place write hbefore hlink =>
    refine hchained.setStatus hbefore hlink nofun _ (fun other hother => ⟨hother, ?_⟩) rfl rfl rfl
    rintro rfl
    rw [hchained.ticketed other hother] at hlink
    cases hlink
  | skipStale place hbefore hlink hticket =>
    refine hchained.setStatus hbefore hlink nofun _ (fun other hother => ⟨hother, ?_⟩) rfl rfl rfl
    rintro rfl
    exact hticket hother
  | skipClean place hbefore hlink hdirty =>
    exact hchained.setStatus hbefore hlink nofun _ nofun rfl rfl rfl
  | returned _ _ _ _ hlink | settled _ _ _ hlink =>
    refine hchained.setStatus (hchained.serial.settledUpTo_of_started hlink nofun) hlink nofun _
      (fun other hother => ⟨hother, ?_⟩) rfl rfl rfl
    rintro rfl
    rw [hchained.ticketed other hother] at hlink
    cases hlink
  | await hqueued =>
    refine ⟨hchained.1, hchained.2, hchained.3, hchained.4, fun pending hpending => ?_⟩
    grind [cases Chained]
  | awaitAgain index pending hpending =>
    refine ⟨hchained.1, hchained.2, hchained.3, hchained.4, fun other hother => ?_⟩
    rcases mem_or_eq_of_mem_set hother with hold | rfl
    · exact hchained.tails other hold
    · exact Nat.le_refl _
  | resolve index pending hpending htail =>
    exact ⟨hchained.1, hchained.2, hchained.3, hchained.4, fun other hother =>
      hchained.tails other (mem_of_mem_eraseIdx hother)⟩

end Chained

/-! ## The versions of the updates -/

variable {task : WriteTask} {status : Status WriteProgress}

theorem waiting_of_setStatus {chain : List WriteLink}
    (hlink : (setStatus chain place status)[i]? = some ⟨task, .waiting⟩)
    (hstatus : status ≠ .waiting) :
    i ≠ place ∧ chain[i]? = some ⟨task, .waiting⟩ := by
  obtain ⟨old, hold, -, ⟨-, hnew⟩ | ⟨hne, rfl⟩⟩ := getElem?_setStatus_cases hlink
  · exact absurd hnew.symm hstatus
  · exact ⟨hne, hold⟩

theorem Chained.le_of_waiting (hchained : Chained writer)
    (hbefore : settledUpTo writer.chain place = true)
    (hlink : writer.chain[i]? = some ⟨task, .waiting⟩) : place ≤ i := by
  by_contra hlt
  have hsettled := hchained.serial.settled_of_lt hbefore (Nat.not_le.1 hlt) hlink
  cases hsettled

structure Ascending (writer : RowWriter) : Prop where
  ascending : writer.started.Pairwise fun earlier later => earlier.version ≤ later.version
  current : ∀ update ∈ writer.started, update.version ≤ writer.version
  queued : ∀ (place : Nat) (write : RequiredWrite) (snapshot : Nat),
    writer.chain[place]? = some ⟨.required write, .waiting⟩ → write.snapshot = some snapshot →
      snapshot ≤ writer.version ∧ ∀ update ∈ writer.started, update.version ≤ snapshot
  queuedAscending : ∀ (i j : Nat) (first second : RequiredWrite) (a b : Nat), i < j →
    writer.chain[i]? = some ⟨.required first, .waiting⟩ →
      writer.chain[j]? = some ⟨.required second, .waiting⟩ →
        first.snapshot = some a → second.snapshot = some b → a ≤ b
  notOvertaken : ∀ update ∈ writer.started, update.bestEffort = true → update.overtaken = false

variable {bestEffort : Bool}

namespace Ascending

variable {after : RowWriter} {place : Nat}

section

variable (hascending : Ascending writer)

include hascending

theorem setStatus {status : Status WriteProgress}
    (hchain : after.chain = PromiseChain.setStatus writer.chain place status)
    (hversion : after.version = writer.version) (hstarted : after.started = writer.started)
    (hstatus : status ≠ .waiting) : Ascending after := by
  constructor
  case ascending => exact hstarted ▸ hascending.ascending
  case current => exact hstarted ▸ hversion ▸ hascending.current
  case queued =>
    intro i write snapshot hlink hsnapshot
    rw [hversion, hstarted]
    exact hascending.queued i write snapshot
      (waiting_of_setStatus (hchain ▸ hlink) hstatus).2 hsnapshot
  case queuedAscending =>
    intro i j first second a b hlt hfirst hsecond
    exact hascending.queuedAscending i j first second a b hlt
      (waiting_of_setStatus (hchain ▸ hfirst) hstatus).2
      (waiting_of_setStatus (hchain ▸ hsecond) hstatus).2
  case notOvertaken => exact hstarted ▸ hascending.notOvertaken

theorem startUpdate {place version : Nat} (hcurrent : version ≤ writer.version)
    (hbefore : ∀ update ∈ writer.started, update.version ≤ version)
    (hafter : ∀ (i : Nat) (write : RequiredWrite) (snapshot : Nat), i ≠ place → writer.chain[i]? =
      some ⟨.required write, .waiting⟩ → write.snapshot = some snapshot → version ≤ snapshot)
    (hovertaken : bestEffort = true → (writer.chain.drop (place + 1)).any (·.task.isRequired) =
      false) : Ascending (writer.startUpdate place bestEffort version) := by
  constructor
  case ascending =>
    refine pairwise_append.2 ⟨hascending.ascending, pairwise_singleton _ _, ?_⟩
    intro update hupdate new hnew
    rw [mem_singleton.1 hnew]
    exact hbefore update hupdate
  case current =>
    intro update hupdate
    rcases mem_append.1 hupdate with hold | hnew
    · exact hascending.current update hold
    · rw [mem_singleton.1 hnew]
      exact hcurrent
  case queued =>
    intro i write snapshot hlink hsnapshot
    obtain ⟨hne, hold⟩ := waiting_of_setStatus hlink nofun
    obtain ⟨hle, hall⟩ := hascending.queued i write snapshot hold hsnapshot
    refine ⟨hle, fun update hupdate => ?_⟩
    rcases mem_append.1 hupdate with hstarted | hnew
    · exact hall update hstarted
    · rw [mem_singleton.1 hnew]
      exact hafter i write snapshot hne hold hsnapshot
  case queuedAscending =>
    intro i j first second a b hlt hfirst hsecond
    exact hascending.queuedAscending i j first second a b hlt
      (waiting_of_setStatus hfirst nofun).2 (waiting_of_setStatus hsecond nofun).2
  grind [startUpdate, cases Ascending]

theorem enqueue {task : WriteTask} (hchain : after.chain = PromiseChain.enqueue writer.chain task)
    (hversion : after.version = writer.version) (hstarted : after.started = writer.started)
    (htask : ∀ write snapshot, task = .required write → write.snapshot = some snapshot → snapshot =
      writer.version) : Ascending after := by
  constructor
  case ascending => exact hstarted ▸ hascending.ascending
  case current => exact hstarted ▸ hversion ▸ hascending.current
  case queued =>
    intro i write snapshot hlink hsnapshot
    rw [hversion, hstarted]
    rcases getElem?_enqueue_cases (hchain ▸ hlink) with hold | ⟨-, hnew⟩
    · exact hascending.queued i write snapshot hold hsnapshot
    · rw [htask write snapshot (congrArg Link.task hnew).symm hsnapshot]
      exact ⟨Nat.le_refl _, hascending.current⟩
  case queuedAscending =>
    intro i j first second a b hlt hfirst hsecond ha hb
    rw [hchain] at hfirst hsecond
    rcases getElem?_enqueue_cases hsecond with hold | ⟨rfl, hnew⟩
    · rcases getElem?_enqueue_cases hfirst with hold' | ⟨rfl, -⟩
      · exact hascending.queuedAscending i j first second a b hlt hold' hold ha hb
      · have := (List.getElem?_eq_some_iff.1 hold).1
        omega
    · rw [htask second b (congrArg Link.task hnew).symm hb]
      rcases getElem?_enqueue_cases hfirst with hold' | ⟨rfl, -⟩
      · exact (hascending.queued i first a hold' ha).1
      · omega
  case notOvertaken => exact hstarted ▸ hascending.notOvertaken

theorem startTrailing (hchained : Chained writer) (hbefore : settledUpTo writer.chain place = true)
    (hticket : writer.ticket = some place) :
    Ascending (writer.startUpdate place true writer.version) := by
  have hlink := hchained.ticketed place hticket
  refine hascending.startUpdate (Nat.le_refl _) hascending.current ?_ ?_
  · intro i write snapshot hne hother
    have hle := hchained.le_of_waiting hbefore hother
    have hnot := hchained.unsuperseded place hticket i _ (by omega) hother
    cases hnot
  · intro _
    refine any_eq_false.2 fun later hlater => ?_
    obtain ⟨i, hi⟩ := mem_iff_getElem?.1 hlater
    rw [List.getElem?_drop] at hi
    rw [hchained.unsuperseded place hticket _ later (by omega) hi]
    exact Bool.false_ne_true

theorem startRequired (hchained : Chained writer) {write : RequiredWrite}
    (hbefore : settledUpTo writer.chain place = true)
    (hlink : writer.chain[place]? = some ⟨.required write, .waiting⟩) :
    Ascending (writer.startUpdate place false (write.snapshot.getD writer.version)) := by
  cases hsnapshot : write.snapshot with
  | some version =>
    obtain ⟨hle, hall⟩ := hascending.queued place write version hlink hsnapshot
    refine hascending.startUpdate hle hall ?_ nofun
    intro i other snapshot hne hother hsnapshot'
    have hlater := hchained.le_of_waiting hbefore hother
    exact hascending.queuedAscending place i write other version snapshot (by omega) hlink hother
      hsnapshot hsnapshot'
  | none =>
    refine hascending.startUpdate (Nat.le_refl _) hascending.current ?_ nofun
    grind [cases Chained]

theorem move (hchained : Chained writer) (hmove : Move writer after) : Ascending after := by
  have hframe := hascending
  obtain ⟨h1, h2, h3, h4, h5⟩ := hframe
  cases hmove with
  | note | dirty | accept | await | awaitAgain | resolve => exact ⟨h1, h2, h3, h4, h5⟩
  | change =>
    refine ⟨h1, fun update hupdate => Nat.le_succ_of_le (h2 update hupdate), ?_, h4, h5⟩
    grind
  | trail hticket => exact hascending.enqueue rfl rfl rfl nofun
  | require onFailure =>
    refine hascending.enqueue rfl rfl rfl fun write snapshot hwrite hsnapshot => ?_
    cases hwrite
    simp only at hsnapshot
    split_ifs at hsnapshot
    exact (some.inj hsnapshot).symm
  | startTrailing place hbefore hticket hdirty =>
    obtain ⟨g1, g2, g3, g4, g5⟩ := hascending.startTrailing hchained hbefore hticket
    exact ⟨g1, g2, g3, g4, g5⟩
  | startRequired place write hbefore hlink =>
    exact hascending.startRequired hchained hbefore hlink
  | skipStale | skipClean | returned | settled => exact hascending.setStatus rfl rfl rfl nofun

end

end Ascending

/-! ## Nothing accepted is forgotten -/

/-- A required write that waits will store the version or a newer one. -/
def Queued (writer : RowWriter) (version : Nat) : Prop :=
  ∃ (place : Nat) (write : RequiredWrite),
    writer.chain[place]? = some ⟨.required write, .waiting⟩ ∧
      ∀ snapshot, write.snapshot = some snapshot → version ≤ snapshot

/-- An update with the version or a newer one has started. -/
def Stored (writer : RowWriter) (version : Nat) : Prop :=
  ∃ update ∈ writer.started, version ≤ update.version

/-- The version is on its way to the row without a trailing write. -/
def Secured (writer : RowWriter) (version : Nat) : Prop :=
  Queued writer version ∨ Stored writer version

variable {after : RowWriter}

theorem Queued.setStatus {version place : Nat} {link : WriteLink} (hqueued : Queued writer version)
    (hlink : writer.chain[place]? = some link) (hother : ∀ write, link ≠ ⟨.required write, .waiting⟩)
    (hchain : after.chain = setStatus writer.chain place status) :
    Queued after version := by
  obtain ⟨i, write, hwrite, hsnapshot⟩ := hqueued
  have hne : i ≠ place := by
    rintro rfl
    exact hother write (some.inj (hlink.symm.trans hwrite))
  refine ⟨i, write, ?_, hsnapshot⟩
  rw [hchain, getElem?_setStatus_ne hne, hwrite]

variable {version : Nat}

theorem Queued.enqueue (hqueued : Queued writer version)
    (hchain : after.chain = enqueue writer.chain task) :
    Queued after version := by
  obtain ⟨i, write, hlink, hsnapshot⟩ := hqueued
  refine ⟨i, write, ?_, hsnapshot⟩
  grind [enqueue]

theorem Stored.new {version place new : Nat} (hle : version ≤ new) :
    Stored (writer.startUpdate place bestEffort new) version :=
  ⟨_, mem_append_right _ (mem_singleton.2 rfl), hle⟩

theorem Stored.old {version place new : Nat} (hstored : Stored writer version) :
    Stored (writer.startUpdate place bestEffort new) version := by
  obtain ⟨update, hupdate, hle⟩ := hstored
  exact ⟨update, mem_append_left _ hupdate, hle⟩

theorem Secured.move (hsecured : Secured writer version) (hcurrent : version ≤ writer.version)
    (hmove : Move writer after) :
    Secured after version := by
  cases hmove with
  | note | change | dirty | accept | await | awaitAgain | resolve => exact hsecured
  | trail | require => exact hsecured.imp (fun h => h.enqueue rfl) id
  | startTrailing place hbefore hticket hdirty => exact .inr (Stored.new hcurrent)
  | startRequired place write hbefore hlink =>
    rcases hsecured with ⟨i, other, hother, hsnapshot⟩ | hstored
    · by_cases hplace : i = place
      · subst hplace
        rw [hlink] at hother
        cases hother
        refine .inr (Stored.new ?_)
        cases hwrite : write.snapshot <;> grind
      · refine .inl ⟨i, other, ?_, hsnapshot⟩
        exact (getElem?_setStatus_ne hplace _).trans hother
    · exact .inr hstored.old
  | skipStale _ _ hlink | skipClean _ _ hlink | returned _ _ _ _ hlink | settled _ _ _ hlink =>
    exact hsecured.imp (fun h => h.setStatus hlink nofun rfl) id

theorem secured_require (hcurrent : version ≤ writer.version) (onFailure : Bool) :
    Secured (writer.enqueueRequired onFailure) version := by
  refine .inl ⟨writer.chain.length, _, List.getElem?_concat_length, fun snapshot hsnapshot => ?_⟩
  simp only at hsnapshot
  split_ifs at hsnapshot
  exact some.inj hsnapshot ▸ hcurrent

structure Covered (writer : RowWriter) : Prop where
  accepted : ∀ version, writer.accepted = some version →
    version ≤ writer.version ∧ (writer.dirty = true ∨ Secured writer version)
  wanted : ∀ pending ∈ writer.flushes, ∀ version, pending.wanted = some version →
    version ≤ writer.version ∧
      (writer.dirty = true ∧ writer.ticket.isSome = true ∨ Secured writer version)

namespace Covered

variable {after : RowWriter}

theorem frame (hcovered : Covered writer) (hmove : Move writer after)
    (hversion : writer.version ≤ after.version) (hdirty : writer.dirty = true → after.dirty = true)
    (hticket : writer.ticket.isSome = true → after.ticket.isSome = true)
    (haccepted : after.accepted = writer.accepted)
    (hflushes : ∀ pending ∈ after.flushes, ∃ old ∈ writer.flushes, pending.wanted = old.wanted) :
    Covered after := by
  constructor
  · intro version haccept
    obtain ⟨hle, hcases⟩ := hcovered.accepted version (haccepted ▸ haccept)
    exact ⟨Nat.le_trans hle hversion, hcases.imp hdirty fun h => h.move hle hmove⟩
  · intro pending hpending version hwanted
    obtain ⟨old, hold, heq⟩ := hflushes pending hpending
    obtain ⟨hle, hcases⟩ := hcovered.wanted old hold version (heq ▸ hwanted)
    exact ⟨Nat.le_trans hle hversion,
      hcases.imp (fun h => ⟨hdirty h.1, hticket h.2⟩) fun h => h.move hle hmove⟩

theorem of_secured (hcovered : Covered writer) (hversion : after.version = writer.version)
    (hflushes : after.flushes = writer.flushes)
    (haccepted : after.accepted = some writer.version ∨ after.accepted = writer.accepted)
    (hsecured : ∀ version, version ≤ writer.version → Secured after version) : Covered after := by
  constructor
  all_goals grind [cases Covered]

theorem move (hcovered : Covered writer) (hmove : Move writer after) :
    Covered after := by
  have hkeeps : ∀ pending ∈ writer.flushes, ∃ old ∈ writer.flushes,
      pending.wanted = old.wanted := fun pending hpending => ⟨pending, hpending, rfl⟩
  have hmoves := hmove
  cases hmove with
  | note | startRequired | skipStale | returned | settled =>
    exact hcovered.frame hmoves (Nat.le_refl _) id id rfl hkeeps
  | change => exact hcovered.frame hmoves (Nat.le_succ _) id id rfl hkeeps
  | dirty =>
    exact hcovered.frame hmoves (Nat.le_refl _) (fun _ => rfl) id rfl hkeeps
  | accept =>
    refine ⟨fun version haccept => ?_, fun pending hpending version hwanted => ?_⟩
    · exact ⟨Nat.le_of_eq (some.inj haccept).symm, .inl rfl⟩
    · obtain ⟨hle, hcases⟩ := hcovered.wanted pending hpending version hwanted
      exact ⟨hle, hcases.imp (fun h => ⟨rfl, h.2⟩) id⟩
  | trail hticket =>
    exact hcovered.frame hmoves (Nat.le_refl _) id (fun _ => rfl) rfl hkeeps
  | require onFailure =>
    exact hcovered.of_secured rfl rfl (.inl rfl) fun version hle => secured_require hle onFailure
  | startTrailing place hbefore hticket hdirty =>
    exact hcovered.of_secured rfl rfl (.inr rfl) fun version hle => .inr (Stored.new hle)
  | skipClean place hbefore hlink hdirty =>
    constructor
    · intro version haccept
      obtain ⟨hle, hcases⟩ := hcovered.accepted version haccept
      exact ⟨hle, hcases.imp id fun h => h.move hle hmoves⟩
    · intro pending hpending version hwanted
      obtain ⟨hle, ⟨hcontra, -⟩ | hsecured⟩ := hcovered.wanted pending hpending version hwanted
      · rw [hdirty] at hcontra
        cases hcontra
      · exact ⟨hle, .inr (hsecured.move hle hmoves)⟩
  | await hqueued =>
    refine ⟨hcovered.accepted, fun pending hpending version hwanted => ?_⟩
    rcases mem_append.1 hpending with hold | hnew
    · exact hcovered.wanted pending hold version hwanted
    · rw [mem_singleton.1 hnew] at hwanted
      obtain ⟨hle, hcases⟩ := hcovered.accepted version hwanted
      exact ⟨hle, hcases.imp (fun h => ⟨h, hqueued h⟩) id⟩
  | awaitAgain index pending hpending =>
    grind [frame]
  | resolve index pending hpending htail =>
    grind [frame, mem_of_mem_eraseIdx]

end Covered

/-! ## The row and the last update -/

/-- An update is under way. -/
def Executing (writer : RowWriter) (version : Nat) : Prop :=
  ∃ (place : Nat) (task : WriteTask),
    writer.chain[place]? = some ⟨task, .running (.executing version)⟩

structure Synced (writer : RowWriter) : Prop where
  executing : ∀ version, Executing writer version →
    writer.started.length = writer.outcomes.length + 1 ∧
      writer.started.getLast?.map (·.version) = some version
  idle : (∀ version, ¬ Executing writer version) →
    writer.started.length = writer.outcomes.length ∧
      (writer.outcomes.getLast? = some true →
        writer.row = writer.started.getLast?.map (·.version))

theorem Chained.idle_of_waiting (hchained : Chained writer) {place : Nat}
    (hbefore : settledUpTo writer.chain place = true)
    (hlink : writer.chain[place]? = some ⟨task, .waiting⟩) (version : Nat) :
    ¬ Executing writer version := by
  rintro ⟨i, other, hother⟩
  rcases Nat.lt_trichotomy i place with hlt | rfl | hgt
  · have hsettled := hchained.serial.settled_of_lt hbefore hlt hother
    cases hsettled
  · rw [hlink] at hother
    cases hother
  · have hsettled := hchained.serial hgt hlink hother nofun
    cases hsettled

theorem executing_setStatus {place : Nat} {link : WriteLink}
    (hlink : writer.chain[place]? = some link)
    (hold : ∀ version, link.status ≠ .running (.executing version))
    (hchain : after.chain = setStatus writer.chain place status)
    (hnew : ∀ version, status ≠ .running (.executing version)) (version : Nat) :
    Executing after version ↔ Executing writer version := by
  unfold Executing
  rw [hchain]
  constructor
  · rintro ⟨i, task, hexecuting⟩
    obtain ⟨old, hbefore, -, ⟨-, hstatus⟩ | ⟨-, rfl⟩⟩ := getElem?_setStatus_cases hexecuting
    · exact absurd hstatus.symm (hnew version)
    · exact ⟨i, task, hbefore⟩
  · rintro ⟨i, task, hexecuting⟩
    have hne : i ≠ place := by
      rintro rfl
      rw [hlink] at hexecuting
      exact hold version (congrArg Link.status (some.inj hexecuting))
    exact ⟨i, task, (getElem?_setStatus_ne hne _).trans hexecuting⟩

theorem executing_enqueue (hchain : after.chain = enqueue writer.chain task) (version : Nat) :
    Executing after version ↔ Executing writer version := by
  grind [Executing, getElem?_enqueue_cases, List.getElem?_append_left, enqueue]

namespace Synced

theorem frame {after : RowWriter} (hsynced : Synced writer)
    (hexecuting : ∀ version, Executing after version ↔ Executing writer version)
    (hstarted : after.started = writer.started) (houtcomes : after.outcomes = writer.outcomes)
    (hrow : after.row = writer.row) : Synced after := by
  constructor
  all_goals grind [cases Synced]

theorem startUpdate (hsynced : Synced writer) (hchained : Chained writer) {place : Nat}
    {task : WriteTask} (hbefore : settledUpTo writer.chain place = true)
    (hlink : writer.chain[place]? = some ⟨task, .waiting⟩) (bestEffort : Bool) (version : Nat) :
    Synced (writer.startUpdate place bestEffort version) := by
  have hidle := hchained.idle_of_waiting hbefore hlink
  obtain ⟨hlength, -⟩ := hsynced.idle hidle
  have hnew : Executing (writer.startUpdate place bestEffort version) version :=
    ⟨place, task, getElem?_setStatus_self hlink _⟩
  constructor
  · rintro other ⟨i, task', hother⟩
    obtain ⟨old, hold, -, ⟨-, hstatus⟩ | ⟨-, rfl⟩⟩ := getElem?_setStatus_cases hother
    · grind [startUpdate]
    · exact absurd ⟨i, task', hold⟩ (hidle other)
  · intro hnone
    exact absurd hnew (hnone version)

theorem returned (hsynced : Synced writer) (hchained : Chained writer) {place : Nat}
    {task : WriteTask} {version : Nat} (ok : Bool)
    (hlink : writer.chain[place]? = some ⟨task, .running (.executing version)⟩) :
    Synced { writer with
      chain := setStatus writer.chain place (.running (.returned ok))
      row := if ok then some version else writer.row
      outcomes := writer.outcomes ++ [ok] } := by
  obtain ⟨hlength, hlast⟩ := hsynced.executing version ⟨place, task, hlink⟩
  constructor
  · rintro other ⟨i, task', hother⟩
    obtain ⟨old, hold, -, ⟨-, hstatus⟩ | ⟨hne, rfl⟩⟩ := getElem?_setStatus_cases hother
    · cases hstatus
    · exact absurd (hchained.serial.running_unique hold hlink rfl rfl) hne
  · grind

theorem move {after : RowWriter} (hsynced : Synced writer) (hchained : Chained writer)
    (hmove : Move writer after) : Synced after := by
  have hsame : ∀ version, Executing writer version ↔ Executing writer version := fun _ => Iff.rfl
  cases hmove with
  | note | change | dirty | accept | await | awaitAgain | resolve =>
    exact hsynced.frame hsame rfl rfl rfl
  | trail | require => exact hsynced.frame (executing_enqueue rfl) rfl rfl rfl
  | startTrailing place hbefore hticket hdirty =>
    have hlink := hchained.ticketed place hticket
    have hnew := hsynced.startUpdate hchained hbefore hlink true writer.version
    exact ⟨hnew.executing, hnew.idle⟩
  | startRequired place write hbefore hlink =>
    exact hsynced.startUpdate hchained hbefore hlink false _
  | skipStale _ _ hlink | skipClean _ _ hlink | settled _ _ _ hlink =>
    exact hsynced.frame (executing_setStatus hlink nofun rfl nofun) rfl rfl rfl
  | returned place task version ok hlink => exact hsynced.returned hchained ok hlink

end Synced

/-! ## What a flush has waited for -/

/-- If the last update succeeded, the row is as new as what was accepted before the flush. -/
def Satisfied (resolved : ResolvedFlush) : Prop :=
  ∀ version, resolved.wanted = some version →
    resolved.outcomes ≠ [] ∧
      (resolved.outcomes.getLast? = some true →
        ∃ stored, resolved.row = some stored ∧ version ≤ stored)

structure Sound (writer : RowWriter) : Prop where
  chained : Chained writer
  ascending : Ascending writer
  covered : Covered writer
  synced : Synced writer
  satisfied : ∀ resolved ∈ writer.resolved, Satisfied resolved

section

variable (hsound : Sound writer) {pending : PendingFlush} (hpending : pending ∈ writer.flushes)
  (htail : settledUpTo writer.chain writer.chain.length = true)

include hsound hpending htail

theorem Sound.stored_of_settled (hwanted : pending.wanted = some version) :
    Stored writer version := by
  have hsettled : ∀ (place : Nat) (task : WriteTask),
      writer.chain[place]? ≠ some ⟨task, .waiting⟩ := by
    intro place task hlink
    have hlt : place < writer.chain.length := (List.getElem?_eq_some_iff.1 hlink).1
    have := hsound.chained.serial.settled_of_lt htail hlt hlink
    cases this
  rcases (hsound.covered.wanted pending hpending version hwanted).2 with
    ⟨-, hticket⟩ | ⟨place, write, hlink, -⟩ | hstored
  · obtain ⟨place, hplace⟩ := isSome_iff_exists.1 hticket
    exact absurd (hsound.chained.ticketed place hplace) (hsettled place _)
  · exact absurd hlink (hsettled place _)
  · exact hstored

theorem Sound.satisfied_of_settled :
    Satisfied { wanted := pending.wanted, row := writer.row, outcomes := writer.outcomes } := by
  intro version hwanted
  obtain ⟨update, hupdate, hle⟩ := hsound.stored_of_settled hpending htail hwanted
  have hidle : ∀ version, ¬ Executing writer version := by
    rintro version ⟨place, task, hlink⟩
    have hlt : place < writer.chain.length := (List.getElem?_eq_some_iff.1 hlink).1
    have := hsound.chained.serial.settled_of_lt htail hlt hlink
    cases this
  obtain ⟨hlength, hrow⟩ := hsound.synced.idle hidle
  obtain hempty | ⟨earlier, last, hstarted⟩ := eq_nil_or_concat writer.started
  all_goals grind [cases Sound, cases Ascending]

end

theorem Sound.move (hsound : Sound writer) (hmove : Move writer after) :
    Sound after := by
  refine ⟨hsound.chained.move hmove, hsound.ascending.move hsound.chained hmove,
    hsound.covered.move hmove, hsound.synced.move hsound.chained hmove, ?_⟩
  cases hmove with
  | resolve index pending hpending htail =>
    grind [Sound.satisfied_of_settled, cases Sound]
  | _ => exact hsound.satisfied

theorem sound_newWriter (kind : WriterKind) (lastWrittenAt : Nat) :
    Sound (newWriter kind lastWrittenAt) where
  chained :=
    ⟨Serial.nil, nofun, nofun, fun place write status hlink => by simp [newWriter] at hlink, nofun⟩
  ascending :=
    ⟨.nil, nofun, fun place write snapshot hlink => by simp [newWriter] at hlink,
      fun i j first second a b hlt hlink => by simp [newWriter] at hlink, nofun⟩
  covered := ⟨nofun, nofun⟩
  synced :=
    ⟨fun version ⟨place, task, hlink⟩ => by simp [newWriter] at hlink, fun _ => ⟨rfl, nofun⟩⟩
  satisfied := nofun

theorem sound_run (kind : WriterKind) (lastWrittenAt : Nat) (actions : List Action) :
    Sound (run (newWriter kind lastWrittenAt) actions) :=
  run_keeps (fun hsound hmove => hsound.move hmove) (sound_newWriter kind lastWrittenAt) actions

end MangoStudio.Generation.RowWriter
