import MangoStudio.Library.Mutation.ApplyEnd

/-!
# An undo in which nothing fails

In a world without failures a call does what it is for (`runs_call`), so that an
entry whose destination is unchanged is put back: the disk afterwards is the disk
before with what the entry holds at its path (`runs_undoContained`).  By induction
over the entries an undo is `UndoLog.undo` (`runs_undoLoop`).
-/

namespace MangoStudio.Library.Mutation

open Attempt Function

/-! ## Worlds without failures -/

/-- No call fails and nothing interrupts. -/
structure World.Quiet (world : World) : Prop where
  calls : ∀ call, world.oracle call = none
  runs : ∀ boundary, world.interrupted boundary = none

/-- No name that the world draws is taken by a restore stage. -/
def World.Fresh (world : World) (disk : Disk) : Prop :=
  ∀ path call, disk.tree (.sibling path (world.suffix call) .restore) = none

/-! ## Ends of a computation -/

section Finish

variable {ε ε' α β : Type} {attempt : Attempt Machine ε α} {next : α → Attempt Machine ε β}
variable {start now : Machine} {value : α} {result : β} {disk after : Disk}

theorem finish_act (step : Machine → Machine × Except ε α) (start : Machine) :
    (Attempt.act step).finish start = ((step start).2, (step start).1) := rfl

theorem finish_bind_ok (h : attempt.finish start = (.ok value, now)) :
    (attempt >>= next).finish start = (next value).finish now := by
  rw [finish_bind, h]

theorem finish_mapError_ok {rename : ε → ε'} (h : attempt.finish start = (.ok value, now)) :
    (Attempt.mapError rename attempt).finish start = (.ok value, now) := by
  show ((attempt.finish start).1.mapError rename, (attempt.finish start).2) = _
  rw [h]
  rfl

/-- The computation gives the value and leaves the disk. -/
def Runs (attempt : Attempt Machine ε α) (start : Machine) (value : α) (disk : Disk) : Prop :=
  ∃ now, attempt.finish start = (.ok value, now) ∧ now.disk = disk

theorem Runs.bind (h : Runs attempt start value disk)
    (hnext : ∀ now, now.disk = disk → Runs (next value) now result after) :
    Runs (attempt >>= next) start result after := by
  obtain ⟨now, hfinish, hdisk⟩ := h
  obtain ⟨last, hlast, hafter⟩ := hnext now hdisk
  exact ⟨last, (finish_bind_ok hfinish).trans hlast, hafter⟩

theorem Runs.mapError {rename : ε → ε'} (h : Runs attempt start value disk) :
    Runs (Attempt.mapError rename attempt) start value disk := by
  obtain ⟨now, hfinish, hdisk⟩ := h
  exact ⟨now, finish_mapError_ok hfinish, hdisk⟩

theorem Runs.observe (h : Runs attempt start value disk) :
    Runs (Attempt.observe attempt) start (.ok value) disk := by
  obtain ⟨now, hfinish, hdisk⟩ := h
  refine ⟨now, ?_, hdisk⟩
  show (Except.ok (attempt.finish start).1, (attempt.finish start).2) = _
  rw [hfinish]

variable {world : World} {step : Step} {failed : String → ε}

theorem runs_call (hquiet : world.Quiet) {effect : Disk → Except ε (α × Disk)}
    {debris : Failure → Disk → Disk} (h : effect start.disk = .ok (value, disk)) :
    Runs (world.call step failed effect debris) start value disk :=
  ⟨start.next step true disk, by simp only [World.call, finish_act, hquiet.calls, h], rfl⟩

theorem runs_read (hquiet : world.Quiet) {answer : Disk → Except ε α}
    (h : answer start.disk = .ok value) :
    Runs (world.read step failed answer) start value start.disk :=
  runs_call hquiet (by rw [h]; rfl)

theorem runs_settle_read {answer : Disk → Except ε α}
    (hcall : world.oracle start.log.length = none) :
    Runs (Attempt.settle (world.read step failed answer) : Attempt Machine ε' _) start
      (answer start.disk) start.disk := by
  have hread : (world.read step failed answer).finish start =
      (answer start.disk, start.next step (answer start.disk).isOk start.disk) := by
    simp only [World.read, World.call, finish_act, hcall]
    cases answer start.disk <;> rfl
  refine ⟨start.next step (answer start.disk).isOk start.disk, ?_, rfl⟩
  show (Except.ok (Attempt.finish _ start).1, (Attempt.finish _ start).2) = _
  rw [hread]

theorem runs_copyTree (hquiet : world.Quiet) {source destination : Place} {tree : Tree}
    (hsource : start.disk.tree source = some tree)
    (hdestination : start.disk.tree destination = none) :
    Runs (world.copyTree step source destination) start ()
      (start.disk.put destination (some tree)) :=
  runs_call hquiet (by simp [hsource, hdestination])

theorem runs_rename (hquiet : world.Quiet) {source destination : Place} {tree : Tree}
    (hsource : start.disk.tree source = some tree)
    (hdestination : start.disk.tree destination = none) :
    Runs (world.rename step source destination) start ()
      ((start.disk.put source none).put destination (some tree)) :=
  runs_call hquiet (by cases tree <;> simp [hsource, hdestination, World.obstacle])

end Finish

/-! ## One entry -/

/-- What is at the path of an entry has the hash that was written, or no hash. -/
def Unchanged (world : World) (entry : BackupEntry) (content : Option Tree) : Prop :=
  ∀ tree digest, content = some tree → world.hash entry.kind tree = .ok digest →
    digest = entry.writtenContentHash

variable {disk : Disk}

section Entry

variable {world : World} {registry : Registry} {backupId : String} {entry : BackupEntry}
variable {before : BackupEntry → Option Tree} {start : Machine}

theorem put_restored {path suffix : String} (tree : Tree)
    (hfresh : disk.tree (.sibling path suffix .restore) = none) :
    (((disk.put (.sibling path suffix .restore) (some tree)).put (.resource path) none).put
      (.sibling path suffix .restore) none).put (.resource path) (some tree) =
      disk.put (.resource path) (some tree) := by
  grind [Disk.put, update_comm, update_idem, update_eq_self]

theorem runs_restoreEntry (hquiet : world.Quiet) {place : Place} {tree : Tree}
    (hplace : entry.backupPath = some place) (htree : start.disk.tree place = some tree)
    (hfresh : world.Fresh start.disk) :
    Runs (world.restoreEntry entry) start ()
      (start.disk.put (.resource entry.resolvedPath) (some tree)) := by
  have hstage := hfresh entry.resolvedPath start.log.length
  unfold World.restoreEntry
  rw [hplace]
  refine Runs.bind ⟨start, rfl, rfl⟩ fun machine hmachine => ?_
  rw [← hmachine] at htree hstage ⊢
  have hdir : Runs (world.createDirAll .restoreDir) machine () machine.disk := runs_read hquiet rfl
  refine hdir.bind fun opened hopened => ?_
  rw [← hopened] at htree hstage ⊢
  refine (runs_copyTree hquiet htree hstage).observe.bind fun copied hcopied => ?_
  refine Runs.bind (runs_call hquiet rfl) fun removed hremoved => ?_
  rw [← put_restored tree hstage, ← hcopied, ← hremoved]
  refine runs_rename hquiet ?_ ?_
  · rw [hremoved, Disk.put_of_ne _ _ (by nofun), hcopied, Disk.put_self]
  · rw [hremoved, Disk.put_self]

theorem runs_undoContained (hquiet : world.Quiet)
    (hheld : Held backupId before start.disk entry) (hfresh : world.Fresh start.disk)
    (hunchanged : Unchanged world entry (start.disk.contents entry.resolvedPath))
    (report : UndoResult) :
    ∃ result, Runs (world.undoContained report entry) start result
        (start.disk.put (.resource entry.resolvedPath) (before entry)) ∧
      result.skipped = report.skipped := by
  obtain ⟨current, hhash, hcurrent⟩ : ∃ current,
      Runs (Attempt.settle (world.hashAt .undoHash entry.resolvedPath entry.kind) :
        Attempt Machine UndoError _) start current start.disk ∧
      (current.toOption.any fun hash => hash ≠ entry.writtenContentHash) = false := by
    refine ⟨_, runs_settle_read (hquiet.calls _), ?_⟩
    cases htree : start.disk.tree (.resource entry.resolvedPath) with
    | none => rfl
    | some tree =>
      dsimp only
      cases hhash : world.hash entry.kind tree with
      | error error => rfl
      | ok digest => exact decide_eq_false (not_not.2 (hunchanged tree digest htree hhash))
  unfold World.undoContained
  cases hplace : entry.backupPath with
  | none =>
    refine ⟨report.remove entry, hhash.bind fun machine hmachine => ?_, rfl⟩
    rw [hcurrent, hheld.named.1 hplace, ← hmachine]
    have hremove : Runs (world.removeAll .undoRemove (.resource entry.resolvedPath)) machine ()
        (machine.disk.put (.resource entry.resolvedPath) none) := runs_call hquiet rfl
    exact hremove.mapError.bind fun now hnow => ⟨now, rfl, hnow⟩
  | some place =>
    obtain ⟨locationId, slug, rfl⟩ := hheld.present place hplace
    obtain ⟨tree, hbefore⟩ : ∃ tree, before entry = some tree := by
      refine Option.ne_none_iff_exists'.1 fun hnone => ?_
      rw [hheld.named.2 hnone] at hplace
      cases hplace
    have htree : start.disk.tree (.copy backupId locationId slug) = some tree := by
      rw [← hbefore, ← hheld.copy, Disk.copyOf, hplace]
      rfl
    refine ⟨report.restore entry, hhash.bind fun machine hmachine => ?_, rfl⟩
    rw [← hmachine] at htree hfresh
    rw [hcurrent, hbefore, ← hmachine]
    have hpresent : Runs (world.exists_ .undoPresent (.copy backupId locationId slug)) machine true
        machine.disk := runs_read hquiet (by rw [htree]; rfl)
    refine hpresent.mapError.bind fun now hnow => ?_
    rw [← hnow] at htree hfresh ⊢
    exact (runs_restoreEntry hquiet hplace htree hfresh).mapError.bind fun last hlast =>
      ⟨last, rfl, hlast⟩

end Entry

/-! ## The run -/

theorem contents_put_resource (disk : Disk) (path : String) (tree : Option Tree) :
    (disk.put (.resource path) tree).contents = update disk.contents path tree := by
  refine funext fun other => ?_
  by_cases hother : other = path
  · rw [hother, update_self]
    exact Disk.put_self ..
  · rw [update_of_ne hother]
    exact Disk.put_of_ne _ _ fun h => hother (Place.resource.inj h)

/-- The entries have their copies, no stage is in the way, and every destination is unchanged when
its turn comes. -/
structure Rewinding (world : World) (backupId : String) (before : BackupEntry → Option Tree)
    (entries : List BackupEntry) (disk : Disk) : Prop where
  held : ∀ entry ∈ entries, Held backupId before disk entry
  fresh : world.Fresh disk
  rewinds : UndoLog.Rewinds BackupEntry.resolvedPath before (Unchanged world) entries disk.contents

section Run

variable {world : World} {registry : Registry} {backupId : String}
variable {before : BackupEntry → Option Tree}

theorem Rewinding.put {entry : BackupEntry} {rest : List BackupEntry}
    (h : Rewinding world backupId before (entry :: rest) disk) :
    Rewinding world backupId before rest
      (disk.put (.resource entry.resolvedPath) (before entry)) where
  held := fun other hother => (h.held other (List.mem_cons_of_mem entry hother)).stay
    fun _ _ _ hcopy => (Disk.put_of_ne _ _ (by nofun)).trans hcopy
  fresh := fun path call => (Disk.put_of_ne _ _ (by nofun)).trans (h.fresh path call)
  rewinds := by
    rw [contents_put_resource]
    exact h.rewinds.2

theorem runs_undoLoop (hquiet : world.Quiet) {entries : List BackupEntry}
    (hcontained : ∀ entry ∈ entries,
      registry.contained entry.locationId entry.resolvedPath = .ok ())
    {start : Machine} (hstart : Rewinding world backupId before entries start.disk) (done : Nat)
    (report : UndoResult) :
    ∃ result after, Runs (world.undoLoop registry done report entries) start result after ∧
      result.skipped = report.skipped ∧
      after.contents =
        UndoLog.undo BackupEntry.resolvedPath before entries start.disk.contents := by
  induction entries generalizing start done report with
  | nil => exact ⟨report, start.disk, ⟨start, rfl, rfl⟩, rfl, rfl⟩
  | cons entry rest ih =>
    obtain ⟨next, ⟨now, hentry, hnow⟩, hnext⟩ := runs_undoContained hquiet
      (hstart.held entry List.mem_cons_self) hstart.fresh hstart.rewinds.1 report
    obtain ⟨result, after, hrest, hresult, hafter⟩ :=
      ih (fun other hother => hcontained other (List.mem_cons_of_mem entry hother))
        (hnow.symm ▸ hstart.put) (done + 1) next
    refine ⟨result, after, ?_, hresult.trans hnext, ?_⟩
    · rw [World.undoLoop, hquiet.runs, World.undoEntry, hcontained entry List.mem_cons_self]
      obtain ⟨last, hlast, hdisk⟩ := hrest
      exact ⟨last, (finish_bind_ok hentry).trans hlast, hdisk⟩
    · rw [hafter, hnow, contents_put_resource]
      rfl

/-- The report of an undo, or its error, and the machine that it leaves. -/
def World.runUndo (world : World) (registry : Registry) (backupId : String) (disk : Disk) :
    Except UndoError UndoResult × Machine :=
  (world.executeUndo registry backupId).finish disk.boot

theorem runUndo_quiet (hquiet : world.Quiet) {manifest : BackupManifest}
    (hmanifest : disk.manifest backupId = .written manifest)
    (hcontained : ∀ entry ∈ manifest.entries, registry.contained entry.locationId
      entry.resolvedPath = .ok ())
    (hdisk : Rewinding world backupId before manifest.entries.reverse disk) :
    ∃ report, (world.runUndo registry backupId disk).1 = .ok report ∧ report.skipped = [] ∧
      (world.runUndo registry backupId disk).2.disk.contents =
        UndoLog.undo BackupEntry.resolvedPath before manifest.entries.reverse disk.contents := by
  have hread : (world.readManifest backupId).finish disk.boot =
      (.ok (some manifest), disk.boot.next .readManifest true disk) := by
    simp only [World.readManifest, World.read, World.call, finish_act, hquiet.calls]
    rw [show disk.boot.disk = disk from rfl, hmanifest]
    rfl
  have hrewinding : Rewinding world backupId before manifest.entries.reverse
      (disk.boot.next .readManifest true disk).disk := hdisk
  obtain ⟨report, after, ⟨now, hfinish, rfl⟩, hskipped, hafter⟩ := runs_undoLoop hquiet
    (fun entry hentry => hcontained entry (List.mem_reverse.1 hentry)) hrewinding 0 { backupId }
  have hrun : world.runUndo registry backupId disk = (.ok report, now) := by
    unfold World.runUndo World.executeUndo
    rw [finish_bind_ok (finish_mapError_ok hread)]
    exact hfinish
  rw [hrun]
  exact ⟨report, rfl, hskipped, hafter⟩

end Run

end MangoStudio.Library.Mutation
