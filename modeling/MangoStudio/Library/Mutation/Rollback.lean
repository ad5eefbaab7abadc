import MangoStudio.Lib.UndoLog
import MangoStudio.Library.Mutation.WriteSpec

/-!
# What a rollback does

The entries that an apply has written are an undo log of the destinations: each
one names a path and holds what was there before the write, as its copy or as
the absence of one (`copyOf`).

A rollback whose calls all succeed leaves the destinations as the undo log says
(`guarantee_rollback`); one in which a call fails reports that it is not
complete.  On the way only the paths of the entries change, and the copies stay.
-/

namespace MangoStudio.Library.Mutation

open Attempt List

/-! ## Entries as an undo log -/

/-- What the destinations hold. -/
def Disk.contents (disk : Disk) : String → Option Tree := fun path => disk.tree (.resource path)

/-- What an entry says was at its path. -/
def Disk.copyOf (disk : Disk) (entry : BackupEntry) : Option Tree := entry.backupPath.bind disk.tree

/-- The entry's copy, where it names one, is in the set and holds the value. -/
structure Held (backupId : String) (before : BackupEntry → Option Tree) (disk : Disk)
    (entry : BackupEntry) : Prop where
  present : ∀ place, entry.backupPath = some place →
    ∃ locationId slug, place = .copy backupId locationId slug
  copy : disk.copyOf entry = before entry
  named : entry.backupPath = none ↔ before entry = none

theorem Held.stay {backupId : String} {before : BackupEntry → Option Tree} {start now : Disk}
    {entry : BackupEntry} (h : Held backupId before start entry)
    (hstay : CopiesStay backupId start now) : Held backupId before now entry := by
  refine ⟨h.present, ?_, h.named⟩
  cases hplace : entry.backupPath with
  | none =>
    rw [← h.copy]
    unfold Disk.copyOf
    rw [hplace]
    rfl
  | some place =>
    obtain ⟨locationId, slug, rfl⟩ := h.present place hplace
    have hcopy := h.copy
    unfold Disk.copyOf at hcopy ⊢
    rw [hplace] at hcopy ⊢
    cases hbefore : before entry with
    | none => exact absurd (h.named.2 hbefore) (by rw [hplace]; nofun)
    | some tree => exact hstay locationId slug tree (hcopy.trans hbefore)

/-! ## Calls that put an entry back -/

/-- A call that puts an entry back has failed. -/
def Machine.Uncompensated (machine : Machine) : Prop :=
  ∃ step : Step, step.compensates = true ∧ machine.Failed step

/-- The calls of a rollback. -/
def Step.Backward (step : Step) : Prop := step.compensates = true ∨ step = .restoreCleanup

variable {machine : Machine}

theorem uncompensated_next {step : Step} {succeeded : Bool} {disk : Disk} :
    (machine.next step succeeded disk).Uncompensated ↔
      machine.Uncompensated ∨ (step.compensates = true ∧ succeeded = false) := by
  constructor
  · rintro ⟨other, hother, hfailed⟩
    rcases Machine.failed_next.1 hfailed with hbefore | ⟨rfl, hnow⟩
    · exact .inl ⟨other, hother, hbefore⟩
    · exact .inr ⟨hother, hnow⟩
  · rintro (⟨other, hother, hfailed⟩ | ⟨hstep, hnow⟩)
    · exact ⟨other, hother, Machine.failed_next.2 (.inl hfailed)⟩
    · exact ⟨step, hstep, Machine.failed_next.2 (.inr ⟨rfl, hnow⟩)⟩

theorem Machine.Since.uncompensated {rel : Disk → Disk → Prop} {may : Step → Prop}
    {start now : Machine} (h : Since rel may start now) (hstart : start.Uncompensated) :
    now.Uncompensated := by
  obtain ⟨step, hstep, hfailed⟩ := hstart
  exact ⟨step, hstep, h.failed hfailed⟩

theorem Machine.Since.compensated {rel : Disk → Disk → Prop} {start now : Machine}
    (h : Since rel Step.Forward start now) (hstart : ¬ start.Uncompensated) :
    ¬ now.Uncompensated := by
  rintro ⟨step, hstep, hfailed⟩
  refine hstart ⟨step, hstep, h.failed_before ?_ hfailed⟩
  intro hforward
  rw [Step.Forward, hstep] at hforward
  cases hforward

section Rollback

variable (world : World) {backupId path : String} {before : BackupEntry → Option Tree}
variable {entry : BackupEntry} {fine : Prop}

/-- Before an entry is put back. -/
structure Ready (backupId : String) (before : BackupEntry → Option Tree) (fine : Prop)
    (entry : BackupEntry) (machine : Machine) : Prop where
  held : Held backupId before machine.disk entry
  log : machine.Uncompensated → fine

/-- The entry is put back. -/
structure Restored (before : BackupEntry → Option Tree) (fine : Prop) (entry : BackupEntry)
    (machine : Machine) : Prop where
  home : machine.disk.tree (.resource entry.resolvedPath) = before entry
  log : machine.Uncompensated → fine

abbrev WithinRollback (backupId path : String) : Machine → Machine → Prop :=
  Machine.Since (Framed backupId path) Step.Backward

theorem Ready.next {step : Step} {disk : Disk} (h : Ready backupId before fine entry machine)
    (hframed : Framed backupId path machine.disk disk) :
    Ready backupId before fine entry (machine.next step true disk) := by
  refine ⟨h.held.stay hframed.copy, fun hfailed => ?_⟩
  rcases uncompensated_next.1 hfailed with hbefore | ⟨_, hnow⟩
  · exact h.log hbefore
  · cases hnow

theorem uncompensated_failed {step : Step} {disk : Disk} (hstep : step.compensates = true) :
    (machine.next step false disk).Uncompensated :=
  uncompensated_next.2 (.inr ⟨hstep, rfl⟩)

theorem guarantee_cleanup {suffix : String} :
    Guarantee (WithinRollback backupId path) Machine.Uncompensated
      (world.removeAll .restoreCleanup (.sibling path suffix .restore))
      (fun _ machine => machine.Uncompensated) fun _ machine => machine.Uncompensated :=
  guarantee_removeAll world (.inr rfl)
    (fun _ h => ⟨framed_put (.inl rfl), uncompensated_next.2 (.inl h)⟩)
    (fun _ _ h => uncompensated_next.2 (.inl h))
    fun _ _ _ h => ⟨framed_put (.inl rfl), uncompensated_next.2 (.inl h)⟩

theorem guarantee_restoreEntry {locationId slug : String}
    (hbackup : entry.backupPath = some (.copy backupId locationId slug)) :
    Guarantee (WithinRollback backupId entry.resolvedPath)
      (Ready backupId before fine entry) (world.restoreEntry entry)
      (fun _ => Restored before fine entry) fun _ machine => machine.Uncompensated := by
  unfold World.restoreEntry
  rw [hbackup]
  refine guarantee_andThen (guarantee_look fun _ h => h) fun suffix => ?_
  refine guarantee_andThen (guarantee_read world (.inl rfl)
    (fun machine _ h _ => h.next (refl_of (Framed backupId entry.resolvedPath) _))
    fun _ _ _ => uncompensated_failed rfl) fun _ => ?_
  -- The stage holds what the entry says was there.
  have hcopy : Guarantee (WithinRollback backupId entry.resolvedPath)
      (Ready backupId before fine entry)
      (world.copyTree .restoreCopy (.copy backupId locationId slug)
        (.sibling entry.resolvedPath suffix .restore))
      (fun _ machine => Ready backupId before fine entry machine ∧
        machine.disk.tree (.sibling entry.resolvedPath suffix .restore) = before entry)
      fun _ machine => machine.Uncompensated := by
    refine guarantee_copyTree world (.inl rfl) ?_ (fun _ _ _ => uncompensated_failed rfl)
      fun _ _ _ _ _ => ⟨framed_put (.inl rfl), uncompensated_failed rfl⟩
    intro machine tree h hsource _
    have hframed : Framed backupId entry.resolvedPath machine.disk
        (machine.disk.put (.sibling entry.resolvedPath suffix .restore) (some tree)) :=
      framed_put (.inl rfl)
    refine ⟨hframed, h.next hframed, ?_⟩
    rw [← h.held.copy, Disk.copyOf, hbackup]
    exact (Disk.put_self ..).trans hsource.symm
  refine guarantee_bind (guarantee_observe hcopy) fun copied => ?_
  cases copied with
  | error error =>
    refine guarantee_bind (guarantee_observe
      (guarantee_cleanup world)) fun cleaned => guarantee_throw fun machine h => ?_
    cases cleaned with
    | ok | error => exact h
  | ok _ =>
    have hremove : Guarantee (WithinRollback backupId entry.resolvedPath)
        (fun machine => Ready backupId before fine entry machine ∧
          machine.disk.tree (.sibling entry.resolvedPath suffix .restore) = before entry)
        (world.removeAll .restoreRemove (.resource entry.resolvedPath))
        (fun _ machine => Ready backupId before fine entry machine ∧
          machine.disk.tree (.sibling entry.resolvedPath suffix .restore) = before entry)
        fun _ machine => machine.Uncompensated := by
      refine guarantee_removeAll world (.inl rfl) ?_ (fun _ _ _ => uncompensated_failed rfl)
        fun _ _ _ _ => ⟨framed_put (.inl rfl), uncompensated_failed rfl⟩
      intro machine h
      have hframed : Framed backupId entry.resolvedPath machine.disk
          (machine.disk.put (.resource entry.resolvedPath) none) := framed_put (.inl rfl)
      exact ⟨hframed, h.1.next hframed, (Disk.put_of_ne _ _ (by nofun)).trans h.2⟩
    refine guarantee_andThen hremove fun _ => ?_
    refine guarantee_rename world (.inl rfl) ?_ fun _ _ _ => uncompensated_failed rfl
    intro machine tree h hsource
    have hframed : Framed backupId entry.resolvedPath machine.disk
        ((machine.disk.put (.sibling entry.resolvedPath suffix .restore) none).put
          (.resource entry.resolvedPath) (some tree)) := framed_move rfl rfl
    refine ⟨hframed, ?_, (h.1.next hframed).log⟩
    rw [← h.2, hsource]
    exact Disk.put_self ..

theorem guarantee_compensate :
    Guarantee (WithinRollback backupId entry.resolvedPath)
      (Ready backupId before fine entry) (world.compensate entry)
      (fun _ => Restored before fine entry) fun _ machine => machine.Uncompensated := by
  unfold World.compensate
  cases hbackup : entry.backupPath with
  | some place =>
    refine Guarantee.of_fact (fun _ h => h.held.present place hbackup) fun hplace => ?_
    obtain ⟨locationId, slug, rfl⟩ := hplace
    exact guarantee_restoreEntry world hbackup
  | none =>
    refine guarantee_removeAll world (.inl rfl) ?_ (fun _ _ _ => uncompensated_failed rfl)
      fun _ _ _ _ => ⟨framed_put (.inl rfl), uncompensated_failed rfl⟩
    intro machine h
    have hframed : Framed backupId entry.resolvedPath machine.disk
        (machine.disk.put (.resource entry.resolvedPath) none) := framed_put (.inl rfl)
    refine ⟨hframed, ?_, (h.next hframed).log⟩
    rw [h.held.named.1 hbackup]
    exact Disk.put_self ..

/-! ## The whole rollback -/

/-- Before the entries are put back. -/
structure Pending (backupId : String) (before : BackupEntry → Option Tree) (fine : Prop)
    (entries : List BackupEntry) (contents : String → Option Tree) (machine : Machine) : Prop where
  held : ∀ entry ∈ entries, Held backupId before machine.disk entry
  contents : machine.disk.contents = contents
  log : machine.Uncompensated → fine

theorem contents_update {start now : Disk} {value : Option Tree}
    (hframed : Framed backupId path start now) (hhome : now.tree (.resource path) = value) :
    now.contents = Function.update start.contents path value := by
  funext other
  by_cases hother : other = path
  · rw [hother, Function.update_self]
    exact hhome
  · rw [Function.update_of_ne hother]
    exact hframed.resource other hother

variable {contents : String → Option Tree} {touched : String → Prop}

/-- A compensation has failed, and the entries still have their copies. -/
def Stuck (backupId : String) (before : BackupEntry → Option Tree) (entries : List BackupEntry)
    (machine : Machine) : Prop :=
  (∀ entry ∈ entries, Held backupId before machine.disk entry) ∧ machine.Uncompensated

section

variable {entries : List BackupEntry} {ε : Type} {never : ε → Machine → Prop}

theorem guarantee_putBack_head (htouched : touched entry.resolvedPath) :
    Guarantee (Machine.Since (Retreated backupId touched) Step.Backward)
      (Pending backupId before fine (entry :: entries) contents)
      (Attempt.settle (world.compensate entry))
      (Ends
        (fun _ => Pending backupId before fine entries
          (Function.update contents entry.resolvedPath (before entry)))
        fun _ => Stuck backupId before entries) never := by
  have hstay : ∀ start now : Machine, Pending backupId before fine (entry :: entries) contents start →
      WithinRollback backupId entry.resolvedPath start now →
      ∀ other ∈ entries, Held backupId before now.disk other :=
    fun start now hstart hsince other hother =>
    (hstart.held other (mem_cons_of_mem entry hother)).stay hsince.disk.copy
  refine guarantee_settle
    ((@guarantee_compensate world backupId before entry fine).deduce ?_ ?_ ?_ ?_)
  · exact fun _ h => ⟨h.held entry mem_cons_self, h.log⟩
  · exact fun _ _ h => h.mono (fun _ _ hframed => hframed.retreated htouched) fun _ hstep => hstep
  · intro start _ now hstart hsince hrestored
    refine ⟨hstay start now hstart hsince, ?_, hrestored.log⟩
    rw [← hstart.contents]
    exact contents_update hsince.disk hrestored.home
  · exact fun start _ now hstart hsince hfailed => ⟨hstay start now hstart hsince, hfailed⟩

theorem guarantee_putBack_failed (htouched : ∀ entry ∈ entries, touched entry.resolvedPath) :
    Guarantee (Machine.Since (Retreated backupId touched) Step.Backward)
      (Stuck backupId before entries)
      (entries.mapM fun entry => Attempt.settle (world.compensate entry))
      (fun _ machine => machine.Uncompensated) never := by
  refine Guarantee.weaken (guarantee_mapM fun entry hentry => ?_) (fun _ _ h => h) (fun _ h => h)
    (fun _ _ h => h.2) fun _ _ h => h
  have hstuck : ∀ {start now : Machine}, Stuck backupId before entries start →
      WithinRollback backupId entry.resolvedPath start now → Stuck backupId before entries now :=
    fun hstart hsince => ⟨fun other hother => (hstart.1 other hother).stay hsince.disk.copy,
      hsince.uncompensated hstart.2⟩
  have hcompensate : Guarantee (Machine.Since (Retreated backupId touched) Step.Backward)
      (Stuck backupId before entries) (world.compensate entry)
      (fun _ => Stuck backupId before entries) fun _ => Stuck backupId before entries :=
    (@guarantee_compensate world backupId before entry True).deduce
      (fun _ h => ⟨h.1 entry hentry, fun _ => trivial⟩)
      (fun _ _ h => h.mono (fun _ _ hframed => hframed.retreated (htouched entry hentry))
        fun _ hstep => hstep)
      (fun _ _ _ hstart hsince _ => hstuck hstart hsince)
      fun _ _ _ hstart hsince _ => hstuck hstart hsince
  refine (guarantee_settle hcompensate).weaken (fun _ _ h => h) (fun _ h => h) ?_ fun _ _ h => h
  intro outcome machine h
  cases outcome with
  | ok | error => exact h

end

theorem guarantee_putBack (entries : List BackupEntry) {ε : Type} {never : ε → Machine → Prop}
    (htouched : ∀ entry ∈ entries, touched entry.resolvedPath) :
    Guarantee (Machine.Since (Retreated backupId touched) Step.Backward)
      (Pending backupId before fine entries contents)
      (entries.mapM fun entry => Attempt.settle (world.compensate entry))
      (fun outcomes machine => if outcomes.all fun outcome => outcome.isOk then
          Pending backupId before fine []
            (UndoLog.undo BackupEntry.resolvedPath before entries contents) machine
        else machine.Uncompensated) never := by
  induction entries generalizing contents with
  | nil =>
    rw [mapM_nil]
    exact guarantee_pure fun _ h => h
  | cons entry older ih =>
    rw [mapM_cons]
    have holder : ∀ other ∈ older, touched other.resolvedPath := fun other hother =>
      htouched other (mem_cons_of_mem entry hother)
    refine guarantee_bind (guarantee_putBack_head world (htouched entry mem_cons_self))
      fun outcome => ?_
    cases outcome with
    | ok _ =>
      refine guarantee_bind (ih holder) fun outcomes => guarantee_pure fun machine h => ?_
      rw [all_cons]
      exact h
    | error _ =>
      refine guarantee_bind (guarantee_putBack_failed world holder) fun outcomes =>
        guarantee_pure fun machine h => ?_
      rw [all_cons]
      exact h

theorem guarantee_rollback {written : List BackupEntry} {ε : Type} {never : ε → Machine → Prop}
    (htouched : ∀ entry ∈ written, touched entry.resolvedPath) :
    Guarantee (Machine.Since (Retreated backupId touched) Step.Backward)
      (Pending backupId before fine written contents) (world.rollback written)
      (fun complete machine => if complete then
          machine.disk.contents =
            UndoLog.undo BackupEntry.resolvedPath before written.reverse contents ∧
          (machine.Uncompensated → fine)
        else machine.Uncompensated) never := by
  have hreverse : ∀ machine, Pending backupId before fine written contents machine →
      Pending backupId before fine written.reverse contents machine := fun machine h =>
    ⟨fun entry hentry => h.held entry (mem_reverse.1 hentry), h.contents, h.log⟩
  refine Guarantee.pre_mono (guarantee_bind (guarantee_putBack world written.reverse fun entry hentry =>
    htouched entry (mem_reverse.1 hentry)) fun outcomes => ?_) hreverse
  refine guarantee_pure fun machine h => ?_
  split_ifs at h ⊢
  · exact ⟨h.contents, h.log⟩
  · exact h

end Rollback

end MangoStudio.Library.Mutation
