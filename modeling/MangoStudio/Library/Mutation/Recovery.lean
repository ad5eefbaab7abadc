import MangoStudio.Library.Mutation.RemovalLaw
import MangoStudio.Library.Mutation.UndoRun

/-!
# What can be recovered

* `originals_survive`: at every moment of an apply and of a removal, each tree that
  was there before is whole somewhere on disk.  An apply has it in place, in a
  sibling that keeps trees, or as the copy of that destination in the set (`Safe`).
  A removal has it in place or in its `.removing` sibling until the manifest that
  restores it from the set is on disk (`RemovalSafe`).
* `undo_inverts`: an undo of a mutation that succeeded leaves every destination as
  it was before.  The entries of the manifest are an undo log: that of an apply
  because the run kept it so, entry by entry; that of a removal because its
  destinations are distinct and gone.

The moments of a run are the disks between its calls.  A process that stops inside
a call leaves what a failure of that call leaves, so that the moment belongs to a
run of another world: the statement is for all of them.
-/

namespace MangoStudio.Library.Mutation

open List

/-! ## During a mutation -/

/-- No run of either engine loses a tree, whatever fails and wherever it stops; and a removal has
its manifest on disk before a staged tree goes. -/
theorem originals_survive (world : World) (disk : Disk) :
    (∀ (context : MutationContext) (operations : List ApplyOperation),
      (world.runApply context operations disk).2.Always
        (Safe context.registry context.backupId disk)) ∧
    ∀ (context : RemovalContext) (operations : List RemovalOperation),
      (world.runRemoval context operations disk).2.Always
        (RemovalSafe context.backupId disk) :=
  ⟨fun context operations => (runApply_spec world context operations disk).1,
    fun context operations => (runRemoval_spec world context operations disk).1⟩

/-! ## After a mutation -/

/-- The destinations and the set are as the mutation left them. -/
structure Undisturbed (backupId : String) (named : String → Prop) (after later : Disk) : Prop where
  contents : ∀ path, named path → later.contents path = after.contents path
  copy : ∀ locationId slug,
    later.tree (.copy backupId locationId slug) = after.tree (.copy backupId locationId slug)
  manifest : later.manifest backupId = after.manifest backupId

/-- The undo of the set that a mutation returned puts every destination back. -/
def Inverted (undoer : World) (registry : Registry) (returned : Option String)
    (named : String → Prop) (before later : Disk) : Prop :=
  ∃ backupId report, returned = some backupId ∧
    (undoer.runUndo registry backupId later).1 = .ok report ∧ report.skipped = [] ∧
    ∀ path, named path →
      (undoer.runUndo registry backupId later).2.disk.contents path = before.contents path

section Inverted

variable {undoer : World} {registry : Registry} {backupId : String} {named : String → Prop}
variable {base after later : Disk} {before : BackupEntry → Option Tree}

theorem Held.undisturbed {entry : BackupEntry} (h : Held backupId before after entry)
    (hlater : Undisturbed backupId named after later) : Held backupId before later entry :=
  h.stay fun locationId slug _ hcopy => (hlater.copy locationId slug).trans hcopy

theorem inverted_of_log (hquiet : undoer.Quiet) (hfresh : undoer.Fresh later)
    (hlater : Undisturbed backupId named after later) {manifest : BackupManifest}
    (hmanifest : after.manifest backupId = .written manifest)
    (hcontained : ∀ entry ∈ manifest.entries,
      registry.contained entry.locationId entry.resolvedPath = .ok ())
    (hnamed : ∀ entry ∈ manifest.entries, named entry.resolvedPath)
    (hheld : ∀ entry ∈ manifest.entries, Held backupId before after entry)
    (hrewinds : UndoLog.Rewinds BackupEntry.resolvedPath before (Unchanged undoer)
      manifest.entries.reverse after.contents)
    (hundone : UndoLog.undo BackupEntry.resolvedPath before manifest.entries.reverse
      after.contents = base.contents) :
    Inverted undoer registry (some backupId) named base later := by
  have hrewinding : Rewinding undoer backupId before manifest.entries.reverse later := by
    refine ⟨fun entry hentry => (hheld entry (mem_reverse.1 hentry)).undisturbed hlater,
      hfresh, hrewinds.agree fun entry hentry => ?_⟩
    exact (hlater.contents _ (hnamed entry (mem_reverse.1 hentry))).symm
  obtain ⟨report, hreport, hskipped, hcontents⟩ :=
    runUndo_quiet hquiet (hlater.manifest.trans hmanifest) hcontained hrewinding
  refine ⟨backupId, report, rfl, hreport, hskipped, fun path hpath => ?_⟩
  rw [hcontents, ← hundone]
  exact UndoLog.undo_apply_congr (hlater.contents path hpath) _

theorem LandedAs.unchanged {world : World} (hhash : undoer.hash = world.hash)
    {entry : BackupEntry} {content : Option Tree} (h : LandedAs world entry content) :
    Unchanged undoer entry content := by
  intro tree digest hcontent hdigest
  obtain ⟨found, hfound, hwritten⟩ := h
  grind

theorem InProgress.inverted {world : World} {context : MutationContext}
    {operations : List ApplyOperation} {progress : World.Progress} {now : Machine}
    (h : InProgress world context base operations progress now)
    (hmanifest : now.disk.manifest context.backupId =
      .written (context.manifestOf progress.written))
    (hquiet : undoer.Quiet) (hhash : undoer.hash = world.hash) (hfresh : undoer.Fresh later)
    (hlater : Undisturbed context.backupId
      (fun path => ∃ operation ∈ operations, operation.WritesTo context.registry path)
      now.disk later) :
    Inverted undoer context.registry (some context.backupId)
      (fun path => ∃ operation ∈ operations, operation.WritesTo context.registry path)
      base later := by
  refine inverted_of_log hquiet hfresh hlater hmanifest (fun entry hentry => ?_)
    (fun entry hentry => ?_) h.held ?_ h.undone
  · obtain ⟨operation, hmem, hfor⟩ := exists_item h.entries hentry
    rw [hfor.location]
    exact context.registry.destination_contained hfor.destination
  · exact exists_of_touches h.entries (mem_map_of_mem hentry)
  · exact h.rewinds.mono fun entry _ _ hlanded => hlanded.unchanged hhash

theorem Recoverable.inverted {context : RemovalContext} {operations : List RemovalOperation}
    {results : List Staged} (h : Recoverable context base results after)
    (hrows : List.Forall₂ (RowFor context) operations results)
    (hnodup : (results.map Staged.resolvedPath).Nodup)
    (hshaped : ∀ staged ∈ results, Shaped base staged)
    (hquiet : undoer.Quiet) (hfresh : undoer.Fresh later)
    (hlater : Undisturbed context.backupId
      (fun path => ∃ operation ∈ operations, operation.Names context.registry path) after later) :
    Inverted undoer context.registry (some context.backupId)
      (fun path => ∃ operation ∈ operations, operation.Names context.registry path)
      base later := by
  have hkeys : (results.map Staged.entry).map BackupEntry.resolvedPath =
      results.map Staged.resolvedPath := by
    rw [map_map]
    exact map_congr_left h.paths
  have hrow : ∀ entry ∈ results.map Staged.entry, ∃ staged ∈ results, staged.entry = entry ∧
      entry.resolvedPath = staged.resolvedPath := by
    grind [cases Recoverable]
  have hbefore : ∀ entry ∈ results.map Staged.entry,
      Held context.backupId (fun entry => base.contents entry.resolvedPath) after entry := by
    intro entry hentry
    obtain ⟨staged, hstaged, rfl, hpath⟩ := hrow entry hentry
    obtain ⟨locationId, slug, hbackup, hcopy⟩ := h.held staged hstaged
    refine ⟨fun place hplace => ⟨locationId, slug, ?_⟩, ?_, iff_of_false ?_ ?_⟩
    · exact Option.some.inj (hplace.symm.trans hbackup)
    · rw [hpath, Disk.copyOf, hbackup]
      exact hcopy
    · rw [hbackup]
      intro hnone
      cases hnone
    · rw [hpath]
      exact Option.isSome_iff_ne_none.1 (hshaped staged hstaged).present
  refine inverted_of_log hquiet hfresh hlater h.manifest (fun entry hentry => ?_)
    (fun entry hentry => ?_) hbefore ?_ ?_
  · obtain ⟨staged, hstaged, rfl, hpath⟩ := hrow entry hentry
    obtain ⟨operation, _, hfor⟩ := exists_item hrows hstaged
    rw [hfor.entryLocation, hpath]
    exact context.registry.destination_contained hfor.destination
  · obtain ⟨staged, hstaged, rfl, hpath⟩ := hrow entry hentry
    obtain ⟨operation, hmem, hfor⟩ := exists_item hrows hstaged
    rw [hpath]
    exact ⟨operation, hmem, _, hfor.destination⟩
  · refine UndoLog.rewinds_of_nodup ?_ fun entry hentry tree _ htree => ?_
    · rw [map_reverse]
      exact (reverse_perm _).nodup_iff.2 (hkeys ▸ hnodup)
    · obtain ⟨staged, hstaged, rfl, hpath⟩ := hrow entry (mem_reverse.1 hentry)
      rw [hpath, h.gone staged hstaged] at htree
      cases htree
  · refine UndoLog.undo_eq_of_forall (fun _ _ => rfl) fun path hpath => h.others path ?_
    rw [map_reverse, mem_reverse] at hpath
    exact hkeys ▸ hpath

end Inverted

/-- An undo without failures, with the set that a successful mutation returned and nothing changed
in between, skips nothing and leaves every destination as it was before the mutation. -/
theorem undo_inverts (world undoer : World) (hquiet : undoer.Quiet)
    (hhash : undoer.hash = world.hash) (disk later : Disk) (hfresh : undoer.Fresh later) :
    (∀ (context : MutationContext) (operations : List ApplyOperation), operations ≠ [] →
      (world.runApply context operations disk).1.failed = [] →
      (world.runApply context operations disk).1.isPartial = false →
      Undisturbed context.backupId
        (fun path => ∃ operation ∈ operations, operation.WritesTo context.registry path)
        (world.runApply context operations disk).2.disk later →
      Inverted undoer context.registry (world.runApply context operations disk).1.backupId
        (fun path => ∃ operation ∈ operations, operation.WritesTo context.registry path)
        disk later) ∧
    ∀ (context : RemovalContext) (operations : List RemovalOperation), operations ≠ [] →
      (world.runRemoval context operations disk).1.failed = [] →
      (world.runRemoval context operations disk).1.isPartial = false →
      Undisturbed context.backupId
        (fun path => ∃ operation ∈ operations, operation.Names context.registry path)
        (world.runRemoval context operations disk).2.disk later →
      Inverted undoer context.registry (world.runRemoval context operations disk).1.backupId
        (fun path => ∃ operation ∈ operations, operation.Names context.registry path)
        disk later := by
  refine ⟨fun context operations hsome hfailed _ hlater => ?_,
    fun context operations hsome hfailed _ hlater => ?_⟩
  · cases (runApply_spec world context operations disk).2 with
    | failed failed ended => exact absurd hfailed failed
    | @applied progress progressed whole failed recorded =>
      have hwritten : progress.written ≠ [] := by
        intro hnil
        refine hsome (List.length_eq_zero_iff.1 ?_)
        rw [progressed.entries.length_eq, hnil]
        rfl
      obtain ⟨hid, hmanifest⟩ := recorded hwritten
      rw [hid]
      exact progressed.inverted hmanifest hquiet hhash hfresh hlater
  · cases (runRemoval_spec world context operations disk).2 with
    | nothing noOperations => exact absurd noOperations hsome
    | committed rows nodup shaped recoverable whole backupId removed kept failed checked =>
      rw [backupId]
      exact recoverable.inverted rows nodup shaped hquiet hfresh hlater
    | returned rows remainder away flagged removed kept failed someFailed manifest checked =>
      exact absurd hfailed someFailed

/-- The disk without leftovers beside its resources. -/
def Disk.swept (disk : Disk) : Disk where
  tree := fun place => match place with
    | .sibling _ _ _ => none
    | place => disk.tree place
  manifest := disk.manifest

/-- The world in which no call fails. -/
def calmWorld : World := failingWorld fun _ => false

/-- A directory that is replaced, and one that is removed, are back after the undo. -/
theorem undo_inverts_directory :
    (calmWorld.runApply plainContext [replaceDirectory "skill"]
        (diskOf ["skill"])).1.failed = [] ∧
    (calmWorld.runRemoval plainRemovalContext [removeDirectory "skill"]
        (diskOf ["skill"])).1.failed = [] ∧
    Inverted calmWorld plainRegistry
      (calmWorld.runApply plainContext [replaceDirectory "skill"] (diskOf ["skill"])).1.backupId
      (fun path => ∃ operation ∈ [replaceDirectory "skill"],
        operation.WritesTo plainRegistry path) (diskOf ["skill"])
      (calmWorld.runApply plainContext [replaceDirectory "skill"]
        (diskOf ["skill"])).2.disk.swept ∧
    Inverted calmWorld plainRegistry
      (calmWorld.runRemoval plainRemovalContext [removeDirectory "skill"]
        (diskOf ["skill"])).1.backupId
      (fun path => ∃ operation ∈ [removeDirectory "skill"], operation.Names plainRegistry path)
      (diskOf ["skill"])
      (calmWorld.runRemoval plainRemovalContext [removeDirectory "skill"]
        (diskOf ["skill"])).2.disk.swept := by
  have hquiet : calmWorld.Quiet := ⟨fun _ => rfl, fun _ => rfl⟩
  refine ⟨by decide, by decide, ?_, ?_⟩
  · exact (undo_inverts calmWorld calmWorld hquiet rfl _ _ fun _ _ => rfl).1 plainContext _
      (List.cons_ne_nil _ _) (by decide) (by decide) ⟨fun _ _ => rfl, fun _ _ => rfl, rfl⟩
  · exact (undo_inverts calmWorld calmWorld hquiet rfl _ _ fun _ _ => rfl).2 plainRemovalContext _
      (List.cons_ne_nil _ _) (by decide) (by decide) ⟨fun _ _ => rfl, fun _ _ => rfl, rfl⟩

end MangoStudio.Library.Mutation
