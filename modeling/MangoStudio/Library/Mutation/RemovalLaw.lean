import MangoStudio.Library.Mutation.AllOrNothing
import MangoStudio.Library.Mutation.RemovalEnd

/-!
# When a removal is all or nothing

A failed removal that does not say that it is partial should leave every
destination in place, account for every operation once, and list whatever is
absent as removed.  That is so exactly when the check that follows the staging
rename never fails (`removalLaw_iff`).

The check is the last call of `stageRemoval`.  Where it fails, the destination has
already been renamed aside, and the error leaves neither an entry nor a result:
the rollback of the list does not know of it.
-/

namespace MangoStudio.Library.Mutation

open Attempt List

/-! ## Runs -/

/-- The result of a removal and the machine that it leaves. -/
def World.runRemoval (world : World) (context : RemovalContext)
    (operations : List RemovalOperation) (disk : Disk) : RemovalResult × Machine :=
  match (world.executeRemoval context operations : Attempt Machine Empty RemovalResult).finish
      disk.boot with
  | (.ok result, machine) => (result, machine)
  | (.error impossible, _) => nomatch impossible

theorem runRemoval_spec (world : World) (context : RemovalContext)
    (operations : List RemovalOperation) (disk : Disk) :
    (world.runRemoval context operations disk).2.Always (RemovalSafe context.backupId disk) ∧
      RemovalEnd context disk operations (world.runRemoval context operations disk).1
        (world.runRemoval context operations disk).2 := by
  have hend := @triple_executeRemoval world context disk operations Empty (fun _ _ => False)
    disk.boot rfl
  grind [World.runRemoval]

/-! ## The law -/

/-- The path that an operation takes away. -/
def RemovalOperation.Names (operation : RemovalOperation) (registry : Registry) (path : String) :
    Prop :=
  ∃ logicalPath, registry.destination operation.locationId operation.slug = .ok ⟨logicalPath, path⟩

/-- The row is that of an operation on the path. -/
def Removed.Lists (row : Removed) (registry : Registry) (operations : List RemovalOperation)
    (path : String) : Prop :=
  ∃ operation ∈ operations,
    registry.destination operation.locationId operation.slug = .ok ⟨row.path, path⟩

/-- The result says what the destinations are left with. -/
structure RemovalLaw (context : RemovalContext) (operations : List RemovalOperation)
    (before : Disk) (result : RemovalResult) (after : Disk) : Prop where
  /-- A failed removal that is not partial leaves what was there. -/
  restored : result.isPartial = false → result.failed ≠ [] → ∀ operation ∈ operations, ∀ path,
    operation.Names context.registry path → after.contents path = before.contents path
  /-- Every operation has one row, apart from rows for the manifest. -/
  accounted : ∃ failing manifestRows, result.failed = failing ++ manifestRows ∧
    ManifestRows context operations manifestRows ∧
    (result.removed.map Removed.account ++ result.kept.map Kept.account ++
      failing.map FailureRow.account).Perm (operations.map (RemovalOperation.account context))
  /-- What is absent is listed as removed. -/
  absent : ∀ operation ∈ operations, ∀ path, operation.Names context.registry path →
    (before.contents path).isSome → after.contents path = none →
    ∃ row ∈ result.removed, row.Lists context.registry operations path

section Law

variable {context : RemovalContext} {operations done : List RemovalOperation} {base : Disk}
variable {results : List Staged} {unrestored : List Place} {failing manifestRows : List FailureRow}
variable {skipped : List Kept} {adrift : Option String} {path : String}

theorem RowFor.lists {operation : RemovalOperation} {staged : Staged}
    (h : RowFor context operation staged) (hmem : operation ∈ operations) :
    staged.removed.Lists context.registry operations staged.resolvedPath :=
  ⟨operation, hmem, h.destination⟩

section

variable (hrows : List.Forall₂ (RowFor context) done results)

include hrows

theorem accounted_returned
    (hremainder : Remainder context operations done failing skipped adrift) :
    ((World.stillRemoved results unrestored).map Removed.account ++
      (World.rolledBack results unrestored ++ skipped).map Kept.account ++
      failing.map FailureRow.account).Perm (operations.map (RemovalOperation.account context)) := by
  grind [account_results, account_rows, cases Remainder]

theorem not_lists_of_drifts {disk : Disk} (hdrifts : Drifts base results path disk) {row : Removed}
    (hrow : row ∈ World.stillRemoved results unrestored) :
    ¬ row.Lists context.registry operations path := by
  rintro ⟨operation, _, hdestination⟩
  obtain ⟨staged, hstaged, rfl⟩ := mem_map.1 hrow
  have hmem : staged ∈ results := (mem_filter.1 hstaged).1
  obtain ⟨earlier, _, hfor⟩ := exists_item hrows hmem
  have hpath := context.registry.destination_resolved hdestination hfor.destination
  exact hdrifts.outside (mem_map.2 ⟨staged, hmem, hpath.symm⟩)

theorem absent_returned {disk : Disk} (hincluded : done ⊆ operations)
    (haway : Whereabouts base none results (fun staged => staged.stagePath ∈ unrestored) disk)
    (hbefore : (base.contents path).isSome) (hafter : disk.contents path = none) :
    ∃ row ∈ World.stillRemoved results unrestored, row.Lists context.registry operations path := by
  have hchanged : disk.contents path ≠ base.contents path := fun hsame => by
    rw [← hsame, hafter] at hbefore
    exact nomatch hbefore
  by_cases hmem : path ∈ results.map Staged.resolvedPath
  · obtain ⟨staged, hstaged, rfl⟩ := mem_map.1 hmem
    have hstill : staged.stagePath ∈ unrestored := by
      by_contra hback
      exact hchanged (haway.home staged hstaged hback)
    obtain ⟨operation, hdone, hfor⟩ := exists_item hrows hstaged
    exact ⟨staged.removed, mem_map_of_mem (mem_filter.2 ⟨hstaged, decide_eq_true hstill⟩),
      hfor.lists (hincluded hdone)⟩
  · exact absurd (haway.others path hmem nofun) hchanged

theorem Whereabouts.removalLaw {disk : Disk} {result : RemovalResult}
    (haway : Whereabouts base none results (fun staged => staged.stagePath ∈ unrestored) disk)
    (hremainder : Remainder context operations done failing skipped none)
    (hmanifest : ManifestRows context operations manifestRows)
    (hwholly : result.isPartial = !unrestored.isEmpty)
    (hremoved : result.removed = World.stillRemoved results unrestored)
    (hkept : result.kept = World.rolledBack results unrestored ++ skipped)
    (hfailed : result.failed = failing ++ manifestRows) :
    RemovalLaw context operations base result disk where
  restored := by
    intro hwhole _ _ _ path _
    rw [hwholly, Bool.not_eq_false', List.isEmpty_iff] at hwhole
    by_cases hmem : path ∈ results.map Staged.resolvedPath
    · obtain ⟨staged, hstaged, rfl⟩ := mem_map.1 hmem
      refine haway.home staged hstaged ?_
      rw [hwhole]
      exact not_mem_nil
    · exact haway.others path hmem nofun
  accounted := ⟨failing, manifestRows, hfailed, hmanifest, by
    rw [hremoved, hkept]
    exact accounted_returned hrows hremainder⟩
  absent := by
    intro _ _ path _ hbefore hafter
    rw [hremoved]
    exact absent_returned hrows hremainder.included haway hbefore hafter

end

theorem Recoverable.removalLaw {disk : Disk} {result : RemovalResult}
    (h : Recoverable context base results disk)
    (hrows : List.Forall₂ (RowFor context) operations results)
    (hremoved : result.removed = results.map Staged.removed) (hkept : result.kept = [])
    (hfailed : result.failed = []) : RemovalLaw context operations base result disk where
  restored := fun _ hsome => absurd hfailed hsome
  accounted := by
    refine ⟨[], [], hfailed, .inl rfl, ?_⟩
    rw [hremoved, hkept, map_nil, map_nil, append_nil, append_nil,
      map_map, ← account_rows hrows]
    exact List.Perm.refl _
  absent := by
    intro _ _ path _ hbefore hafter
    rw [hremoved]
    by_cases hmem : path ∈ results.map Staged.resolvedPath
    · obtain ⟨staged, hstaged, rfl⟩ := mem_map.1 hmem
      obtain ⟨operation, hdone, hfor⟩ := exists_item hrows hstaged
      exact ⟨staged.removed, mem_map_of_mem hstaged, hfor.lists hdone⟩
    · rw [← h.others path hmem, hafter] at hbefore
      exact nomatch hbefore

/-- Every removal is all or nothing unless it says so, exactly when the failures of its calls do not
include the check after a staging rename. -/
theorem removalLaw_iff (world : World) (context : RemovalContext)
    (operations : List RemovalOperation) (disk : Disk) :
    RemovalLaw context operations disk (world.runRemoval context operations disk).1
        (world.runRemoval context operations disk).2.disk ↔
      ¬ (world.runRemoval context operations disk).2.Failed .stagedCheck := by
  cases (runRemoval_spec world context operations disk).2 with
  | nothing noOperations whole backupId removed kept failed contents checked =>
    subst noOperations
    refine iff_of_true ⟨fun _ hsome => absurd failed hsome, ⟨[], [], failed, .inl rfl, ?_⟩,
      fun _ hmem => (nomatch hmem)⟩ checked
    rw [removed, kept]
    exact List.Perm.nil
  | committed rows nodup shaped recoverable whole backupId removed kept failed checked =>
    exact iff_of_true (recoverable.removalLaw rows removed kept failed) checked
  | @returned done results unrestored adrift failing manifestRows skipped rows remainder away
      flagged removed kept failed some_failed manifest checked =>
    rw [checked]
    cases adrift with
    | none =>
      exact iff_of_true (away.removalLaw rows remainder manifest flagged removed kept failed) nofun
    | some path =>
      refine iff_of_false (fun hlaw => ?_) fun hnone => hnone rfl
      have hdrifts := away.drifts path rfl
      obtain ⟨operation, hmem, hnames⟩ := remainder.destination path rfl
      obtain ⟨row, hrow, hlists⟩ :=
        hlaw.absent operation hmem path hnames hdrifts.present hdrifts.gone
      rw [removed] at hrow
      exact not_lists_of_drifts rows hdrifts hrow hlists

end Law

/-! ## A destination that the rollback does not know of -/

def plainRemovalContext : RemovalContext := ⟨plainContext, []⟩

def removeDirectory (slug : String) : RemovalOperation where
  resourceKey := slug
  locationId := "location"
  slug := slug
  kind := .directory
  expectedPath := slug
  expectedContentHash := "digest"
  lastCopy := false

/-- The world that fails the check after the staging rename. -/
def checkFailingWorld : World := failingWorld fun call => call = 6

/-- The check after the rename fails: the directory is gone, nothing is listed as removed, and the
result is not partial. -/
theorem staged_lost :
    ¬ RemovalLaw plainRemovalContext [removeDirectory "skill"] (diskOf ["skill"])
      (checkFailingWorld.runRemoval plainRemovalContext [removeDirectory "skill"]
        (diskOf ["skill"])).1
      (checkFailingWorld.runRemoval plainRemovalContext [removeDirectory "skill"]
        (diskOf ["skill"])).2.disk := by
  intro hlaw
  have hrestored := hlaw.restored (by decide) (by decide) (removeDirectory "skill")
    List.mem_cons_self "skill" ⟨"skill", rfl⟩
  have hgone : ((checkFailingWorld.runRemoval plainRemovalContext [removeDirectory "skill"]
      (diskOf ["skill"])).2.disk.contents "skill").isSome = false := by decide
  rw [hrestored] at hgone
  exact absurd hgone (by decide)

end MangoStudio.Library.Mutation
