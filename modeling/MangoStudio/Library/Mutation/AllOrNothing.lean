import MangoStudio.Library.Mutation.ApplyEnd

/-!
# When an apply is all or nothing

An apply that does not say that it is partial should leave every destination as
it was, or with the content that was asked for.  That is so exactly when the run
has no failed rename back of a directory swap, or the rollback that follows it
fails as well (`allOrNothing_iff`).

The rename back is the compensation inside one write.  Where it fails the
operation returns an error without an entry, so that the rollback of the list
does not know of the destination: it is complete, the set is discarded, and the
result is not partial.
-/

namespace MangoStudio.Library.Mutation

open Attempt List

/-! ## Runs -/

/-- The result of an apply and the machine that it leaves. -/
def World.runApply (world : World) (context : MutationContext) (operations : List ApplyOperation)
    (disk : Disk) : ApplyResult × Machine :=
  match (world.executeApply context operations : Attempt Machine Empty ApplyResult).finish
      disk.boot with
  | (.ok result, machine) => (result, machine)
  | (.error impossible, _) => nomatch impossible

theorem runApply_spec (world : World) (context : MutationContext)
    (operations : List ApplyOperation) (disk : Disk) :
    (world.runApply context operations disk).2.Always
        (Safe context.registry context.backupId disk) ∧
      ApplyEnd world context disk operations (world.runApply context operations disk).1
        (world.runApply context operations disk).2 := by
  have hend := @triple_executeApply world context disk operations Empty (fun _ _ => False)
    disk.boot rfl
  grind [World.runApply]

/-! ## All or nothing -/

/-- The path that an operation writes to. -/
def ApplyOperation.WritesTo (operation : ApplyOperation) (registry : Registry) (path : String) :
    Prop :=
  ∃ logicalPath, registry.destination operation.locationId operation.slug = .ok ⟨logicalPath, path⟩

/-- The path holds what the operation was to write. -/
def ApplyOperation.Arrived (operation : ApplyOperation) (world : World) (disk : Disk)
    (path : String) : Prop :=
  ∃ tree, disk.contents path = some tree ∧
    world.hash operation.kind tree = .ok operation.expectedContentHash

/-- No two operations write to one path. -/
def DistinctDestinations (registry : Registry) (operations : List ApplyOperation) : Prop :=
  operations.Pairwise fun first second => ∀ path, first.WritesTo registry path →
    ¬ second.WritesTo registry path

/-- The result says what the destinations are left with. -/
structure AllOrNothing (world : World) (context : MutationContext)
    (operations : List ApplyOperation) (before : Disk) (result : ApplyResult) (after : Disk) :
    Prop where
  /-- A failed apply that is not partial leaves what was there. -/
  restored : result.isPartial = false → result.failed ≠ [] → ∀ operation ∈ operations, ∀ path,
    operation.WritesTo context.registry path → after.contents path = before.contents path
  /-- An apply without a failure leaves what was asked for. -/
  landed : result.isPartial = false → result.failed = [] → ∀ operation ∈ operations, ∀ path,
    operation.WritesTo context.registry path → operation.Arrived world after path
  /-- A destination that is left neither way is flagged, and the named set has its original. -/
  flagged : ∀ operation ∈ operations, ∀ path, operation.WritesTo context.registry path →
    after.contents path ≠ before.contents path → ¬ operation.Arrived world after path →
    result.isPartial = true ∧ result.backupId = some context.backupId ∧
      result.backups = [⟨context.environment, context.backupId⟩] ∧
      ∀ tree, before.contents path = some tree →
        ∃ locationId slug, after.tree (.copy context.backupId locationId slug) = some tree

section AllOrNothing

variable {world : World} {context : MutationContext} {operations done : List ApplyOperation}
variable {base : Disk} {result : ApplyResult} {now : Machine} {written : List BackupEntry}

theorem writesTo_unique {operation : ApplyOperation} {registry : Registry} {path other : String}
    (hpath : operation.WritesTo registry path) (hother : operation.WritesTo registry other) :
    path = other := by
  obtain ⟨logicalPath, hpath⟩ := hpath
  obtain ⟨logicalOther, hother⟩ := hother
  exact (ResolvedDestination.mk.inj (Except.ok.inj (hpath.symm.trans hother))).2

theorem EntryFor.writesTo {registry : Registry} {operation : ApplyOperation} {entry : BackupEntry}
    (h : EntryFor registry operation entry) : operation.WritesTo registry entry.resolvedPath :=
  ⟨entry.destinationPath, h.destination⟩

theorem exists_of_touches (hentries : List.Forall₂ (EntryFor context.registry) done written)
    {path : String} (htouches : Touches written path) :
    ∃ operation ∈ done, operation.WritesTo context.registry path := by
  obtain ⟨entry, hentry, rfl⟩ := mem_map.1 htouches
  obtain ⟨operation, hmem, hfor⟩ := exists_item hentries hentry
  exact ⟨operation, hmem, hfor.writesTo⟩

section

variable (hdistinct : DistinctDestinations context.registry operations)

include hdistinct

theorem not_touches_of_distinct
    (hentries : List.Forall₂ (EntryFor context.registry) done written) {path : String}
    (hlost : LostAt context operations done path) : ¬ Touches written path := by
  obtain ⟨operation, rest, rfl, logicalPath, hdestination⟩ := hlost
  intro htouches
  obtain ⟨earlier, hmem, hwrites⟩ := exists_of_touches hentries htouches
  exact (pairwise_append.1 hdistinct).2.2 earlier hmem operation mem_cons_self path
    hwrites ⟨logicalPath, hdestination⟩

theorem nodup_of_distinct
    (hentries : List.Forall₂ (EntryFor context.registry) operations written) :
    (written.map BackupEntry.resolvedPath).Nodup := by
  induction hentries with
  | nil => exact nodup_nil
  | @cons operation entry operations written hentry hrest ih =>
    obtain ⟨hfirst, hlater⟩ := pairwise_cons.1 hdistinct
    refine nodup_cons.2 ⟨fun htouches => ?_, ih hlater⟩
    obtain ⟨later, hmem, hwrites⟩ := exists_of_touches hrest htouches
    exact hfirst later hmem _ hentry.writesTo hwrites

theorem InProgress.arrived {progress : World.Progress}
    (h : InProgress world context base operations progress now) :
    ∀ operation ∈ operations, ∀ path, operation.WritesTo context.registry path →
      operation.Arrived world now.disk path := by
  intro operation hmem path hwrites
  obtain ⟨entry, hentry, hfor⟩ := exists_row h.entries hmem
  obtain rfl := writesTo_unique hwrites hfor.writesTo
  have hnodup : (progress.written.reverse.map BackupEntry.resolvedPath).Nodup := by
    rw [map_reverse]
    exact (reverse_perm _).nodup_iff.2 (nodup_of_distinct hdistinct h.entries)
  obtain ⟨tree, htree, hhash⟩ :=
    h.rewinds.fits_of_nodup hnodup entry (mem_reverse.2 hentry)
  rw [hfor.kind, hfor.written] at hhash
  exact ⟨tree, htree, hhash⟩

/-- A failed apply keeps the law exactly when no destination is lost silently. -/
theorem FailedEnd.untouched_iff (h : FailedEnd context base operations result now)
    (hfailed : result.failed ≠ []) :
    AllOrNothing world context operations base result now.disk ↔
      (now.Failed .swapBack → now.Uncompensated) := by
  cases h with
  | restored whole contents calm =>
    refine iff_of_true ⟨fun _ _ _ _ path _ => congrFun contents path,
      fun _ hnone => absurd hnone hfailed, fun _ _ path _ hchanged => ?_⟩ fun hlost => ?_
    · exact absurd (congrFun contents path) hchanged
    · exact absurd hlost calm
  | repaired whole contents lostAt entries touches =>
    exact absurd touches (not_touches_of_distinct hdistinct entries lostAt)
  | @lost done path tree whole lostAt original gone failed compensated =>
    refine iff_of_false (fun hlaw => ?_) fun hlog => compensated (hlog failed)
    obtain ⟨operation, rest, rfl, logicalPath, hdestination⟩ := lostAt
    have hrestored := hlaw.restored whole hfailed operation
      (mem_append_right done mem_cons_self) path ⟨logicalPath, hdestination⟩
    rw [gone, original] at hrestored
    cases hrestored
  | kept flagged backupId backups covered log =>
    refine iff_of_true ⟨fun hwhole => absurd hwhole ?_, fun hwhole => absurd hwhole ?_,
      fun _ _ path _ hchanged _ => ⟨flagged, backupId, backups, fun tree htree => ?_⟩⟩ log
    · rw [flagged]
      nofun
    · rw [flagged]
      nofun
    · obtain ⟨locationId, slug, _, hcopy⟩ : now.disk.Backs context.registry context.backupId path
          tree := (covered path tree htree).resolve_right fun hhome => hchanged (by
        rw [hhome.2, htree])
      exact ⟨locationId, slug, hcopy⟩

end

/-- An apply to distinct destinations is all or nothing unless it says so, exactly when the failures
of its calls do not include a failed rename back of a swap that the rollback gets over. -/
theorem allOrNothing_iff (world : World) (context : MutationContext)
    (operations : List ApplyOperation) (disk : Disk)
    (hdistinct : DistinctDestinations context.registry operations) :
    AllOrNothing world context operations disk (world.runApply context operations disk).1
        (world.runApply context operations disk).2.disk ↔
      ((world.runApply context operations disk).2.Failed .swapBack →
        (world.runApply context operations disk).2.Uncompensated) := by
  cases (runApply_spec world context operations disk).2 with
  | failed failed ended => exact ended.untouched_iff hdistinct failed
  | applied progressed whole failed recorded =>
    have harrived := progressed.arrived hdistinct
    refine iff_of_true ⟨fun _ hsome => absurd failed hsome, fun _ _ => harrived,
      fun operation hmem path hwrites _ hneither => ?_⟩ fun hlost => ?_
    · exact absurd (harrived operation hmem path hwrites) hneither
    · exact absurd hlost progressed.calm

end AllOrNothing

/-! ## A destination lost without a word -/

/-- A registry with one location, whose slugs are their own paths. -/
def plainRegistry : Registry where
  writable _ _ := .ok ()
  destination _ slug := .ok ⟨slug, slug⟩
  root _ := some "root"
  nodeResolve path := path
  contained _ _ := .ok ()
  destination_contained _ := rfl
  destination_resolved := by
    rintro _ slug _ slug' logicalPath path path' hfirst hsecond
    obtain ⟨rfl, rfl⟩ := ResolvedDestination.mk.inj (Except.ok.inj hfirst)
    exact (ResolvedDestination.mk.inj (Except.ok.inj hsecond)).1.symm.trans
      (ResolvedDestination.mk.inj (Except.ok.inj hsecond)).2

def plainContext : MutationContext := ⟨plainRegistry, none, "set"⟩

/-- A world in which the calls with the given numbers fail without an effect. -/
def failingWorld (fails : Nat → Bool) : World where
  oracle call := if fails call then some ⟨"fault", none, fun _ _ => none, true⟩ else none
  suffix _ := "0011223344556677"
  hash _ _ := .ok "digest"
  display _ := "path"
  listSets _ _ := []
  retentionCount := 1
  retentionBytes := 0
  interrupted _ := none

/-- A disk with the given directories, all empty. -/
def diskOf (paths : List String) : Disk where
  tree place := match place with
    | .resource path => if path ∈ paths then some (.directory []) else none
    | _ => none
  manifest _ := .absent

def replaceDirectory (slug : String) : ApplyOperation where
  resourceKey := slug
  locationId := "location"
  slug := slug
  operation := "update"
  kind := .directory
  expectedContentHash := "digest"
  destinationRoot := "root"
  directory := some (.files [])
  contents := none

/-- The world that fails the rename into place and the rename back. -/
def swapFailingWorld : World := failingWorld fun call => call = 9 || call = 10

/-- Both renames of a swap fail: the directory is gone, the result is not partial, and it names no
set. -/
theorem swap_lost :
    ¬ AllOrNothing swapFailingWorld plainContext [replaceDirectory "skill"] (diskOf ["skill"])
      (swapFailingWorld.runApply plainContext [replaceDirectory "skill"] (diskOf ["skill"])).1
      (swapFailingWorld.runApply plainContext [replaceDirectory "skill"]
        (diskOf ["skill"])).2.disk := by
  intro hlaw
  have hrestored := hlaw.restored (by decide) (by decide) (replaceDirectory "skill")
    List.mem_cons_self "skill" ⟨"skill", rfl⟩
  have hgone : ((swapFailingWorld.runApply plainContext [replaceDirectory "skill"]
      (diskOf ["skill"])).2.disk.contents "skill").isSome = false := by decide
  rw [hrestored] at hgone
  exact absurd hgone (by decide)

/-- Two directories with their own paths. -/
theorem allOrNothing_two_directories :
    DistinctDestinations plainRegistry [replaceDirectory "first", replaceDirectory "second"] ∧
    (AllOrNothing swapFailingWorld plainContext
        [replaceDirectory "first", replaceDirectory "second"] (diskOf ["first", "second"])
        (swapFailingWorld.runApply plainContext
          [replaceDirectory "first", replaceDirectory "second"] (diskOf ["first", "second"])).1
        (swapFailingWorld.runApply plainContext
          [replaceDirectory "first", replaceDirectory "second"]
          (diskOf ["first", "second"])).2.disk ↔
      ((swapFailingWorld.runApply plainContext
          [replaceDirectory "first", replaceDirectory "second"]
          (diskOf ["first", "second"])).2.Failed .swapBack →
        (swapFailingWorld.runApply plainContext
          [replaceDirectory "first", replaceDirectory "second"]
          (diskOf ["first", "second"])).2.Uncompensated)) := by
  have hdistinct : DistinctDestinations plainRegistry
      [replaceDirectory "first", replaceDirectory "second"] := by
    refine List.pairwise_pair.2 ?_
    rintro path ⟨_, hfirst⟩ ⟨_, hsecond⟩
    have hfirst := (ResolvedDestination.mk.inj (Except.ok.inj hfirst)).2
    have hsecond := (ResolvedDestination.mk.inj (Except.ok.inj hsecond)).2
    exact absurd (hfirst.trans hsecond.symm) (by decide)
  exact ⟨hdistinct, allOrNothing_iff swapFailingWorld plainContext _ _ hdistinct⟩

end MangoStudio.Library.Mutation
