import Mathlib
import MangoStudio.Library.Mutation.Disk

/-!
# The backup store

Copies of what a mutation replaces, the manifest that makes it reversible, and
retention.

The ids of sets are valid ones; the check that an id names one path segment is
not part of the model.  A manifest is written and read as a value, not as text.
-/

namespace MangoStudio.Library.Mutation

namespace World

variable (world : World)

/-- Copies a resource into a set. -/
def backupExisting (resolvedPath locationId slug backupId : String) :
    Attempt Machine String Place := do
  let backupPath := Place.copy backupId locationId slug
  world.createDirAll .backupDir
  world.copyTree .backupCopy (.resource resolvedPath) backupPath
  return backupPath

def writeManifest (manifest : BackupManifest) : Attempt Machine String Unit := do
  world.createDirAll .setDir
  world.call .writeManifest id
    (fun disk => .ok ((), { disk with
      manifest := Function.update disk.manifest manifest.backupId (.written manifest) }))
    fun _ disk => { disk with
      manifest := Function.update disk.manifest manifest.backupId .torn }

/-- The manifest of a set, where there is a readable one. -/
def readManifest (backupId : String) : Attempt Machine String (Option BackupManifest) :=
  world.read .readManifest id fun disk => match disk.manifest backupId with
    | .written manifest => .ok (some manifest)
    | .torn => .ok none
    | .absent => .ok none

/-- Puts a copy back: stages it beside the destination and renames it into place. -/
def restoreEntry (entry : BackupEntry) : Attempt Machine String Unit := do
  match entry.backupPath with
  | none => throw ("Backup entry for \"" ++ entry.destinationPath ++ "\" has nothing to restore.")
  | some backupPath =>
    let suffix ← world.randomSuffix
    let stage := Place.sibling entry.resolvedPath suffix .restore
    world.createDirAll .restoreDir
    match ← Attempt.observe (world.copyTree .restoreCopy backupPath stage) with
    | .error error =>
      let _ ← Attempt.observe (world.removeAll .restoreCleanup stage)
      throw error
    | .ok () =>
      world.removeAll .restoreRemove (.resource entry.resolvedPath)
      world.rename .restoreRename stage (.resource entry.resolvedPath)

def discardSet (backupId : String) : Attempt Machine String Unit :=
  world.removeSet .discardSet backupId

/-! ## Retention -/

def pinned (disk : Disk) (id : String) : Bool :=
  match disk.manifest id with
  | .written manifest => manifest.pinned == some true
  | _ => false

/-- A pinned set and a set without a readable manifest are kept whatever the budget. -/
def retainedUnconditionally (disk : Disk) (id : String) : Bool :=
  match disk.manifest id with
  | .written _ => pinned disk id
  | _ => true

/-- The ordinary sets that the budget keeps, newest first. -/
def selectOrdinary (retained : List String) :
    (retainedBytes ordinaryCount : Nat) → List ListedSet → List String
  | _, _, [] => []
  | retainedBytes, ordinaryCount, set :: rest =>
    if set.id ∈ retained then selectOrdinary retained retainedBytes ordinaryCount rest
    else if world.retentionCount ≤ ordinaryCount then []
    else if world.retentionBytes < retainedBytes + set.sizeBytes then []
    else set.id :: selectOrdinary retained (retainedBytes + set.sizeBytes) (ordinaryCount + 1) rest

/-- The sets that retention keeps; the current one is always among them. -/
def selectRetained (disk : Disk) (sets : List ListedSet) (current : String) : List String :=
  let ordinaryCurrent := (sets.find? fun set => set.id = current).filter fun set =>
    !pinned disk set.id
  let unconditional := sets.filter fun set =>
    retainedUnconditionally disk set.id &&
      !(ordinaryCurrent.any fun ordinary => ordinary.id = set.id)
  let retained := current :: unconditional.map ListedSet.id
  let retainedBytes := (unconditional.map ListedSet.sizeBytes).sum +
    (ordinaryCurrent.map ListedSet.sizeBytes).getD 0
  let ordinaryCount := if ordinaryCurrent.isSome then 1 else 0
  retained ++ world.selectOrdinary retained retainedBytes ordinaryCount sets

/-- Retention that keeps the given set. Every eviction is attempted, and the first failure is
what the caller hears about. -/
def prune (current : String) : Attempt Machine String Unit := do
  let moment ← Attempt.look fun machine => machine.log.length
  let (disk, sets) ← world.read .listSets id fun disk => .ok (disk, world.listSets moment disk)
  if sets.isEmpty then return
  else if world.retentionCount = 0 then
    throw "Library backup retention count must be a positive integer."
  else
    let retained := world.selectRetained disk sets current
    let outcomes ← (sets.filter fun set => set.id ∉ retained).mapM fun set =>
      Attempt.observe (world.removeSet .evictSet set.id)
    match outcomes.findSome? fun outcome => match outcome with
        | .error error => some error
        | .ok () => none with
    | some error => throw error
    | none => return

end World

end MangoStudio.Library.Mutation
