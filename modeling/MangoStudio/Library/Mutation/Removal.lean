import MangoStudio.Library.Mutation.Apply

/-!
# The engine of `library.remove`

Back up, stage aside, verify that the destination is gone, record the manifest,
then commit.

A removal renames the whole destination to a dot-prefixed sibling, and deletes
the staged tree only once the manifest that can restore it is on disk.  A failure
before that renames every staged tree home, newest first.

The clock is left out, and so are the lines that the engine logs where a cleanup
or the retention after a committed removal fails.
-/

namespace MangoStudio.Library.Mutation

structure RemovalOperation where
  resourceKey : String
  locationId : String
  slug : String
  kind : ResourceKind
  expectedPath : String
  expectedContentHash : String
  lastCopy : Bool
  deriving DecidableEq, Repr

structure Removed where
  resourceKey : String
  environmentId : String
  locationId : String
  path : String
  contentHash : String
  lastCopy : Bool
  deriving DecidableEq, Repr

inductive KeptReason where
  | rolledBack
  | notAttempted
  deriving DecidableEq, Repr

structure Kept where
  resourceKey : String
  environmentId : String
  locationId : String
  reason : KeptReason
  deriving DecidableEq, Repr

structure RemovalResult where
  backupId : Option String := none
  backups : List BackupHandle := []
  isPartial : Bool := false
  removed : List Removed
  kept : List Kept
  failed : List FailureRow

/-- What a removal is given besides its operations. -/
structure RemovalContext extends MutationContext where
  lastCopyResourceKeys : List String

inductive StageError where
  | guard (message : String)
  | backup (message : String)
  | verification (message : String)
  | failed (message : String)

namespace StageError

def reason : StageError → FailureReason
  | .guard _ => .guardRejected
  | .backup _ => .backupFailed
  | .verification _ => .verificationFailed
  | .failed _ => .removeFailed

def message : StageError → String
  | .guard message => message
  | .backup message => message
  | .verification message => message
  | .failed message => message

def ofWrite (error : WriteError) : StageError := .guard error.message

end StageError

/-- A destination moved aside, with the entry and the row of its removal. -/
structure Staged where
  resolvedPath : String
  stagePath : Place
  entry : BackupEntry
  removed : Removed

namespace World

variable (world : World)

/-- Moves the destination aside and proves that it is gone. -/
def stageRemoval (resolvedPath suffix : String) : Attempt Machine StageError Place := do
  let stagePath := Place.sibling resolvedPath suffix .removing
  if ← Attempt.mapError .failed (world.exists_ .stageCheck stagePath) then
    throw (.verification ("A staged removal already exists at \"" ++ world.display stagePath ++
      "\"; refusing to overwrite it."))
  else
    Attempt.mapError .failed (world.rename .stageRename (.resource resolvedPath) stagePath)
    if ← Attempt.mapError .failed (world.exists_ .stagedCheck (.resource resolvedPath)) then
      let _ ← Attempt.settle (world.rename .stageReturn stagePath (.resource resolvedPath))
      throw (.verification ("\"" ++ resolvedPath ++ "\" still exists after being removed."))
    else return stagePath

/-- The path where the preview saw the resource. -/
def assertPreviewedPath (registry : Registry) (operation : RemovalOperation)
    (destination : ResolvedDestination) : Except StageError Unit :=
  if registry.nodeResolve destination.logicalPath = registry.nodeResolve operation.expectedPath then
    .ok ()
  else .error (.guard ("\"" ++ operation.resourceKey ++ "\" resolves to \"" ++
    destination.logicalPath ++ "\" at \"" ++ operation.locationId ++ "\", not the previewed \"" ++
    operation.expectedPath ++ "\"."))

/-- The content that the preview described. -/
def assertPreviewedContent (operation : RemovalOperation) (destination : ResolvedDestination)
    (contentHash : String) : Except StageError Unit :=
  if contentHash = operation.expectedContentHash then .ok ()
  else .error (.guard ("\"" ++ destination.logicalPath ++ "\" hashed to " ++ contentHash ++
    ", not the " ++ operation.expectedContentHash ++ " the preview described."))

/-- The destination that the preview showed, holding what the preview described. -/
def previewedDestination (context : RemovalContext) (operation : RemovalOperation) :
    Attempt Machine StageError (ResolvedDestination × String) := do
  let registry := context.registry
  Attempt.mapError .ofWrite
    (Attempt.ofExcept (registry.writable operation.locationId operation.kind))
  let destination ← Attempt.mapError .ofWrite
    (Attempt.ofExcept (registry.destination operation.locationId operation.slug))
  Attempt.ofExcept (assertPreviewedPath registry operation destination)
  Attempt.mapError .ofWrite
    (world.assertExpectedResourceEntry destination.resolvedPath operation.kind)
  let contentHash ← Attempt.mapError (fun error => .failed error.message)
    (world.hashAt .verify destination.resolvedPath operation.kind)
  Attempt.ofExcept (assertPreviewedContent operation destination contentHash)
  return (destination, contentHash)

def stageOperation (context : RemovalContext) (operation : RemovalOperation) :
    Attempt Machine StageError Staged := do
  let (destination, contentHash) ← world.previewedDestination context operation
  let backupPath ← Attempt.mapError
    (fun error => .backup ("Could not back up \"" ++ destination.logicalPath ++ "\": " ++ error))
    (world.backupExisting destination.resolvedPath operation.locationId operation.slug
      context.backupId)
  let suffix ← world.randomSuffix
  let stagePath ← world.stageRemoval destination.resolvedPath suffix
  return {
    resolvedPath := destination.resolvedPath
    stagePath
    entry := ⟨operation.locationId, operation.slug, operation.kind, destination.logicalPath,
      destination.resolvedPath, some backupPath, contentHash, some operation.resourceKey⟩
    removed := ⟨operation.resourceKey, context.environment, operation.locationId,
      destination.logicalPath, contentHash, operation.lastCopy⟩ }

/-- One operation, or the interruption that is observed before it. -/
def attemptRemoval {ε : Type} (context : RemovalContext) (boundary : Nat)
    (operation : RemovalOperation) : Attempt Machine ε (Except StageError Staged) :=
  match world.interrupted boundary with
  | some message => pure (.error (.failed message))
  | none => Attempt.settle (world.stageOperation context operation)

/-- The loop, which stops at the first failure. -/
def removalLoop {ε : Type} (context : RemovalContext) :
    List Staged → List RemovalOperation → Attempt Machine ε (List Staged × Option FailureRow)
  | results, [] => return (results, none)
  | results, operation :: rest => do
    match ← world.attemptRemoval context results.length operation with
    | .ok staged => removalLoop context (results ++ [staged]) rest
    | .error error =>
      return (results, some ⟨operation.resourceKey, context.environment, operation.locationId,
        error.reason, error.message⟩)

/-- Renames every staged tree home, newest first; the stage paths that could not be put back. -/
def unstageAll {ε : Type} (results : List Staged) : Attempt Machine ε (List Place) := do
  let outcomes ← results.reverse.mapM fun result => do
    let outcome ← Attempt.settle
      (world.rename .unstage result.stagePath (.resource result.resolvedPath))
    return (result.stagePath, outcome)
  return outcomes.filterMap fun outcome => if outcome.2.isOk then none else some outcome.1

def stillRemoved (results : List Staged) (unrestored : List Place) : List Removed :=
  (results.filter fun result => result.stagePath ∈ unrestored).map Staged.removed

def rolledBack (results : List Staged) (unrestored : List Place) : List Kept :=
  (results.filter fun result => result.stagePath ∉ unrestored).map fun result =>
    ⟨result.removed.resourceKey, result.removed.environmentId, result.removed.locationId,
      .rolledBack⟩

def notAttempted (operations : List RemovalOperation) (environmentId : String) (staged : Nat) :
    List Kept :=
  (operations.drop (staged + 1)).map fun operation =>
    ⟨operation.resourceKey, environmentId, operation.locationId, .notAttempted⟩

/-- The row for a manifest that could not be recorded. -/
def removalManifestFailure (operations : List RemovalOperation)
    (environmentId backupId message : String) : FailureRow where
  resourceKey := (operations.head?.map RemovalOperation.resourceKey).getD ""
  environmentId := environmentId
  locationId := (operations.head?.map RemovalOperation.locationId).getD ""
  reason := .removeFailed
  message := "Could not record the backup manifest, so this removal cannot be undone " ++
    "automatically; the copies are under backup set \"" ++ backupId ++ "\": " ++ message

/-- The manifest of the set, pinned where the removal takes last copies. -/
def persistRemoval (context : RemovalContext) (entries : List BackupEntry) :
    Attempt Machine String Unit :=
  let pinned := !context.lastCopyResourceKeys.isEmpty
  world.writeManifest ⟨context.backupId, entries, .removal, context.environmentId,
    if pinned then some true else none,
    if pinned then some context.lastCopyResourceKeys else none⟩

/-- The end of a removal in which an operation failed. -/
def abandonRemoval {ε : Type} (context : RemovalContext) (operations : List RemovalOperation)
    (results : List Staged) (row : FailureRow) : Attempt Machine ε RemovalResult := do
  let unrestored ← world.unstageAll results
  let kept := rolledBack results unrestored ++
    notAttempted operations context.environment results.length
  if unrestored.isEmpty then
    let _ ← Attempt.settle (world.discardSet context.backupId)
    return { removed := [], kept, failed := [row] }
  else
    let removed := stillRemoved results unrestored
    match ← Attempt.settle (world.persistRemoval context (results.map Staged.entry)) with
    | .ok () =>
      return { backupId := some context.backupId
               backups := [⟨context.environment, context.backupId⟩]
               isPartial := true, removed, kept, failed := [row] }
    | .error message =>
      return { isPartial := true, removed, kept, failed := [row,
        removalManifestFailure operations context.environment context.backupId message] }

/-- The end of a removal whose manifest could not be recorded. -/
def returnRemoval {ε : Type} (context : RemovalContext) (operations : List RemovalOperation)
    (results : List Staged) (message : String) : Attempt Machine ε RemovalResult := do
  let unrestored ← world.unstageAll results
  if unrestored.isEmpty then
    let _ ← Attempt.settle (world.discardSet context.backupId)
  let failed := [removalManifestFailure operations context.environment context.backupId message]
  let kept := rolledBack results unrestored
  if unrestored.isEmpty then return { removed := [], kept, failed }
  else return { isPartial := true, removed := stillRemoved results unrestored, kept, failed }

/-- The end of a removal whose manifest is on disk. -/
def commitRemoval {ε : Type} (context : RemovalContext) (results : List Staged) :
    Attempt Machine ε RemovalResult := do
  let _ ← results.mapM fun result => Attempt.settle (world.removeAll .commit result.stagePath)
  let _ ← Attempt.settle (world.prune context.backupId)
  return { backupId := some context.backupId
           backups := [⟨context.environment, context.backupId⟩]
           removed := results.map Staged.removed, kept := [], failed := [] }

def executeRemoval {ε : Type} (context : RemovalContext) (operations : List RemovalOperation) :
    Attempt Machine ε RemovalResult := do
  let (results, failure) ← world.removalLoop context [] operations
  match failure with
  | some row => world.abandonRemoval context operations results row
  | none =>
    if results.isEmpty then return { removed := [], kept := [], failed := [] }
    else
      match ← Attempt.settle (world.persistRemoval context (results.map Staged.entry)) with
      | .error message => world.returnRemoval context operations results message
      | .ok () => world.commitRemoval context results

end World

end MangoStudio.Library.Mutation
