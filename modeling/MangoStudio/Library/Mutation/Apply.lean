import MangoStudio.Library.Mutation.Writer

/-!
# The engine of `library.apply`

Write, verify, record the manifest, and compensate on failure.  Every operation
is one write followed by a hash of what landed.  The loop stops at the first
failure, an interruption between two operations included, and rolls back what
it wrote, newest first.

The adaptation that an applied row repeats, the list of skipped operations,
which the engine always leaves empty, and the clock are left out.  The id of the
set is the one that the request carried or the store made up.
-/

namespace MangoStudio.Library.Mutation

structure ApplyOperation where
  resourceKey : String
  locationId : String
  slug : String
  operation : String
  kind : ResourceKind
  expectedContentHash : String
  destinationRoot : String
  directory : Option DirectorySource
  contents : Option (List UInt8)

structure Applied where
  resourceKey : String
  environmentId : String
  locationId : String
  operation : String
  destinationPath : String
  contentHash : String

inductive FailureReason where
  | guardRejected
  | verificationFailed
  | writeFailed
  | backupFailed
  | removeFailed
  deriving DecidableEq, Repr

/-- A failed row of an apply or of a removal. -/
structure FailureRow where
  resourceKey : String
  environmentId : String
  locationId : String
  reason : FailureReason
  message : String
  deriving DecidableEq, Repr

structure BackupHandle where
  environmentId : String
  backupId : String
  deriving DecidableEq, Repr

structure ApplyResult where
  backupId : Option String := none
  backups : List BackupHandle := []
  isPartial : Bool := false
  applied : List Applied
  failed : List FailureRow

def ApplyResult.withSet (result : ApplyResult) (environmentId backupId : String) : ApplyResult :=
  { result with backupId := some backupId, backups := [⟨environmentId, backupId⟩] }

/-- What an apply or a removal is given besides its operations. -/
structure MutationContext where
  registry : Registry
  environmentId : Option String
  backupId : String

/-- The environment that rows name. -/
def MutationContext.environment (context : MutationContext) : String :=
  context.environmentId.getD "local"

inductive OpError where
  | guard (message : String)
  | verification (message observed : String)
  | failed (message : String)

namespace OpError

def reason : OpError → FailureReason
  | .guard _ => .guardRejected
  | .verification _ _ => .verificationFailed
  | .failed _ => .writeFailed

def message : OpError → String
  | .guard message => message
  | .verification message _ => message
  | .failed message => message

def ofWriter : WriterError → OpError
  | .policy error => .guard error.message
  | .failed message => .failed message

end OpError

/-- A failed operation, with the entry to keep when its own compensation failed too. -/
structure OpFailure where
  error : OpError
  uncompensated : Option BackupEntry := none

def describe (operation : ApplyOperation) (environmentId : String) (error : OpError) :
    FailureRow :=
  ⟨operation.resourceKey, environmentId, operation.locationId, error.reason, error.message⟩

def HashError.message : HashError → String
  | .invalid reason => "Library directory hash invalid: " ++ reason
  | .escape => "Library resource resolves outside its root."
  | .tooLarge => "Library resource exceeds the hashing limits."
  | .io message => message

def entryFrom (operation : ApplyOperation) (result : WriteResult) (writtenContentHash : String) :
    BackupEntry where
  locationId := operation.locationId
  slug := operation.slug
  kind := operation.kind
  destinationPath := result.destinationPath
  resolvedPath := result.resolvedDestinationPath
  backupPath := result.backupPath
  writtenContentHash := writtenContentHash
  resourceKey := some operation.resourceKey

namespace World

variable (world : World)

/-- One entry put back: restored from its copy, or removed where the apply created it. -/
def compensate (entry : BackupEntry) : Attempt Machine String Unit :=
  match entry.backupPath with
  | some _ => world.restoreEntry entry
  | none => world.removeAll .rollbackRemove (.resource entry.resolvedPath)

/-- Puts the entries back, newest first; whether all of them could be. -/
def rollback {ε : Type} (written : List BackupEntry) : Attempt Machine ε Bool := do
  let outcomes ← written.reverse.mapM fun entry => Attempt.settle (world.compensate entry)
  return outcomes.all fun outcome => outcome.isOk

/-- The location must resolve to the root that the preview showed. -/
def assertPreviewedRoot (registry : Registry) (operation : ApplyOperation) :
    Except OpError Unit := do
  (registry.writable operation.locationId operation.kind).mapError fun error => .guard error.message
  let previewed := (registry.root operation.locationId).any fun root =>
    registry.nodeResolve root = registry.nodeResolve operation.destinationRoot
  if previewed then return
  else throw (.guard ("\"" ++ operation.locationId ++ "\" resolves to \"" ++
    (registry.root operation.locationId).getD "nothing" ++ "\" on this machine, not the previewed \""
    ++ operation.destinationRoot ++ "\"."))

def performWrite (context : MutationContext) (operation : ApplyOperation) :
    Attempt Machine OpError WriteResult :=
  let target : WriteTarget := ⟨operation.locationId, operation.slug, context.backupId⟩
  match operation.kind with
  | .directory =>
    match operation.directory with
    | none => throw (.verification ("\"" ++ operation.resourceKey ++
        "\" is a directory write without a source directory or its files.") "")
    | some source =>
      Attempt.mapError .ofWriter (world.writeDirectory context.registry target source)
  | .file =>
    match operation.contents with
    | none => throw (.verification ("\"" ++ operation.resourceKey ++
        "\" is a file write without contents.") "")
    | some contents =>
      Attempt.mapError .ofWriter (world.writeFile context.registry target contents)

/-- What the hash of a written resource means for the operation. -/
def judge (operation : ApplyOperation) (result : WriteResult) :
    Except HashError String → Except OpError String
  | .ok digest =>
    if digest = operation.expectedContentHash then .ok digest
    else .error (.verification ("Wrote \"" ++ result.destinationPath ++
      "\" but its content hashed to " ++ digest ++ ", not " ++ operation.expectedContentHash ++ ".")
      digest)
  | .error (.invalid reason) => .error (.verification ("Wrote \"" ++ result.destinationPath ++
      "\" but hashing it failed (" ++ reason ++ ").") "")
  | .error error => .error (.failed error.message)

/-- The digest that a failed verification records. -/
def observedDigest (operation : ApplyOperation) (result : WriteResult) (error : OpError) :
    Attempt Machine OpFailure String := do
  let observe : Attempt Machine OpFailure String := do
    let digest ← Attempt.settle
      (world.hashAt .observe result.resolvedDestinationPath operation.kind)
    return digest.toOption.getD ""
  match error with
  | .verification _ observed => if observed ≠ "" then return observed else observe
  | _ => observe

/-- The end of an operation whose bytes are on disk but failed their check: this one write is
compensated here, and its entry is kept where that fails. -/
def retreat (operation : ApplyOperation) (result : WriteResult) (error : OpError) :
    Attempt Machine OpFailure (BackupEntry × Applied) := do
  let observed ← world.observedDigest operation result error
  let entry := entryFrom operation result observed
  let rolledBack ← world.rollback [entry]
  throw ⟨error, if rolledBack then none else some entry⟩

def executeOperation (context : MutationContext) (operation : ApplyOperation) :
    Attempt Machine OpFailure (BackupEntry × Applied) := do
  Attempt.mapError (fun error => ⟨error, none⟩)
    (Attempt.ofExcept (assertPreviewedRoot context.registry operation))
  let result ← Attempt.mapError (fun error => ⟨error, none⟩) (world.performWrite context operation)
  let digest ← Attempt.settle
    (world.hashAt .verify result.resolvedDestinationPath operation.kind)
  match judge operation result digest with
  | .ok contentHash =>
    return (entryFrom operation result contentHash,
      ⟨operation.resourceKey, context.environment, operation.locationId, operation.operation,
        result.destinationPath, contentHash⟩)
  | .error error => world.retreat operation result error

/-- What the loop over the operations leaves. -/
structure Progress where
  written : List BackupEntry := []
  applied : List Applied := []
  failed : List FailureRow := []

/-- One operation, or the interruption that is observed before it. -/
def attemptOperation {ε : Type} (context : MutationContext) (boundary : Nat)
    (operation : ApplyOperation) :
    Attempt Machine ε (Except OpFailure (BackupEntry × Applied)) :=
  match world.interrupted boundary with
  | some message => pure (.error ⟨.failed message, none⟩)
  | none => Attempt.settle (world.executeOperation context operation)

/-- The loop, which stops at the first failure. -/
def applyLoop {ε : Type} (context : MutationContext) :
    Progress → List ApplyOperation → Attempt Machine ε Progress
  | progress, [] => return progress
  | progress, operation :: rest => do
    match ← world.attemptOperation context progress.written.length operation with
    | .ok (entry, row) =>
      applyLoop context
        { progress with
          written := progress.written ++ [entry], applied := progress.applied ++ [row] }
        rest
    | .error failure =>
      return { progress with
        written := progress.written ++ failure.uncompensated.toList
        failed := progress.failed ++ [describe operation context.environment failure.error] }

/-- The row for a manifest that could not be recorded. -/
def manifestFailure (operations : List ApplyOperation) (environmentId backupId message : String) :
    FailureRow where
  resourceKey := (operations.head?.map ApplyOperation.resourceKey).getD ""
  environmentId := environmentId
  locationId := (operations.head?.map ApplyOperation.locationId).getD ""
  reason := .writeFailed
  message := "Could not record the backup manifest, so this apply cannot be undone automatically; " ++
    "the previous copies are under backup set \"" ++ backupId ++ "\": " ++ message

/-- The manifest, then retention, which keeps this set. -/
def persist (context : MutationContext) (written : List BackupEntry) :
    Attempt Machine String Unit := do
  world.writeManifest ⟨context.backupId, written, .propagation, context.environmentId, none, none⟩
  world.prune context.backupId

/-- The end of an apply in which an operation failed. -/
def settleFailed {ε : Type} (context : MutationContext) (operations : List ApplyOperation)
    (progress : Progress) : Attempt Machine ε ApplyResult := do
  if ← world.rollback progress.written then
    let _ ← Attempt.settle (world.discardSet context.backupId)
    return { applied := [], failed := progress.failed }
  else
    let recorded ← Attempt.settle (world.persist context progress.written)
    let failed := match recorded with
      | .ok () => progress.failed
      | .error message => progress.failed ++
        [manifestFailure operations context.environment context.backupId message]
    return { ({ applied := progress.applied, failed } : ApplyResult).withSet context.environment
        context.backupId with isPartial := true }

/-- The end of an apply in which every write landed. -/
def settleWritten {ε : Type} (context : MutationContext) (operations : List ApplyOperation)
    (progress : Progress) : Attempt Machine ε ApplyResult := do
  match ← Attempt.settle (world.persist context progress.written) with
  | .ok () =>
    return ({ applied := progress.applied, failed := progress.failed } : ApplyResult).withSet
      context.environment context.backupId
  | .error message =>
    let row := manifestFailure operations context.environment context.backupId message
    if ← world.rollback progress.written then
      let _ ← Attempt.settle (world.discardSet context.backupId)
      return { applied := [], failed := [{ row with
        message := "Could not record the backup manifest, so the apply was rolled back: " ++
          message }] }
    else
      return { ({ applied := progress.applied, failed := progress.failed ++ [row] } :
          ApplyResult).withSet context.environment context.backupId with isPartial := true }

def executeApply {ε : Type} (context : MutationContext) (operations : List ApplyOperation) :
    Attempt Machine ε ApplyResult := do
  let progress ← world.applyLoop context {} operations
  if progress.failed.isEmpty then
    if progress.written.isEmpty then
      return { applied := progress.applied, failed := progress.failed }
    else world.settleWritten context operations progress
  else world.settleFailed context operations progress

end World

end MangoStudio.Library.Mutation
