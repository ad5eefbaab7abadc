import MangoStudio.Library.ContentHash

/-!
# Applying a library propagation across machines

The write half of a propagation, from the prepared batches on: one batch for
each destination machine, written one machine after another.

* What a machine answers is a parameter (`ApplyDeps.connect`, `ApplyDeps.apply`), and so is
  what the backup index and the acknowledgements answer.
* A batch that carries too much is refused before it is sent
  (`toRuntimeApplyParams`); that refusal, like every rejection of a machine,
  leaves the loop.
* `Settled` is what a caller can find afterwards: the result or the error, and
  the handles in the backup index.

Planning and preparing the batches, the path environments, the caches and the
activity feed are left out.
-/

namespace MangoStudio.Library

/-! ## Batches and results -/

/-- One file of a prepared tree. -/
structure PreparedPropagationFile where
  relativePath : String
  contents : Bytes
  deriving DecidableEq, Repr

inductive PreparedKind where
  | file
  | directory
  deriving DecidableEq, Repr

/-- One write of a batch, with the bytes it carries. -/
structure PreparedPropagationOperation where
  resourceKey : String
  locationId : String
  kind : PreparedKind
  expectedContentHash : String
  contents : Option Bytes := none
  files : Option (List PreparedPropagationFile) := none
  deriving DecidableEq, Repr

/-- A batch and the machine it is for. -/
structure Batch where
  environmentId : String
  operations : List PreparedPropagationOperation
  deriving DecidableEq, Repr

/-- One machine's backup set, and the machine it is on. -/
structure PropagationBackupHandle where
  environmentId : String
  backupId : String
  deriving DecidableEq, Repr

/-- What happened to one placement. -/
structure Placement where
  resourceKey : String
  environmentId : String
  locationId : String
  deriving DecidableEq, Repr

structure PropagationFailure where
  placement : Placement
  message : String
  deriving DecidableEq, Repr

/-- The answer of one machine, and of the whole apply. -/
structure PropagationApply where
  backupId : Option String := none
  backups : List PropagationBackupHandle
  isPartial : Bool
  applied : List Placement
  skipped : List Placement
  failed : List PropagationFailure
  deriving DecidableEq, Repr

inductive ApplyError where
  | request (status : Nat) (message : String)
  | engine (message : String)
  deriving DecidableEq, Repr

/-! ## What is sent -/

/-- Where a machine keeps its backups. -/
structure BackupEnvelope where
  backupRoot : String
  retentionCount : Nat
  retentionBytes : Nat
  deriving DecidableEq, Repr

/-- A file of a tree, by the key of its content. -/
structure RuntimeFile where
  relativePath : String
  contentRef : String
  deriving DecidableEq, Repr

/-- A write, by the keys of its contents. -/
structure RuntimeOperation where
  resourceKey : String
  locationId : String
  kind : PreparedKind
  expectedContentHash : String
  contentRef : Option String
  files : Option (List RuntimeFile)
  deriving DecidableEq, Repr

structure RuntimeLibraryApplyParams where
  envelope : BackupEnvelope
  environmentId : String
  operations : List RuntimeOperation
  contents : List (String × Bytes)
  deriving DecidableEq, Repr

/-- Raw bytes one `library.apply` frame may carry across all of its operations. -/
def libraryApplyMaxContentBytes : Nat := 8 * 1024 * 1024

/-- The key of one file of a transferred tree. -/
def treeFileKey (contentHash relativePath : String) : String := contentHash ++ ":" ++ relativePath

/-- What is carried so far, and its bytes. -/
structure Carried where
  contents : List (String × Bytes) := []
  contentBytes : Nat := 0

/-- Carries a payload once for each key. -/
def carry (carried : Carried) (key : String) (bytes : Bytes) : Except ApplyError Carried :=
  if carried.contents.any fun entry => entry.1 = key then .ok carried
  else if libraryApplyMaxContentBytes < carried.contentBytes + bytes.length then
    .error (.request 422 ("This apply carries more content than one write can send. " ++
      "Apply fewer resources at a time."))
  else .ok ⟨carried.contents ++ [(key, bytes)], carried.contentBytes + bytes.length⟩

/-- The payloads of one operation. -/
def carryOperation (carried : Carried) (operation : PreparedPropagationOperation) :
    Except ApplyError Carried := do
  let carried ← match operation.contents with
    | some bytes => carry carried operation.expectedContentHash bytes
    | none => pure carried
  (operation.files.getD []).foldlM
    (fun carried file =>
      carry carried (treeFileKey operation.expectedContentHash file.relativePath) file.contents)
    carried

def runtimeOperation (operation : PreparedPropagationOperation) : RuntimeOperation where
  resourceKey := operation.resourceKey
  locationId := operation.locationId
  kind := operation.kind
  expectedContentHash := operation.expectedContentHash
  contentRef := if operation.kind = .file then some operation.expectedContentHash else none
  files := operation.files.map fun files => files.map fun file =>
    ⟨file.relativePath, treeFileKey operation.expectedContentHash file.relativePath⟩

def toRuntimeApplyParams (prepared : List PreparedPropagationOperation) (environmentId : String)
    (envelope : BackupEnvelope) : Except ApplyError RuntimeLibraryApplyParams := do
  let carried ← prepared.foldlM carryOperation {}
  return ⟨envelope, environmentId, prepared.map runtimeOperation, carried.contents⟩

/-! ## The loop over the machines -/

/-- What an apply depends on. -/
structure ApplyDeps where
  /-- The connection to a machine and its backup policy. -/
  connect : String → Except ApplyError BackupEnvelope
  /-- A machine's write engine. -/
  apply : String → RuntimeLibraryApplyParams → Except ApplyError PropagationApply
  /-- Whether the index files a handle. -/
  recordBackup : PropagationBackupHandle → Bool
  /-- The acknowledgement of a divergence the user kept. -/
  acknowledge : String → Except ApplyError Unit

namespace ApplyDeps

/-- One machine's batch: connect, build the payload, send it. -/
def runWriteEngine (deps : ApplyDeps) (batch : Batch) : Except ApplyError PropagationApply := do
  let envelope ← deps.connect batch.environmentId
  let params ← toRuntimeApplyParams batch.operations batch.environmentId envelope
  deps.apply batch.environmentId params

/-- A machine's answer joins what the machines before it answered. -/
def merge (written answer : PropagationApply) : PropagationApply where
  backups := written.backups ++ answer.backups
  isPartial := written.isPartial || answer.isPartial
  applied := written.applied ++ answer.applied
  skipped := written.skipped ++ answer.skipped
  failed := written.failed ++ answer.failed

/-- The loop. A machine that failed stops the rest. -/
def writeBatches (deps : ApplyDeps) :
    PropagationApply → List Batch → Except ApplyError PropagationApply
  | written, [] => .ok written
  | written, batch :: rest => do
    let answer ← deps.runWriteEngine batch
    let merged := merge written answer
    if answer.failed ≠ [] then
      return { merged with
        isPartial := merged.isPartial || decide (answer.backups.length < merged.backups.length) }
    else deps.writeBatches merged rest

/-- Nothing written yet. -/
def nothing : PropagationApply where
  backups := []
  isPartial := false
  applied := []
  skipped := []
  failed := []

/-- A single undo handle, where one machine was written to. -/
def singleBackupId (backups : List PropagationBackupHandle) : Option String :=
  match backups with
  | [handle] => some handle.backupId
  | _ => none

def runWriteEngineAcrossEnvironments (deps : ApplyDeps) (batches : List Batch) :
    Except ApplyError PropagationApply :=
  (deps.writeBatches nothing batches).map fun written =>
    { written with backupId := singleBackupId written.backups }

def runPreparedWrites (deps : ApplyDeps) (batches : List Batch) (skipped : List Placement) :
    Except ApplyError PropagationApply :=
  if batches = [] then .ok { nothing with skipped }
  else (deps.runWriteEngineAcrossEnvironments batches).map fun written =>
    { written with skipped := skipped ++ written.skipped }

/-- What is left when an apply is over. -/
structure Settled where
  outcome : Except ApplyError PropagationApply
  filed : List PropagationBackupHandle

/-- The end of `runApply`: write, file the handles, acknowledge what was kept. -/
def applyPrepared (deps : ApplyDeps) (batches : List Batch) (skipped : List Placement)
    (acknowledgements : List String) : Settled :=
  match deps.runPreparedWrites batches skipped with
  | .error error => ⟨.error error, []⟩
  | .ok written =>
    -- A handle that cannot be filed is logged, and the next one is tried.
    let filed := written.backups.filter deps.recordBackup
    if written.failed = [] then ⟨(acknowledgements.forM deps.acknowledge).map fun _ => written, filed⟩
    else ⟨.ok written, filed⟩

end ApplyDeps

end MangoStudio.Library
