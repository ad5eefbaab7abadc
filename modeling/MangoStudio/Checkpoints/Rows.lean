import MangoStudio.Filesystem.Snapshot

/-!
# Checkpoint rows

The manifest of the file mutations of an assistant message, as
`apps/api/src/services/tools/file-mutation-snapshot.ts` writes it and
`apps/api/src/modules/file-checkpoints` reads it back.

* A mutation stores the content that it replaced as a blob and opens a row.  A
  mutation that is not a move finds the latest row of the message that starts
  at its path, and if that is not a move it only overwrites the hash there.
* A revert turns the rows into a request for the runtime: one operation for
  each row, newest first, and for each path the hash that the message left and
  the hash that was there before.

The table is the list of its rows by ascending id.  The modification time of a
row is its `createdAt`.  The retention that follows an insertion is left out
here, and so are the fields of the tool result that show the old content to the
model.
-/

namespace MangoStudio.Checkpoints

open Filesystem

variable {π μ : Type} [DecidableEq π]

/-! ## Rows -/

inductive FileCheckpointOp where
  | create
  | edit
  | delete
  | move
  deriving DecidableEq

/-- The content before a mutation, as the runtime sends it. -/
structure RuntimeBeforeSnapshot where
  isPresent : Bool
  contentBase64 : Option String := none
  hash : Option String := none

/-- A mutation that the runtime made.  Moves, and only moves, have a target. -/
structure RuntimeMutationSnapshot (π : Type) where
  path : π
  op : FileCheckpointOp
  before : RuntimeBeforeSnapshot
  afterHash : String
  movedTo : Option π := none
  moves : op = .move ↔ movedTo.isSome

/-- A row of the table `file_checkpoints`. -/
structure FileCheckpoint (π : Type) where
  id : Nat
  chatId : String
  messageId : String
  environmentId : String
  path : π
  op : FileCheckpointOp
  beforeHash : Option String
  afterHash : Option String
  movedTo : Option π
  blobKey : Option String
  createdAt : Nat
  revertedAt : Option Nat := none
  moves : op = .move ↔ movedTo.isSome

/-- The table and the blob store. -/
structure Database (π : Type) where
  rows : List (FileCheckpoint π) := []
  nextId : Nat := 0
  blobs : Table String Bytes := ∅

/-- Who a mutation is made for. -/
structure MutationContext where
  chatId : String
  messageId : String
  environmentId : String

/-! ## The table -/

def FileCheckpoint.isOf (row : FileCheckpoint π) (chatId messageId : String) : Bool :=
  row.chatId == chatId && row.messageId == messageId

/-- The latest row that starts at the path, unless it carried the content away. -/
def findCheckpointRow (rows : List (FileCheckpoint π)) (chatId messageId : String) (path : π) :
    Option (FileCheckpoint π) :=
  match (rows.filter fun row => row.isOf chatId messageId && row.path = path).getLast? with
  | some latest => if latest.movedTo.isNone then some latest else none
  | none => none

def updateCheckpointAfterHash (rows : List (FileCheckpoint π)) (id : Nat)
    (afterHash : Option String) : List (FileCheckpoint π) :=
  rows.map fun row => if row.id = id then { row with afterHash } else row

/-- The rows of a message that can be reverted. -/
def listActiveCheckpointsForMessage (rows : List (FileCheckpoint π)) (chatId messageId : String) :
    List (FileCheckpoint π) :=
  rows.filter fun row =>
    row.isOf chatId messageId && row.revertedAt.isNone && row.afterHash.isSome

def markMessageCheckpointsReverted (rows : List (FileCheckpoint π)) (chatId messageId : String)
    (revertedAt : Nat) : List (FileCheckpoint π) :=
  rows.map fun row =>
    if row.isOf chatId messageId && row.revertedAt.isNone then
      { row with revertedAt := some revertedAt }
    else row

/-! ## Recording a mutation -/

section Record

variable (sha256 : Bytes → String)

/-- Persists bytes once for each hash. -/
def storeCheckpointBlob (blobs : Table String Bytes) (bytes : Bytes) : Table String Bytes :=
  if (blobs.lookup (sha256 bytes)).isSome then blobs else blobs.insert (sha256 bytes) bytes

inductive DecodedSnapshot where
  | ok (bytes : Option Bytes) (beforeHash : Option String)
  | incomplete (expectedHash : Option String)
  | hashMismatch (expectedHash observedHash : String)

def decodeRuntimeSnapshot (snapshot : RuntimeBeforeSnapshot) : DecodedSnapshot :=
  if !snapshot.isPresent then .ok none none
  else
    match snapshot.contentBase64, snapshot.hash with
    | some contentBase64, some hash =>
      let bytes := decodeNodeBase64 contentBase64
      let beforeHash := sha256 bytes
      if beforeHash = hash then .ok (some bytes) (some beforeHash)
      else .hashMismatch hash beforeHash
    | _, hash => .incomplete hash

def DecodedSnapshot.bytes : DecodedSnapshot → Option Bytes
  | .ok bytes _ => bytes
  | _ => none

def DecodedSnapshot.beforeHash : DecodedSnapshot → Option String
  | .ok _ beforeHash => beforeHash
  | _ => none

def persistRuntimeMutation (db : Database π) (context : MutationContext)
    (mutation : RuntimeMutationSnapshot π) (now : Nat) : Database π :=
  let existing :=
    if mutation.op = .move then none
    else findCheckpointRow db.rows context.chatId context.messageId mutation.path
  match existing with
  | some row =>
    { db with rows := updateCheckpointAfterHash db.rows row.id (some mutation.afterHash) }
  | none =>
    let decoded := decodeRuntimeSnapshot sha256 mutation.before
    { rows := db.rows ++
        [{ id := db.nextId, chatId := context.chatId, messageId := context.messageId
           environmentId := context.environmentId, path := mutation.path, op := mutation.op
           beforeHash := decoded.beforeHash, afterHash := some mutation.afterHash
           movedTo := mutation.movedTo, blobKey := decoded.bytes.map sha256, createdAt := now
           moves := mutation.moves }]
      nextId := db.nextId + 1
      blobs := decoded.bytes.elim db.blobs (storeCheckpointBlob sha256 db.blobs) }

end Record

/-! ## Reverting a message -/

/-- Why a message could not be reverted.  The first three are
`FileCheckpointConflictError`. -/
inductive RevertError where
  | conflict (resolvedPath : String)
  | notCaptured (path : String)
  | noLongerAvailable (path : String)
  | multipleEnvironments (environmentIds : List String)
  /-- The runtime failed for another reason. -/
  | runtime (error : RemoteError)

variable [ToString π]

def readRequiredBlob (blobs : Table String Bytes) (row : FileCheckpoint π) :
    Except RevertError String :=
  match row.blobKey with
  | none => .error (.notCaptured (toString row.path))
  | some blobKey =>
    match blobs.lookup blobKey with
    | none => .error (.noLongerAvailable (toString row.path))
    | some bytes => .ok (Base64.encode bytes)

def revertOperation (blobs : Table String Bytes) (row : FileCheckpoint π) :
    Except RevertError (SnapshotRevertOperation π) :=
  match row.op with
  | .create => .ok (.create row.path)
  | .delete | .edit => do return .restore row.path (← readRequiredBlob blobs row)
  | .move =>
    match row.movedTo with
    | none => .error (.conflict (toString row.path))
    | some movedTo => do return .move row.path movedTo (← readRequiredBlob blobs row)

/-- One operation for each row, newest first. -/
def buildRevertOperations (blobs : Table String Bytes) (rows : List (FileCheckpoint π)) :
    Except RevertError (List (SnapshotRevertOperation π)) :=
  rows.reverse.mapM (revertOperation blobs)

/-- What the message left on disk. -/
def finalStateByPath (rows : List (FileCheckpoint π)) : OrderedMap π String :=
  rows.foldl
    (fun expected row =>
      let afterHash := row.afterHash.getD absentHash
      match row.movedTo with
      | some movedTo =>
        OrderedMap.set (OrderedMap.set expected row.path absentHash) movedTo afterHash
      | none => OrderedMap.set expected row.path afterHash)
    []

/-- What a completed revert leaves on disk. -/
def revertedStateByPath (rows : List (FileCheckpoint π)) : OrderedMap π String :=
  rows.reverse.foldl
    (fun reverted row =>
      let emptied :=
        match row.movedTo with
        | some movedTo => OrderedMap.set reverted movedTo absentHash
        | none => reverted
      OrderedMap.set emptied row.path
        (if row.op = .create then absentHash else row.beforeHash.getD absentHash))
    []

def expectedPaths (rows : List (FileCheckpoint π)) : List (SnapshotExpectedPath π) :=
  (finalStateByPath rows).map fun entry =>
    ⟨entry.1, entry.2, OrderedMap.get (revertedStateByPath rows) entry.1⟩

/-- The environments of the rows, which have to be one. -/
def checkpointEnvironmentId (rows : List (FileCheckpoint π)) : Except RevertError Unit :=
  let environmentIds := (rows.map FileCheckpoint.environmentId).eraseDups
  if environmentIds.length > 1 then .error (.multipleEnvironments environmentIds) else .ok ()

/-- A detail that is a text. -/
def detailText (error : RemoteError) (key : String) : Option String :=
  (error.details.getD []).findSome? fun member =>
    if member.1 == key then
      match member.2 with
      | .str value => some value
      | _ => none
    else none

/-- A conflict of the runtime is one of the message. -/
def revertFailure (error : RemoteError) : RevertError :=
  if detailText error "kind" = some "snapshot_conflict" then
    .conflict ((detailText error "resolvedPath").getD "")
  else .runtime error

section Revert

variable (sha256 : Bytes → String) (stamp : Nat → μ)

def revertMessageFileCheckpoints (tree : Directories π) (dirs : List π) (db : Database π)
    (workspace : Workspace π μ) (chatId messageId : String) (now : Nat) :
    Database π × Workspace π μ × Except RevertError Nat :=
  let rows := listActiveCheckpointsForMessage db.rows chatId messageId
  if rows.isEmpty then (db, workspace, .ok 0)
  else
    match buildRevertOperations db.blobs rows with
    | .error error => (db, workspace, .error error)
    | .ok operations =>
      match checkpointEnvironmentId rows with
      | .error error => (db, workspace, .error error)
      | .ok () =>
        match revertSnapshotsAmong sha256 stamp chatId tree dirs (expectedPaths rows) operations
          workspace with
        | (workspace, .error error) => (db, workspace, .error (revertFailure error))
        | (workspace, .ok revertedFiles) =>
          ({ db with rows := markMessageCheckpointsReverted db.rows chatId messageId now },
            workspace, .ok revertedFiles)

end Revert

end MangoStudio.Checkpoints
