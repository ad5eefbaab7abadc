import Mathlib.Data.List.Sort
import MangoStudio.Checkpoints.Recording

/-!
# Storing and releasing blobs

The insertion of a checkpoint row and the deletion of the rows of a message, as
processes that take turns.  A process runs from one `await` to the next, and
other processes can run in between.

* An insertion looks for its blob and writes it if it is not there, inserts its
  row, and then enforces the retention of its chat: at most 50 messages and 256
  MiB of blobs.  The retention deletes messages one after the other.
* A deletion reads the keys of the message's rows, deletes the rows, and then
  for each key looks for a row of any chat with that key, and deletes the blob
  if there is none.

Nothing ties the look to what follows it.

The table of uncheckpointed sources, which a deletion also clears, has nothing
to do with the blobs and is left out, and a file operation does not fail here.
-/

namespace MangoStudio.Checkpoints

open Filesystem

variable {π : Type} [DecidableEq π]

/-! ## Deleting a message -/

/-- The distinct keys of some rows. -/
def blobKeys (rows : List (FileCheckpoint π)) : List String :=
  ((rows.filterMap FileCheckpoint.blobKey).filter fun key => key != "").eraseDups

def isBlobKeyReferenced (rows : List (FileCheckpoint π)) (blobKey : String) : Bool :=
  rows.any fun row => row.blobKey == some blobKey

/-- What `deleteMessageCheckpoints` does next. -/
inductive Deletion where
  | select (messageId : String)
  | delete (messageId : String) (keys : List String)
  | clearSources (keys : List String)
  /-- `isStillReferenced` of the first key. -/
  | check (key : String) (rest : List String)
  | unlink (key : String) (rest : List String)

/-- `releaseCheckpointBlobs` goes on with the keys that are left. -/
def releaseCheckpointBlobs : List String → Option Deletion
  | [] => none
  | key :: rest => some (.check key rest)

/-- One turn of `deleteMessageCheckpoints`, and what is left of it. -/
def deleteMessageCheckpoints (db : Database π) (chatId : String) :
    Deletion → Database π × Option Deletion
  | .select messageId =>
    (db, some (.delete messageId (blobKeys (db.rows.filter fun row => row.isOf chatId messageId))))
  | .delete messageId keys =>
    ({ db with rows := db.rows.filter fun row => !row.isOf chatId messageId },
      some (.clearSources keys))
  | .clearSources keys => (db, releaseCheckpointBlobs keys)
  | .check key rest =>
    if isBlobKeyReferenced db.rows key then (db, releaseCheckpointBlobs rest)
    else (db, some (.unlink key rest))
  | .unlink key rest => ({ db with blobs := db.blobs.erase key }, releaseCheckpointBlobs rest)

/-! ## Retention -/

def maxCheckpointMessagesPerChat : Nat := 50

def maxCheckpointBytesPerChat : Nat := 256 * 1024 * 1024

/-- The messages of a chat that have rows, oldest first. -/
def messagesByAge (rows : List (FileCheckpoint π)) (chatId : String) : List String :=
  let earliestByMessage := (rows.filter fun row => row.chatId == chatId).foldl
    (fun (earliest : OrderedMap String Nat) row =>
      match OrderedMap.get earliest row.messageId with
      | none => OrderedMap.set earliest row.messageId row.createdAt
      | some prev =>
        if row.createdAt < prev then OrderedMap.set earliest row.messageId row.createdAt
        else earliest)
    []
  (earliestByMessage.insertionSort fun left right => left.2 ≤ right.2).map Prod.fst

/-- `checkpointBlobSize`: nothing for a blob that is gone. -/
def checkpointBlobSize (blobs : Table String Bytes) (blobKey : String) : Nat :=
  ((blobs.lookup blobKey).map List.length).getD 0

/-- What `enforceChatRetention` does next. -/
inductive Retention where
  | list
  /-- The loop over the messages beyond the limit, and all messages by age. -/
  | drop (deletion : Deletion) (toDrop byAge : List String)
  /-- The query of `sumChatBlobBytes`, before the messages that are left. -/
  | sum (byAge : List String)
  | weigh (keys : List String) (byAge : List String)
  | trim (deletion : Deletion) (byAge : List String)

def nextDrop (byAge : List String) : List String → Retention
  | [] => .sum byAge
  | messageId :: toDrop => .drop (.select messageId) toDrop byAge

def nextTrim (totalBytes : Nat) : List String → Option Retention
  | [] => none
  | messageId :: byAge =>
    if totalBytes ≤ maxCheckpointBytesPerChat then none
    else some (.trim (.select messageId) byAge)

/-- One turn of `enforceChatRetention`, and what is left of it. -/
def enforceChatRetention (db : Database π) (chatId : String) :
    Retention → Database π × Option Retention
  | .list =>
    let byAge := messagesByAge db.rows chatId
    (db, some (nextDrop byAge (byAge.take (byAge.length - maxCheckpointMessagesPerChat))))
  | .drop deletion toDrop byAge =>
    match deleteMessageCheckpoints db chatId deletion with
    | (db, some deletion) => (db, some (.drop deletion toDrop byAge))
    | (db, none) => (db, some (nextDrop byAge toDrop))
  | .sum byAge =>
    (db, some (.weigh (blobKeys (db.rows.filter fun row => row.chatId == chatId)) byAge))
  | .weigh keys byAge =>
    (db, nextTrim (keys.map (checkpointBlobSize db.blobs)).sum byAge)
  | .trim deletion byAge =>
    match deleteMessageCheckpoints db chatId deletion with
    | (db, some deletion) => (db, some (.trim deletion byAge))
    | (db, none) => (db, some (.sum byAge))

/-! ## Processes -/

/-- What an insertion does next. -/
inductive Insertion where
  /-- `storeCheckpointBlob` asks whether the blob is there. -/
  | look (bytes : Bytes)
  | mkdir (bytes : Bytes)
  | write (bytes : Bytes)
  | insertRow (content : Option Bytes)
  | retain (retention : Retention)

inductive Process (π : Type) where
  | insertion (context : MutationContext) (mutation : RuntimeMutationSnapshot π)
      (next : Insertion)
  | deletion (chatId : String) (next : Deletion)
  | done

section Step

variable (sha256 : Bytes → String)

/-- `persistRuntimeMutation` for a mutation that finds no row. -/
def startInsertion (context : MutationContext) (mutation : RuntimeMutationSnapshot π) :
    Process π :=
  match (decodeRuntimeSnapshot sha256 mutation.before).bytes with
  | some bytes => .insertion context mutation (.look bytes)
  | none => .insertion context mutation (.insertRow none)

/-- One turn of a process. -/
def Process.turn (db : Database π) (now : Nat) : Process π → Database π × Process π
  | .insertion context mutation (.look bytes) =>
    if (db.blobs.lookup (sha256 bytes)).isSome then
      (db, .insertion context mutation (.insertRow (some bytes)))
    else (db, .insertion context mutation (.mkdir bytes))
  | .insertion context mutation (.mkdir bytes) =>
    (db, .insertion context mutation (.write bytes))
  | .insertion context mutation (.write bytes) =>
    ({ db with blobs := db.blobs.insert (sha256 bytes) bytes },
      .insertion context mutation (.insertRow (some bytes)))
  | .insertion context mutation (.insertRow content) =>
    ({ db with
        rows := db.rows ++ [newRow sha256 db context mutation content now]
        nextId := db.nextId + 1 },
      .insertion context mutation (.retain .list))
  | .insertion context mutation (.retain retention) =>
    match enforceChatRetention db context.chatId retention with
    | (db, some retention) => (db, .insertion context mutation (.retain retention))
    | (db, none) => (db, .done)
  | .deletion chatId next =>
    match deleteMessageCheckpoints db chatId next with
    | (db, some next) => (db, .deletion chatId next)
    | (db, none) => (db, .done)
  | .done => (db, .done)

/-- The keys that a turn writes. -/
def Process.writes : Process π → List String
  | .insertion _ _ (.write bytes) => [sha256 bytes]
  | _ => []

/-- The database and the processes, and the keys that processes have written. -/
structure Hub (π : Type) where
  db : Database π
  processes : List (Process π) := []
  written : List String := []

inductive HubEvent (π : Type) where
  | insert (context : MutationContext) (mutation : RuntimeMutationSnapshot π)
  | delete (chatId messageId : String)
  /-- A process takes its turn. -/
  | turn (process : Nat) (now : Nat)

def Hub.step (hub : Hub π) : HubEvent π → Hub π
  | .insert context mutation =>
    { hub with processes := hub.processes ++ [startInsertion sha256 context mutation] }
  | .delete chatId messageId =>
    { hub with processes := hub.processes ++ [.deletion chatId (.select messageId)] }
  | .turn i now =>
    match hub.processes[i]? with
    | none => hub
    | some process =>
      { db := (process.turn sha256 hub.db now).1
        processes := hub.processes.set i (process.turn sha256 hub.db now).2
        written := hub.written ++ process.writes sha256 }

/-- No process is between its steps. -/
def Hub.Quiet (hub : Hub π) : Prop :=
  ∀ process ∈ hub.processes, process = .done

end Step

/-! ## An insertion on its own -/

end MangoStudio.Checkpoints
