import MangoStudio.Lib.Attempt
import Mathlib.Logic.Function.Basic

/-!
# The disk under a library mutation

The file-system calls of a library mutation, on a disk of file trees.

* A `Place` is where a mutation keeps a tree: the path of a resource, a
  dot-prefixed sibling of it, or a copy in a backup set.  The places of two
  resources are apart: no resource lies in another one or in the backup root.
* A call may fail.  What fails, and what a copy or a removal that fails leaves
  behind, is up to the world (`World.oracle`), by the number of the call.  A
  rename, a write of a file and a read have no effect when they fail.
* The machine keeps every disk there has been (`Machine.past`) and a log of its
  calls, each with its outcome.  What a process that is stopped inside a call
  leaves is what the call leaves when it fails there.
* The content hash is a function of the world; a resource that cannot be hashed
  gives an error.
-/

namespace MangoStudio.Library.Mutation

/-! ## Trees and places -/

inductive ResourceKind where
  | file
  | directory
  deriving DecidableEq, Repr

/-- A regular file or a directory of trees. -/
inductive Tree where
  | file (bytes : List UInt8)
  | directory (children : List (String × Tree))

def Tree.kind : Tree → ResourceKind
  | .file _ => .file
  | .directory _ => .directory

/-- What a dot-prefixed sibling of a resource is for. -/
inductive SiblingKind where
  | staging
  | previous
  | removing
  | restore
  deriving DecidableEq, Repr

inductive Place where
  | resource (path : String)
  | sibling (path suffix : String) (kind : SiblingKind)
  | copy (backupId locationId slug : String)
  deriving DecidableEq, Repr

/-! ## Manifests -/

/-- Which flow wrote a set. -/
inductive SetOperation where
  | propagation
  | removal
  deriving DecidableEq, Repr

structure BackupEntry where
  locationId : String
  slug : String
  kind : ResourceKind
  destinationPath : String
  /-- Where the write landed. -/
  resolvedPath : String
  /-- The copy from before the write; absent when the apply created the path. -/
  backupPath : Option Place
  /-- What the apply wrote, or the removal took. -/
  writtenContentHash : String
  resourceKey : Option String
  deriving DecidableEq, Repr

structure BackupManifest where
  backupId : String
  entries : List BackupEntry
  operation : SetOperation
  environmentId : Option String
  pinned : Option Bool
  lastCopyResourceKeys : Option (List String)
  deriving DecidableEq, Repr

/-- The manifest file of a set; a write that failed leaves it unreadable. -/
inductive ManifestFile where
  | absent
  | torn
  | written (manifest : BackupManifest)

/-! ## Disks -/

structure Disk where
  tree : Place → Option Tree
  manifest : String → ManifestFile

namespace Disk

def put (disk : Disk) (place : Place) (tree : Option Tree) : Disk :=
  { disk with tree := Function.update disk.tree place tree }

@[simp] theorem put_self (disk : Disk) (place : Place) (tree : Option Tree) :
    (disk.put place tree).tree place = tree := Function.update_self ..

theorem put_of_ne (disk : Disk) {place other : Place} (tree : Option Tree) (h : other ≠ place) :
    (disk.put place tree).tree other = disk.tree other := Function.update_of_ne h ..

/-- Replaces what is in a set. -/
def putSet (disk : Disk) (backupId : String) (copies : String → String → Option Tree)
    (manifest : ManifestFile) : Disk where
  tree := fun place => match place with
    | .copy id locationId slug =>
      if id = backupId then copies locationId slug else disk.tree (.copy id locationId slug)
    | place => disk.tree place
  manifest := Function.update disk.manifest backupId manifest

end Disk

/-! ## Calls -/

/-- A failed call, and what it may leave behind. -/
structure Failure where
  message : String
  /-- What is left where a copy or a removal stopped. -/
  tree : Option Tree
  /-- What is left of the copies of a set whose removal stopped. -/
  copies : String → String → Option Tree
  /-- Whether the manifest of that set is left. -/
  manifestLeft : Bool

/-- The calls, by what they are for. -/
inductive Step where
  | inspect | sourceCheck | parentDir | existing
  | backupDir | backupCopy | listSets | evictSet
  | stageCopy | stageDir | stageWrite | removeStage
  | swapAside | swapIn | swapBack | removePrevious
  | writeFile | verify | observe
  | restoreDir | restoreCopy | restoreCleanup | restoreRemove | restoreRename | rollbackRemove
  | setDir | writeManifest | readManifest | discardSet
  | stageCheck | stageRename | stagedCheck | stageReturn | unstage | commit
  | undoHash | undoRemove | undoPresent
  deriving DecidableEq, Repr

structure Machine where
  disk : Disk
  past : List Disk := []
  log : List (Step × Bool) := []

/-- The machine after a call. -/
def Machine.next (machine : Machine) (step : Step) (succeeded : Bool) (disk : Disk) : Machine :=
  ⟨disk, machine.disk :: machine.past, machine.log ++ [(step, succeeded)]⟩

/-- Why a resource has no hash. -/
inductive HashError where
  | invalid (reason : String)
  | escape
  | tooLarge
  | io (message : String)
  deriving DecidableEq, Repr

/-- What a listing of the backup root says of a set. -/
structure ListedSet where
  id : String
  sizeBytes : Nat
  deriving DecidableEq, Repr

/-- What the code does not decide: failures, random names, hashes, the listing of the backup
root and the interruptions. -/
structure World where
  oracle : Nat → Option Failure
  suffix : Nat → String
  hash : ResourceKind → Tree → Except HashError String
  /-- How a place is spelled in a message. -/
  display : Place → String
  /-- The sets that a call finds under the backup root, newest first. -/
  listSets : Nat → Disk → List ListedSet
  /-- The configured count; zero stands for one that is not a positive safe integer. -/
  retentionCount : Nat
  retentionBytes : Nat
  interrupted : Nat → Option String

/-- What the operating system says of a missing path. -/
def noSuchFile : String := "No such file or directory (os error 2)"

namespace World

variable (world : World) {ε α : Type}

/-- A call: the world may fail it, and it may refuse what it finds. -/
def call (step : Step) (failed : String → ε) (effect : Disk → Except ε (α × Disk))
    (debris : Failure → Disk → Disk) : Attempt Machine ε α :=
  Attempt.act fun machine =>
    match world.oracle machine.log.length with
    | some failure =>
      (machine.next step false (debris failure machine.disk), .error (failed failure.message))
    | none =>
      match effect machine.disk with
      | .ok (value, disk) => (machine.next step true disk, .ok value)
      | .error error => (machine.next step false machine.disk, .error error)

/-- A call that only reads. -/
def read (step : Step) (failed : String → ε) (answer : Disk → Except ε α) :
    Attempt Machine ε α :=
  world.call step failed (fun disk => (answer disk).map fun value => (value, disk))
    fun _ disk => disk

/-- A name that the next call uses. -/
def randomSuffix : Attempt Machine ε String :=
  Attempt.look fun machine => world.suffix machine.log.length

/-- `mkdir -p`; directories that hold no resource are not part of the disk. -/
def createDirAll (step : Step) : Attempt Machine String Unit :=
  world.read step id fun _ => .ok ()

def exists_ (step : Step) (place : Place) : Attempt Machine String Bool :=
  world.read step id fun disk => .ok (disk.tree place).isSome

/-- `cp -r` to a destination that must not exist. -/
def copyTree (step : Step) (source destination : Place) : Attempt Machine String Unit :=
  world.call step id
    (fun disk => match disk.tree source with
      | none => .error noSuchFile
      | some tree =>
        if (disk.tree destination).isSome then
          .error ("Refusing to copy onto an existing path: " ++ world.display destination)
        else .ok ((), disk.put destination (some tree)))
    fun failure disk =>
      if (disk.tree destination).isSome then disk else disk.put destination failure.tree

/-- What is in the way of a rename: it replaces nothing, a file by a file, and an empty directory
by a directory. -/
def obstacle : Tree → Option Tree → Option String
  | _, none => none
  | .file _, some (.file _) => none
  | .file _, some (.directory _) => some "Is a directory (os error 21)"
  | .directory _, some (.file _) => some "Not a directory (os error 20)"
  | .directory _, some (.directory []) => none
  | .directory _, some (.directory (_ :: _)) => some "Directory not empty (os error 39)"

def rename (step : Step) (source destination : Place) : Attempt Machine String Unit :=
  world.call step id
    (fun disk => match disk.tree source with
      | none => .error noSuchFile
      | some tree =>
        match obstacle tree (disk.tree destination) with
        | none => .ok ((), (disk.put source none).put destination (some tree))
        | some error => .error error)
    fun _ disk => disk

/-- `rm -rf`: a missing path is a success. -/
def removeAll (step : Step) (place : Place) : Attempt Machine String Unit :=
  world.call step id (fun disk => .ok ((), disk.put place none))
    fun failure disk => if (disk.tree place).isSome then disk.put place failure.tree else disk

/-- A file replaced in one step, where the path that a user would name resolves. -/
def writeFileAtomic (step : Step) (path resolved : String) (contents : List UInt8) :
    Attempt Machine String Unit :=
  world.call step id
    (fun disk => match disk.tree (.resource resolved) with
      | some (.directory _) => .error ("Cannot write \"" ++ path ++ "\"" ++
          (if resolved = path then "" else ": it resolves to \"" ++ resolved ++ "\"") ++
          ", which is not a regular file.")
      | _ => .ok ((), disk.put (.resource resolved) (some (.file contents))))
    fun _ disk => disk

/-- The removal of a whole set. -/
def removeSet (step : Step) (backupId : String) : Attempt Machine String Unit :=
  world.call step id (fun disk => .ok ((), disk.putSet backupId (fun _ _ => none) .absent))
    fun failure disk => disk.putSet backupId
      (fun locationId slug =>
        if (disk.tree (.copy backupId locationId slug)).isSome then failure.copies locationId slug
        else none)
      (if failure.manifestLeft then disk.manifest backupId else .absent)

def hashAt (step : Step) (path : String) (kind : ResourceKind) :
    Attempt Machine HashError String :=
  world.read step HashError.io fun disk => match disk.tree (.resource path) with
    | none => .error (.io (match kind with
      | .file => path ++ ": " ++ noSuchFile
      | .directory => noSuchFile))
    | some tree => world.hash kind tree

end World

end MangoStudio.Library.Mutation
