import Mathlib.Logic.Function.Basic
import MangoStudio.Filesystem.Freshness

/-!
# Files

The regular files of a file system, and the operations of
`crates/mangostudio-runtime/src/filesystem/io.rs` on them.  A file system is a
map from paths to bytes, without links and without other kinds of file, and an
operation is one step.  Directories are made as needed and are not part of the
state.

An operation fails for what it can see in the map: a file that is not there, or
one that is in the way.  What an operating system can add to that is given by
the callers that care.
-/

namespace MangoStudio.Filesystem

open Protocol (Codes.internal)

abbrev Bytes := List UInt8

abbrev Files (π : Type) := π → Option Bytes

variable {π : Type} [DecidableEq π] [ToString π]

/-! ## Errors -/

def pathError (message : String) : RemoteError :=
  (RemoteError.mk Codes.internal message none).withDetail "kind" (.str "path_access")

/-- The error of the operating system, with its own text. -/
def ioError (message : String) : RemoteError := ⟨Codes.internal, message, none⟩

def fileNotFound (path : π) : RemoteError :=
  pathError ("File not found: \"" ++ toString path ++ "\"")

def destinationChangedError (path : π) : RemoteError :=
  (pathError ("Cannot write \"" ++ toString path ++ "\": the file changed after revalidation. " ++
    "Re-read it and retry the write.")).withDetail "kind" (.str "file_changed")

def deleteNotFound : RemoteError :=
  (ioError "No such file or directory (os error 2)").withDetail "notFound" (.bool true)

/-- A detail that is the boolean `true`. -/
def RemoteError.isSet (error : RemoteError) (key : String) : Bool :=
  (error.details.getD []).any fun member =>
    member.1 == key && match member.2 with
      | .bool value => value
      | _ => false

def isMissingPathError (error : RemoteError) : Bool :=
  "File not found:".isPrefixOf error.message ||
    "Filesystem object not found:".isPrefixOf error.message

def isNotFound (error : RemoteError) : Bool :=
  error.isSet "notFound" || isMissingPathError error

/-! ## Operations -/

/-- The length of a regular file. -/
def assertRegular (files : Files π) (path : π) : Except RemoteError Nat :=
  match files path with
  | none => .error (fileNotFound path)
  | some bytes => .ok bytes.length

/-- Fails if something is at the destination. -/
def assertDestinationAvailable (files : Files π) (path : π) (inputPath : String) :
    Except RemoteError Unit :=
  match files path with
  | none => .ok ()
  | some _ =>
    .error (pathError ("\"" ++ inputPath ++ "\" already exists and cannot be overwritten."))

/-- Replaces or creates a file, or only creates one if the write is exclusive. -/
def writeAtomic (files : Files π) (path : π) (bytes : Bytes) (exclusive : Bool) :
    Except RemoteError (Files π) :=
  if exclusive && (files path).isSome then .error (ioError "File exists (os error 17)")
  else .ok (Function.update files path (some bytes))

/-- Replaces a file while it has the observed bytes. -/
def writeAtomicIfUnchanged (files : Files π) (path : π) (expected bytes : Bytes) :
    Except RemoteError (Files π) :=
  match files path with
  | none => .error (ioError "No such file or directory (os error 2)")
  | some current =>
    if current = expected then .ok (Function.update files path (some bytes))
    else .error (destinationChangedError path)

/-- Moves a file to a free path, and returns what was moved. -/
def moveNoOverwrite (files : Files π) (source target : π) :
    Except RemoteError (Files π × Bytes) :=
  match files source with
  | none => .error (fileNotFound source)
  | some bytes =>
    match files target with
    | some _ =>
      .error (pathError ("\"" ++ toString target ++
        "\" already exists. Choose a different destination."))
    | none =>
      .ok (Function.update (Function.update files source none) target (some bytes), bytes)

def deleteFile (files : Files π) (path : π) : Except RemoteError (Files π) :=
  match files path with
  | none => .error deleteNotFound
  | some _ => .ok (Function.update files path none)

/-- The hash of a file, if it is there. -/
def hashFileIfPresent (sha256 : Bytes → String) (files : Files π) (path : π) : Option String :=
  (files path).map sha256

/-! ## The workspace of a request -/

/-- The files, the ledger, and the number of writes so far, which gives each
write its own modification time. -/
structure Workspace (π μ : Type) where
  files : Files π
  ledger : Ledger π μ := {}
  writes : Nat := 0

end MangoStudio.Filesystem
