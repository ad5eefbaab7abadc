import MangoStudio.Filesystem.Snapshot
import MangoStudio.Lib.Attempt
import MangoStudio.Lib.Footprint

/-!
# Applying a patch

`fs.apply-patch` of `crates/mangostudio-runtime/src/filesystem/patch_apply.rs`:
a list of operations on files is planned, checked for conflicts, checked again
under the path locks, and committed in three phases: all writes, then all
moves, then all deletes.

* What depends on the world outside the files and the ledger is an
  `Environment`: the policy and the cancellation at each check, what the
  operating system refuses, and the modification times.  Each operation on a
  file is one step that succeeds or changes nothing, so a refused step does not
  say that paths may have changed (`IoFault`).
* The hunks of an update and `apply_update_hunks` are parameters, and so is
  SHA-256.
* A planned operation that was not revalidated, or an operation that was not
  committed, stops the process (`panicked`).
-/

namespace MangoStudio.Filesystem

open Protocol (Codes.internal Codes.cancelled Codes.frameTooLarge)

/-! ## Paths -/

/-- An absolute path without links, by its components. -/
structure AbsolutePath where
  components : List String
  deriving DecidableEq

instance : ToString AbsolutePath where
  toString path := String.join (path.components.map fun component => "/" ++ component)

/-- Whether a path is another one or an ancestor of it. -/
def isPrefix (root path : AbsolutePath) : Bool := root.components.isPrefixOf path.components

/-! ## Operations -/

/-- An operation of the request. -/
inductive PatchOperation (η : Type) where
  | add (inputPath : String) (resolvedPath : AbsolutePath) (content : String)
  | delete (inputPath : String) (resolvedPath : AbsolutePath)
  | update (inputPath : String) (resolvedPath : AbsolutePath) (moveTo : Option String)
      (resolvedMoveTo : Option AbsolutePath) (hunks : List η)

inductive PlannedOperation where
  | add (inputPath : String) (resolvedPath : AbsolutePath) (content : String)
  | delete (inputPath : String) (resolvedPath : AbsolutePath) (source : Bytes)
  | update (inputPath : String) (resolvedPath : AbsolutePath) (moveTo : Option String)
      (resolvedMoveTo : Option AbsolutePath) (source : Bytes) (content : String)
      (hasContentChanges : Bool) (lineNumbersValidThroughLine : Nat)

structure ApplyPatchParams (η : Type) where
  chatId : String
  captureSnapshot : Bool
  operations : List (PatchOperation η)

/-- What `apply_update_hunks` prepares. -/
structure AppliedUpdate where
  content : String
  lineNumbersValidThroughLine : Nat

/-- What a read found. -/
structure Observed (μ : Type) where
  bytes : Bytes
  mtimeMs : μ

def describeOperation {η : Type} : PatchOperation η → String
  | .add inputPath _ _ => "Add \"" ++ inputPath ++ "\""
  | .delete inputPath _ => "Delete \"" ++ inputPath ++ "\""
  | .update inputPath _ _ _ _ => "Update \"" ++ inputPath ++ "\""

def describePlanned : PlannedOperation → String
  | .add inputPath _ _ => "Add \"" ++ inputPath ++ "\""
  | .delete inputPath _ _ => "Delete \"" ++ inputPath ++ "\""
  | .update inputPath _ _ _ _ _ _ _ => "Update \"" ++ inputPath ++ "\""

def PlannedOperation.primaryPath : PlannedOperation → AbsolutePath
  | .add _ resolvedPath _ | .delete _ resolvedPath _
  | .update _ resolvedPath _ _ _ _ _ _ => resolvedPath

def operationPaths : PlannedOperation → List AbsolutePath
  | .update _ resolvedPath _ (some destination) _ _ _ _ => [resolvedPath, destination]
  | operation => [operation.primaryPath]

/-! ## The environment -/

inductive Stage where
  | plan
  | revalidate

inductive CommitStep where
  | write
  | move
  | delete

/-- A step that the operating system refuses, with nothing done. -/
structure IoFault where
  error : RemoteError
  clean : error.isSet "pathsMayHaveChanged" = false

/-- What is not in the files and the ledger.  Operations go by their index. -/
structure Environment (μ : Type) where
  /-- `compile_mutation_policy`: cancellation, consent and the path policy. -/
  policy : Stage → Nat → Option RemoteError
  destinationPolicy : Nat → Option RemoteError
  finalPolicy : Option RemoteError
  /-- The path locks, which can be cancelled. -/
  locks : Option RemoteError
  inspect : Stage → Nat → Option RemoteError
  read : Stage → Nat → Option RemoteError
  destination : Stage → Nat → Option RemoteError
  fault : CommitStep → Nat → Option IoFault
  readTime : Stage → Nat → μ
  writeTime : Nat → μ

/-! ## Errors -/

def denied : String := "DENIED"

def toolArgument (message : String) : RemoteError :=
  (RemoteError.mk Codes.internal message none).withDetail "kind" (.str "tool_argument")

def panicked : RemoteError := ⟨Codes.internal, "panicked", none⟩

def snapshotMaxBytes : Nat := 8 * 1024 * 1024

def readMaxBytes : Nat := 10 * 1024 * 1024

def byteViewMaxBytes : Nat := 256 * 1024

def tooLarge (path : AbsolutePath) (observed : String) (maxBytes : Nat) : RemoteError :=
  (pathError ("Cannot read \"" ++ toString path ++ "\": file is too large (" ++ observed ++
    "; limit is " ++ toString maxBytes ++ ").")).withDetail "limitBytes" (.nat maxBytes)

def snapshotLimit (path : AbsolutePath) (size : Nat) : Except RemoteError Unit :=
  if size ≤ snapshotMaxBytes then .ok ()
  else
    .error <| ((RemoteError.mk Codes.internal ("Cannot checkpoint \"" ++ toString path ++
      "\": it is " ++ toString size ++ " bytes, past the " ++ toString snapshotMaxBytes ++
      "-byte snapshot limit.") none).withDetail "kind" (.str "snapshot_too_large")).withDetail
      "resolvedPath" (.str (toString path)) |>.withDetail "sizeBytes" (.nat size)

def looksBinary (bytes : Bytes) : Bool := (bytes.take (8 * 1024)).any fun byte => byte == 0

/-- Says why a file could not have been read, if it could not. -/
def explainUnread (files : Files AbsolutePath) (path : AbsolutePath) (action : String)
    (error : RemoteError) : RemoteError :=
  if (error.details.getD []).any fun member =>
      member.1 == "kind" && match member.2 with
        | .str kind => kind == "file_not_read"
        | _ => false then
    match files path with
    | none => error
    | some bytes =>
      let size := bytes.length
      if size > readMaxBytes then
        pathError ("Cannot " ++ action ++ " \"" ++ toString path ++ "\": it is " ++ toString size ++
          " bytes, past the " ++ toString readMaxBytes ++ "-byte read_file limit, so the read-before-" ++
          action ++ " guard cannot be satisfied for this path.")
      else if !looksBinary bytes then error
      else if size > byteViewMaxBytes then
        pathError ("Cannot " ++ action ++ " \"" ++ toString path ++ "\": it is a binary file of " ++
          toString size ++ " bytes, past the " ++ toString byteViewMaxBytes ++
          "-byte read_file byte-view limit, so the read-before-" ++ action ++
          " guard cannot be satisfied for this path.")
      else
        pathError ("Cannot " ++ action ++ " \"" ++ toString path ++ "\": it is a binary file, so " ++
          "read_file cannot read it as text. Read it with view \"hex\" or \"base64\" first to " ++
          "satisfy the read-before-" ++ action ++ " guard.")
  else error

def assertText (content inputPath : String) : Except RemoteError Unit :=
  if content.toList.contains '\x00' then
    .error (toolArgument ("Refusing to patch \"" ++ inputPath ++
      "\": the result contains a NUL byte and would not be a text file."))
  else .ok ()

/-- One failure keeps its code and its details, and several become one. -/
def operationFailures (failures : List (String × RemoteError)) : RemoteError :=
  match failures with
  | [(description, error)] =>
    { error with
      message := "Patch could not be applied:\n- " ++ description ++ ": " ++ error.message }
  | _ =>
    toolArgument ("Patch could not be applied:\n" ++ String.intercalate "\n" (failures.map
      fun failure => "- " ++ failure.1 ++ ": " ++ failure.2.message))

/-! ## Checks -/

section Checks

variable {μ η : Type}

/-- A request that reads the ledger, and uses its entries. -/
abbrev LedgerM (μ : Type) := Attempt (Ledger AbsolutePath μ) RemoteError

variable (sha256 : Bytes → String) (env : Environment μ) (files : Files AbsolutePath)

def ContentDigest.of (bytes : Bytes) : ContentDigest := ⟨sha256 bytes, bytes.length⟩

/-- `io::read` with a limit. -/
def readFile (stage : Stage) (index : Nat) (path : AbsolutePath) (maxBytes : Nat) :
    Except RemoteError (Observed μ) :=
  match env.read stage index with
  | some error => .error error
  | none =>
    match files path with
    | none => .error (fileNotFound path)
    | some bytes =>
      if bytes.length > maxBytes then
        .error (tooLarge path (toString bytes.length ++ " bytes") maxBytes)
      else .ok ⟨bytes, env.readTime stage index⟩

/-- The content of a file that the chat has read completely. -/
def readFresh (chatId : String) (stage : Stage) (index : Nat) (path : AbsolutePath) :
    LedgerM μ (Observed μ) := do
  let entry ← Attempt.act fun ledger => (ledger, ledger.completeEntry chatId path)
  let observed ← Attempt.ofExcept <|
    match readFile env files stage index path entry.size with
    | .ok observed => .ok observed
    | .error error =>
      if error.code = Codes.cancelled then .error error else .error (staleFileError path)
  Attempt.act fun ledger => ledger.assertDigest chatId path (.of sha256 observed.bytes)
  return observed

def readPatchTarget (chatId : String) (stage : Stage) (index : Nat) (path : AbsolutePath) :
    LedgerM μ (Observed μ) := do
  Attempt.refuse (env.inspect stage index)
  let _ ← Attempt.ofExcept (assertRegular files path)
  match ← Attempt.observe (readFresh sha256 env files chatId stage index path) with
  | .ok observed => return observed
  | .error error => throw (explainUnread files path "patch" error)

def checkDestination (stage : Stage) (index : Nat) (path : AbsolutePath) (inputPath : String) :
    LedgerM μ Unit := do
  Attempt.refuse (env.destination stage index)
  Attempt.ofExcept (assertDestinationAvailable files path inputPath)

/-- Checks every item and collects what failed.  A refusal of the policy and a
cancellation end the loop. -/
def checkAll {ι α : Type} (describe : ι → String) (check : ι → Nat → LedgerM μ α)
    (items : List ι) : LedgerM μ (List α) := do
  let results ← items.zipIdx.mapM fun item => do
    match ← Attempt.observe (check item.1 item.2) with
    | .ok value => return Sum.inl value
    | .error error =>
      if error.code = denied ∨ error.code = Codes.cancelled then throw error
      else return Sum.inr (describe item.1, error)
  let failures := results.filterMap Sum.getRight?
  if failures.isEmpty then return results.filterMap Sum.getLeft?
  else throw (operationFailures failures)

/-! ## Planning -/

/-- A text as a file has it, and the mark that it starts with. -/
def stripByteOrderMark (source : List Char) : String × String :=
  match source with
  | '\uFEFF' :: text => ("\uFEFF", String.ofList text)
  | text => ("", String.ofList text)

def textBytes (content : String) : Bytes := Utf8.encode content.toList

variable (applyUpdateHunks : String → List η → String → Except String AppliedUpdate)

/-- The text that the hunks of an update make of a content. -/
def patchedText (inputPath : String) (hunks : List η) (source : Bytes) :
    Except RemoteError AppliedUpdate :=
  match Utf8.decode? source with
  | none =>
    .error (pathError ("Cannot patch \"" ++ inputPath ++ "\": the file is not valid UTF-8 text."))
  | some text =>
    let (bom, visibleSource) := stripByteOrderMark text
    match applyUpdateHunks visibleSource hunks inputPath with
    | .error message => .error (toolArgument message)
    | .ok applied => .ok { applied with content := bom ++ applied.content }

def checkSnapshotLimit (params : ApplyPatchParams η) (path : AbsolutePath) (size : Nat) :
    Except RemoteError Unit :=
  if params.captureSnapshot then snapshotLimit path size else .ok ()

def checkMoveFields (inputPath : String) (moveTo : Option String)
    (resolvedMoveTo : Option AbsolutePath) : Except RemoteError Unit :=
  if moveTo.isSome ≠ resolvedMoveTo.isSome then
    .error (toolArgument ("Invalid move fields for \"" ++ inputPath ++ "\": received moveTo=" ++
      toString moveTo.isSome ++ " and resolvedMoveTo=" ++ toString resolvedMoveTo.isSome ++
      "; expected both fields or neither."))
  else .ok ()

def checkMoveDestination (index : Nat) (resolvedPath : AbsolutePath) (moveTo : Option String) :
    Option AbsolutePath → LedgerM μ Unit
  | none => return ()
  | some destination =>
    if destination = resolvedPath then
      throw (pathError "Source and move destination must be different paths.")
    else checkDestination env files .plan index destination (moveTo.getD "")

def planOperation (params : ApplyPatchParams η) (operation : PatchOperation η) (index : Nat) :
    LedgerM μ PlannedOperation := do
  Attempt.refuse (env.policy .plan index)
  match operation with
  | .add inputPath resolvedPath content =>
    Attempt.ofExcept (assertText content inputPath)
    checkDestination env files .plan index resolvedPath inputPath
    return .add inputPath resolvedPath content
  | .delete inputPath resolvedPath =>
    let observed ← readPatchTarget sha256 env files params.chatId .plan index resolvedPath
    Attempt.ofExcept (checkSnapshotLimit params resolvedPath observed.bytes.length)
    return .delete inputPath resolvedPath observed.bytes
  | .update inputPath resolvedPath moveTo resolvedMoveTo hunks =>
    Attempt.ofExcept (checkMoveFields inputPath moveTo resolvedMoveTo)
    let observed ← readPatchTarget sha256 env files params.chatId .plan index resolvedPath
    Attempt.ofExcept (checkSnapshotLimit params resolvedPath observed.bytes.length)
    let applied ← Attempt.ofExcept (patchedText applyUpdateHunks inputPath hunks observed.bytes)
    Attempt.ofExcept (assertText applied.content inputPath)
    checkMoveDestination env files index resolvedPath moveTo resolvedMoveTo
    return .update inputPath resolvedPath moveTo resolvedMoveTo observed.bytes applied.content
      (!hunks.isEmpty) applied.lineNumbersValidThroughLine

def planOperations (params : ApplyPatchParams η) : LedgerM μ (List PlannedOperation) :=
  checkAll describeOperation (planOperation sha256 env files applyUpdateHunks params)
    params.operations

/-- The paths that operations own so far, and the conflicts. -/
def claimPath (state : List (AbsolutePath × String) × List String)
    (claim : AbsolutePath × String) : List (AbsolutePath × String) × List String :=
  match state.1.find? fun owner => isPrefix owner.1 claim.1 || isPrefix claim.1 owner.1 with
  | some owner => (state.1, state.2 ++ [claim.2 ++ ": path conflicts with " ++ owner.2 ++ "."])
  | none => (state.1 ++ [claim], state.2)

def assertNoPathConflicts (planned : List PlannedOperation) : Except RemoteError Unit :=
  let claims := planned.flatMap fun operation =>
    (operationPaths operation).map fun path => (path, describePlanned operation)
  let failures := (claims.foldl claimPath ([], [])).2
  if failures.isEmpty then .ok ()
  else
    .error (toolArgument ("Patch could not be applied:\n" ++
      String.intercalate "\n" (failures.map fun failure => "- " ++ failure)))

/-! ## Revalidation -/

def assertUnchanged (path : AbsolutePath) (observed : Observed μ) (source : Bytes) :
    Except RemoteError Unit :=
  if observed.bytes ≠ source then .error (staleFileError path) else .ok ()

def recheckMoveDestination (index : Nat) (moveTo : Option String) :
    Option AbsolutePath → LedgerM μ Unit
  | none => return ()
  | some destination => do
    Attempt.refuse (env.destinationPolicy index)
    checkDestination env files .revalidate index destination (moveTo.getD "")

def revalidateOperation (chatId : String) (operation : PlannedOperation) (index : Nat) :
    LedgerM μ (Option (Observed μ)) := do
  Attempt.refuse (env.policy .revalidate index)
  match operation with
  | .add inputPath resolvedPath _ =>
    checkDestination env files .revalidate index resolvedPath inputPath
    return none
  | .delete _ resolvedPath source =>
    let observed ← readPatchTarget sha256 env files chatId .revalidate index resolvedPath
    Attempt.ofExcept (assertUnchanged resolvedPath observed source)
    return some observed
  | .update _ resolvedPath moveTo resolvedMoveTo source _ _ _ =>
    let observed ← readPatchTarget sha256 env files chatId .revalidate index resolvedPath
    Attempt.ofExcept (assertUnchanged resolvedPath observed source)
    recheckMoveDestination env files index moveTo resolvedMoveTo
    return some observed

def revalidateOperations (chatId : String) (planned : List PlannedOperation) :
    LedgerM μ (List (Option (Observed μ))) :=
  checkAll describePlanned (revalidateOperation sha256 env files chatId) planned

end Checks

/-! ## The response -/

inductive SnapshotOp where
  | create
  | edit
  | delete
  | move
  deriving DecidableEq

def SnapshotOp.name : SnapshotOp → String
  | .create => "create"
  | .edit => "edit"
  | .delete => "delete"
  | .move => "move"

/-- A mutation with the content before it. -/
structure SnapshotRecord where
  path : AbsolutePath
  op : SnapshotOp
  before : Option Bytes
  afterHash : String
  movedTo : Option AbsolutePath := none
  deriving DecidableEq

inductive PatchedOp where
  | add
  | delete
  | move (movedTo : String)
  | update

def PatchedOp.name : PatchedOp → String
  | .add => "add"
  | .delete => "delete"
  | .move _ => "move"
  | .update => "update"

structure PatchedFile where
  path : String
  op : PatchedOp
  sha256 : Option String := none

structure PatchResponse where
  files : List PatchedFile
  mutations : List SnapshotRecord

section Response

variable (sha256 : Bytes → String)

def SnapshotRecord.toJson (snapshot : SnapshotRecord) : Json :=
  let before : Json :=
    match snapshot.before with
    | none => .obj [("exists", .bool false)]
    | some bytes =>
      .obj [("exists", .bool true), ("contentBase64", .str (Base64.encode bytes)),
        ("hash", .str (sha256 bytes))]
  .obj <| [("path", .str (toString snapshot.path)), ("op", .str snapshot.op.name),
    ("before", before), ("afterHash", .str snapshot.afterHash)] ++
    match snapshot.movedTo with
    | none => []
    | some movedTo => [("movedTo", .str (toString movedTo))]

def PatchedFile.toJson (file : PatchedFile) : Json :=
  .obj <| [("path", .str file.path), ("op", .str file.op.name)] ++
    (match file.op with
    | .move movedTo => [("movedTo", .str movedTo)]
    | _ => []) ++
    match file.sha256 with
    | none => []
    | some sha256 => [("sha256", .str sha256)]

def PatchResponse.toJson (response : PatchResponse) : Json :=
  let count := response.files.length
  .obj [("result", .obj [("files", .arr (response.files.map PatchedFile.toJson)),
      ("summary", .str (toString count ++ (if count = 1 then " file" else " files") ++
        " changed"))]),
    ("mutations", .arr (response.mutations.map (SnapshotRecord.toJson sha256)))]

/-- What an operation adds to the response, for the hashes of what it leaves. -/
def responseEntry (operation : PlannedOperation) (before : Bytes) (hash : String)
    (moveHash : String) : PatchedFile × SnapshotRecord :=
  match operation with
  | .add inputPath resolvedPath _ =>
    (⟨inputPath, .add, some hash⟩, ⟨resolvedPath, .create, none, hash, none⟩)
  | .delete inputPath resolvedPath _ =>
    (⟨inputPath, .delete, none⟩, ⟨resolvedPath, .delete, some before, absentHash, none⟩)
  | .update inputPath resolvedPath (some movedTo) resolvedMoveTo _ _ _ _ =>
    (⟨inputPath, .move movedTo, some hash⟩,
      ⟨resolvedPath, .move, some before, moveHash, resolvedMoveTo⟩)
  | .update inputPath resolvedPath none _ _ _ _ _ =>
    (⟨inputPath, .update, some hash⟩, ⟨resolvedPath, .edit, some before, hash, none⟩)

def response (captureSnapshot : Bool) (entries : List (PatchedFile × SnapshotRecord)) :
    PatchResponse :=
  ⟨entries.map Prod.fst, if captureSnapshot then entries.map Prod.snd else []⟩

/-- The response with a hash of zeros has the size of the one to come. -/
def preflightMutationResponse (captureSnapshot : Bool) (planned : List PlannedOperation)
    (responseId : String) (responseLimitBytes : Nat) : Except RemoteError Unit :=
  let zeros := String.ofList (List.replicate 64 '0')
  let entries := planned.map fun operation =>
    match operation with
    | .add _ _ _ => responseEntry operation [] zeros zeros
    | .delete _ _ source | .update _ _ _ _ source _ _ _ =>
      responseEntry operation source zeros zeros
  let size := Protocol.measureFrameBytes
    (.res ⟨responseId, (response captureSnapshot entries).toJson sha256⟩)
  if size ≤ responseLimitBytes then .ok ()
  else
    .error <| ((RemoteError.mk Codes.frameTooLarge ("Cannot return patch response: it is " ++
      toString size ++ " bytes, but the negotiated frame limit is " ++
      toString responseLimitBytes ++ " bytes. Split the operation into smaller calls or " ++
      "disable snapshot capture.") none).withDetail "kind" (.str "snapshot_too_large")).withDetail
      "sizeBytes" (.nat size) |>.withDetail "limitBytes" (.nat responseLimitBytes)

end Response

/-! ## The commit -/

section Commit

variable {μ : Type}

/-- An operation on files, the paths that it changes, and what its failure
means for the report. -/
structure Action (α : Type) where
  run : Files AbsolutePath → Except RemoteError (Files AbsolutePath × α)
  touched : List AbsolutePath
  uncertain : RemoteError → List AbsolutePath := fun _ => []
  report : RemoteError → RemoteError := id

/-- The files, and the paths that were changed so far. -/
structure Progress where
  files : Files AbsolutePath
  changedPaths : List AbsolutePath := []

abbrev CommitM := Attempt Progress RemoteError

def commitStep {α : Type} : Option (Action α) → CommitM (Option α)
  | none => return none
  | some action =>
    Attempt.act fun progress =>
      match action.run progress.files with
      | .error error =>
        ({ progress with changedPaths := progress.changedPaths ++ action.uncertain error },
          .error (action.report error))
      | .ok (files, value) =>
        (⟨files, progress.changedPaths ++ action.touched⟩, .ok (some value))

/-- A planned operation, what revalidation found, and its index. -/
structure CommitItem (μ : Type) where
  operation : PlannedOperation
  observed : Option (Observed μ)
  index : Nat

variable (sha256 : Bytes → String) (env : Environment μ)

/-- Refuses a step, or takes it. -/
def guardIo {α : Type} (fault : Option IoFault) (result : Except RemoteError α) :
    Except RemoteError α :=
  match fault with
  | some fault => .error fault.error
  | none => result

def writeAction (item : CommitItem μ) : Option (Action μ) :=
  match item.operation with
  | .add _ resolvedPath content =>
    some
      { run := fun files => (guardIo (env.fault .write item.index)
          (writeAtomic files resolvedPath (textBytes content) true)).map (·, env.writeTime item.index)
        touched := [resolvedPath] }
  | .update _ resolvedPath _ _ _ content true _ =>
    some
      { run := fun files =>
          match item.observed with
          | none => .error panicked
          | some observed => (guardIo (env.fault .write item.index)
              (writeAtomicIfUnchanged files resolvedPath observed.bytes
                (textBytes content))).map (·, env.writeTime item.index)
        touched := [resolvedPath] }
  | _ => none

/-- A move returns the hash of what it moved. -/
def moveAction (item : CommitItem μ) : Option (Action String) :=
  match item.operation with
  | .update _ resolvedPath _ (some destination) _ _ _ _ =>
    some
      { run := fun files => (guardIo (env.fault .move item.index)
          (moveNoOverwrite files resolvedPath destination)).map
            fun moved => (moved.1, sha256 moved.2)
        touched := [resolvedPath, destination]
        uncertain := fun error =>
          if error.isSet "pathsMayHaveChanged" then [resolvedPath, destination] else [] }
  | _ => none

def deleteAction (item : CommitItem μ) : Option (Action Unit) :=
  match item.operation with
  | .delete _ resolvedPath _ =>
    some
      { run := fun files => (guardIo (env.fault .delete item.index)
          (deleteFile files resolvedPath)).map (·, ())
        touched := [resolvedPath]
        report := fun error => if error.isSet "notFound" then staleFileError resolvedPath else error }
  | _ => none

/-- All writes, then all moves, then all deletes. -/
def commitOperations (items : List (CommitItem μ)) :
    CommitM (List (Option μ) × List (Option String)) := do
  let writes ← items.mapM fun item => commitStep (writeAction env item)
  let moveHashes ← items.mapM fun item => commitStep (moveAction sha256 env item)
  let _ ← items.mapM fun item => commitStep (deleteAction env item)
  return (writes, moveHashes)

def commitError (changedPaths : List AbsolutePath) (cause : RemoteError) : RemoteError :=
  let unique := changedPaths.eraseDups
  let changed :=
    if unique.isEmpty then ""
    else " Paths already modified: " ++ String.intercalate ", "
      (unique.map fun path => "\"" ++ toString path ++ "\"") ++ "."
  let error := pathError ("Patch commit failed." ++ changed ++
    " Inspect any listed paths before retrying. Cause: " ++ cause.message)
  if unique.isEmpty then error
  else error.withDetail "changedPaths" (.arr (unique.map fun path => .str (toString path)))

/-- The ledger after one committed operation, and its entry of the response. -/
def outcome (chatId : String) (item : CommitItem μ) (write : Option μ) (moveHash : Option String) :
    LedgerM μ (PatchedFile × SnapshotRecord) :=
  Attempt.act fun ledger =>
    match item.operation, item.observed, write, moveHash with
    | .add _ resolvedPath content, _, some mtime, _ =>
      let digest := ContentDigest.of sha256 (textBytes content)
      (ledger.recordReadDigest chatId resolvedPath digest mtime .wholeFile,
        .ok (responseEntry item.operation [] digest.sha256 ""))
    | .delete _ resolvedPath _, some current, _, _ =>
      (ledger.forget chatId resolvedPath, .ok (responseEntry item.operation current.bytes "" ""))
    | .update _ resolvedPath moveTo resolvedMoveTo _ content hasContentChanges validThrough,
        some current, write, moveHash =>
      let target := resolvedMoveTo.getD resolvedPath
      let rekeyed := if resolvedMoveTo.isSome then ledger.rekey chatId resolvedPath target else ledger
      let mtime := write.getD current.mtimeMs
      let digest := ContentDigest.of sha256
        (if hasContentChanges then textBytes content else current.bytes)
      let recorded :=
        if hasContentChanges then rekeyed.recordEditDigest chatId target digest mtime validThrough
        else rekeyed.recordReadDigest chatId target digest mtime .wholeFile
      match moveTo, moveHash with
      | some _, none => (recorded, .error panicked)
      | _, hash => (recorded,
          .ok (responseEntry item.operation current.bytes digest.sha256 (hash.getD "")))
    | _, _, _, _ => (ledger, .error panicked)

def outcomes (chatId : String) (items : List (CommitItem μ)) (writes : List (Option μ))
    (moveHashes : List (Option String)) : LedgerM μ (List (PatchedFile × SnapshotRecord)) :=
  (items.zip (writes.zip moveHashes)).mapM fun committed =>
    outcome sha256 chatId committed.1 committed.2.1 committed.2.2

/-! ## The request -/

variable {η : Type}
  (applyUpdateHunks : String → List η → String → Except String AppliedUpdate)
  (responseId : String) (responseLimitBytes : Nat)

/-- Everything before the first step of the commit. -/
def prepare (params : ApplyPatchParams η) (files : Files AbsolutePath) :
    LedgerM μ (List (CommitItem μ)) := do
  let planned ← planOperations sha256 env files applyUpdateHunks params
  Attempt.ofExcept (assertNoPathConflicts planned)
  Attempt.ofExcept (preflightMutationResponse sha256 params.captureSnapshot planned responseId
    responseLimitBytes)
  Attempt.refuse env.locks
  let revalidated ← revalidateOperations sha256 env files params.chatId planned
  Attempt.refuse env.finalPolicy
  return (planned.zip revalidated).zipIdx.map fun entry => ⟨entry.1.1, entry.1.2, entry.2⟩

def applyPatch (params : ApplyPatchParams η) (workspace : Workspace AbsolutePath μ) :
    Workspace AbsolutePath μ × Except RemoteError PatchResponse :=
  match (prepare sha256 env applyUpdateHunks responseId responseLimitBytes params
      workspace.files).finish workspace.ledger with
  | (.error error, ledger) => ({ workspace with ledger }, .error error)
  | (.ok items, ledger) =>
    match (commitOperations sha256 env items).finish ⟨workspace.files, []⟩ with
    | (.error cause, progress) =>
      ({ workspace with files := progress.files, ledger },
        .error (commitError progress.changedPaths cause))
    | (.ok (writes, moveHashes), progress) =>
      match (outcomes sha256 params.chatId items writes moveHashes).finish ledger with
      | (.error error, ledger) =>
        ({ workspace with files := progress.files, ledger }, .error error)
      | (.ok entries, ledger) =>
        ({ workspace with files := progress.files, ledger },
          .ok (response params.captureSnapshot entries))

end Commit

end MangoStudio.Filesystem
