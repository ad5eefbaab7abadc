import MangoStudio.Library.Mutation.Store

/-!
# Writing one resource

One write into a registry location, with the backup that precedes it.  A
directory is staged in full beside the destination and swapped in by rename; a
file is replaced in one step.

Which locations there are and where they lie on this host is the `Registry`.
Its laws are what the resolution of paths guarantees: a destination lies in the
location that it was resolved for, and where it lies follows from the path that
a user would name.
-/

namespace MangoStudio.Library.Mutation

/-! ## Locations -/

inductive WriteFailure where
  | invalidSlug
  | pathEscape
  | unexpectedEntryType
  | readOnlyLocation
  | unsupportedLocation
  | wrongLayout
  | invalidSource
  deriving DecidableEq, Repr

/-- A refusal of the write policy. -/
structure WriteError where
  reason : WriteFailure
  message : String
  deriving DecidableEq, Repr

structure ResolvedDestination where
  logicalPath : String
  resolvedPath : String
  deriving DecidableEq, Repr

/-- The registry of locations, as this host resolves it. -/
structure Registry where
  /-- The checks of `require_writable_location`. -/
  writable : String → ResourceKind → Except WriteError Unit
  /-- Where a slug lives in a location. -/
  destination : String → String → Except WriteError ResolvedDestination
  /-- Where a location lies on this host, spelled out. -/
  root : String → Option String
  /-- The spelling of a path that roots and previewed paths are compared by. -/
  nodeResolve : String → String
  /-- The check of `assert_contained_in_location`. -/
  contained : String → String → Except WriteError Unit
  destination_contained : ∀ {locationId slug : String} {found : ResolvedDestination},
    destination locationId slug = .ok found → contained locationId found.resolvedPath = .ok ()
  destination_resolved : ∀ {locationId slug locationId' slug' logicalPath path path' : String},
    destination locationId slug = .ok ⟨logicalPath, path⟩ →
    destination locationId' slug' = .ok ⟨logicalPath, path'⟩ → path = path'

/-! ## What is written -/

/-- One file of a transferred directory. -/
structure TransferredFile where
  relativePath : String
  contents : List UInt8
  deriving DecidableEq, Repr

/-- Where the bytes of a directory come from: this host, or the request. -/
inductive DirectorySource where
  | path (sourceDir : String)
  | files (files : List TransferredFile)

structure WriteResult where
  destinationPath : String
  resolvedDestinationPath : String
  backupPath : Option Place

inductive WriterError where
  | policy (error : WriteError)
  | failed (message : String)

structure WriteTarget where
  locationId : String
  slug : String
  backupId : String

/-- The tree with a file at a relative path, where no file is in the way. -/
def Tree.insert : Tree → List String → List UInt8 → Option Tree
  | .file _, _, _ => none
  | .directory _, [], _ => none
  | .directory children, [name], bytes =>
    match children.lookup name with
    | some (.directory _) => none
    | _ => some (.directory ((name, .file bytes) :: children.filter fun child => child.1 ≠ name))
  | .directory children, name :: next :: rest, bytes =>
    ((children.lookup name).getD (.directory []) |>.insert (next :: rest) bytes).map fun child =>
      .directory ((name, child) :: children.filter fun other => other.1 ≠ name)
  termination_by _ segments => segments.length

/-- A segment that is one plain path component, where `/` alone separates. -/
def isSingleNormalSegment (segment : String) : Bool :=
  segment ≠ "" && segment ≠ "." && segment ≠ ".."

/-- A relative path that would leave the stage. -/
def escapesStage (relative : String) : Bool :=
  relative = "" || relative.contains '\\' ||
    (relative.splitOn "/").any fun segment => !isSingleNormalSegment segment

namespace World

variable (world : World)

/-- An absent path passes, and so does an entry of the expected kind. -/
def assertExpectedResourceEntry (path : String) (expected : ResourceKind) :
    Attempt Machine WriteError Unit :=
  world.read .inspect
    (fun message => ⟨.unexpectedEntryType,
      "Cannot inspect library destination \"" ++ path ++ "\": " ++ message⟩)
    fun disk => match disk.tree (.resource path) with
      | none => .ok ()
      | some tree =>
        if tree.kind = expected then .ok ()
        else .error ⟨.unexpectedEntryType, "Cannot write \"" ++ path ++
          "\": the path exists and is not a regular " ++
          (match expected with | .file => "file" | .directory => "directory") ++ "."⟩

def assertSourceDirectory (sourceDir : String) : Attempt Machine WriterError Unit :=
  let unreadable (message : String) : WriterError := .policy ⟨.invalidSource,
    "Cannot read library resource source \"" ++ sourceDir ++ "\": " ++ message⟩
  world.read .sourceCheck unreadable
    fun disk => match disk.tree (.resource sourceDir) with
      | some (.directory _) => .ok ()
      | some (.file _) => .error (.policy ⟨.invalidSource,
          "Library resource source \"" ++ sourceDir ++ "\" is not a directory."⟩)
      | none => .error (unreadable noSuchFile)

/-- Copies aside, then trims the store, keeping this set. -/
def backupResource (resolved : String) (target : WriteTarget) :
    Attempt Machine WriterError Place :=
  Attempt.mapError .failed do
    let backupPath ← world.backupExisting resolved target.locationId target.slug target.backupId
    world.prune target.backupId
    return backupPath

/-- One transferred file, placed in the stage. The directories on its way appear with it. -/
def stageFile (stage : Place) (file : TransferredFile) : Attempt Machine WriterError Unit :=
  if escapesStage file.relativePath then
    throw (.policy ⟨.pathEscape, "Transferred library file \"" ++ file.relativePath ++
      "\" is not a contained relative path."⟩)
  else Attempt.mapError .failed do
    world.createDirAll .stageDir
    world.call .stageWrite id
      (fun disk => match (disk.tree stage).bind fun tree =>
          tree.insert (file.relativePath.splitOn "/") file.contents with
        | some tree => .ok ((), disk.put stage (some tree))
        | none => .error "Not a directory (os error 20)")
      fun _ disk => disk

def stageFiles (stage : Place) (files : List TransferredFile) :
    Attempt Machine WriterError Unit := do
  world.call .stageDir WriterError.failed
    (fun disk => match disk.tree stage with
      | none => .ok ((), disk.put stage (some (.directory [])))
      | some (.directory _) => .ok ((), disk)
      | some (.file _) => .error (.failed "File exists (os error 17)"))
    fun _ disk => disk
  let _ ← files.mapM (world.stageFile stage)

def stageSource (source : DirectorySource) (stage : Place) : Attempt Machine WriterError Unit :=
  match source with
  | .path sourceDir =>
    Attempt.mapError .failed (world.copyTree .stageCopy (.resource sourceDir) stage)
  | .files files => world.stageFiles stage files

/-- A failed swap renames the original back; a failed cleanup of the previous tree leaves a
stale sibling. -/
def swapStagedDirectory (stage destination previous : Place) (existing : Bool) :
    Attempt Machine WriterError Unit :=
  Attempt.mapError .failed do
    if existing then
      world.rename .swapAside destination previous
      match ← Attempt.observe (world.rename .swapIn stage destination) with
      | .error writeError =>
        match ← Attempt.observe (world.rename .swapBack previous destination) with
        | .error rollbackError =>
          throw ("Library write failed and \"" ++ world.display destination ++
            "\" could not be restored: " ++ writeError ++ "; " ++ rollbackError)
        | .ok () => throw writeError
      | .ok () =>
        let _ ← Attempt.observe (world.removeAll .removePrevious previous)
    else world.rename .swapIn stage destination

/-- The checks both kinds of write begin with. -/
def resolveTarget (registry : Registry) (target : WriteTarget) (kind : ResourceKind) :
    Attempt Machine WriterError ResolvedDestination :=
  Attempt.mapError .policy do
    Attempt.ofExcept (registry.writable target.locationId kind)
    let destination ← Attempt.ofExcept (registry.destination target.locationId target.slug)
    world.assertExpectedResourceEntry destination.resolvedPath kind
    return destination

/-- The copy of what is at the destination, where something is. -/
def backupIfExisting (resolved : String) (target : WriteTarget) :
    Attempt Machine WriterError (Option Place) := do
  Attempt.mapError .failed (world.createDirAll .parentDir)
  let existing ← Attempt.mapError .failed (world.exists_ .existing (.resource resolved))
  if existing then
    let backupPath ← world.backupResource resolved target
    return some backupPath
  else return none

/-- Backs up what is there, stages the directory and swaps it in. -/
def installDirectory (destination : ResolvedDestination) (target : WriteTarget)
    (source : DirectorySource) : Attempt Machine WriterError WriteResult := do
  let resolved := destination.resolvedPath
  let backupPath ← world.backupIfExisting resolved target
  let suffix ← world.randomSuffix
  let stage := Place.sibling resolved suffix .staging
  let previous := Place.sibling resolved suffix .previous
  let staged ← Attempt.observe do
    world.stageSource source stage
    Attempt.mapError .policy (world.assertExpectedResourceEntry resolved .directory)
    world.swapStagedDirectory stage (.resource resolved) previous backupPath.isSome
  match staged with
  | .error error =>
    let _ ← Attempt.settle (world.removeAll .removeStage stage)
    throw error
  | .ok () => return ⟨destination.logicalPath, resolved, backupPath⟩

def writeDirectory (registry : Registry) (target : WriteTarget) (source : DirectorySource) :
    Attempt Machine WriterError WriteResult := do
  let destination ← world.resolveTarget registry target .directory
  match source with
  | .path sourceDir => world.assertSourceDirectory sourceDir
  | .files _ => pure ()
  world.installDirectory destination target source

def writeFile (registry : Registry) (target : WriteTarget) (contents : List UInt8) :
    Attempt Machine WriterError WriteResult := do
  let destination ← world.resolveTarget registry target .file
  let backupPath ← world.backupIfExisting destination.resolvedPath target
  Attempt.mapError .failed
    (world.writeFileAtomic .writeFile destination.logicalPath destination.resolvedPath contents)
  return ⟨destination.logicalPath, destination.resolvedPath, backupPath⟩

end World

end MangoStudio.Library.Mutation
