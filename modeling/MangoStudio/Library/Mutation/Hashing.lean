import MangoStudio.Library.ContentHash
import MangoStudio.Library.Mutation.Disk

/-!
# The digest of a resource on disk

`hash_resource_at` of `library/mutation/hashing.rs` and the leaf walk of
`library/reader.rs`, with POSIX paths.  A file has a digest whatever its size.  A
directory has one if the walk of its tree stays within the limits and meets no name
that a manifest refuses.

A tree has no links, so that a walk does not leave it; a link that does is a call
that fails, like a leaf that cannot be read.  The order in which leaves are listed
is left out: the manifest sorts its lines.
-/

namespace MangoStudio.Library.Mutation

def maxLibraryInstanceBytes : Nat := 16 * 1024 * 1024
def maxLibraryInstanceEntries : Nat := 10000
def maxLibraryInstanceDepth : Nat := 32

/-- Why a manifest refuses a path. -/
def relativePathViolation (path : Text) : Option String :=
  if path.isEmpty || path.head? == some '/' then some "path-escape"
  else if path.contains '\n' || path.contains (Char.ofNat 0) then some "unsafe-name"
  else if (path.splitOn '/').any fun segment => segment ∈ [[], ['.'], ['.', '.']] then
    some "path-escape"
  else none

structure Walk where
  leaves : List Leaf := []
  totalBytes : Nat := 0

mutual

/-- The entries of the directory with the path and the depth. -/
def Walk.visit (walk : Walk) (path : Text) (depth : Nat) :
    List (String × Tree) → Except HashError Walk
  | [] => .ok walk
  | (name, child) :: rest =>
    match walk.enter (path ++ name.toList) depth child with
    | .error error => .error error
    | .ok walk => walk.visit path depth rest

/-- One entry of it. -/
def Walk.enter (walk : Walk) (relative : Text) (depth : Nat) : Tree → Except HashError Walk
  | .directory children =>
    if maxLibraryInstanceDepth < depth + 1 then .error .tooLarge
    else walk.visit (relative ++ ['/']) (depth + 1) children
  | .file bytes =>
    let totalBytes := walk.totalBytes + bytes.length
    if maxLibraryInstanceBytes < totalBytes ∨ maxLibraryInstanceEntries ≤ walk.leaves.length then
      .error .tooLarge
    else .ok ⟨walk.leaves ++ [⟨relative, bytes⟩], totalBytes⟩

end

variable (sha256 : Sha256)

end MangoStudio.Library.Mutation
