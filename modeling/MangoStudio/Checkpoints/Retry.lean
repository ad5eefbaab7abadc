import Mathlib
import MangoStudio.Checkpoints.PathLog

/-!
# Retrying a revert

A revert whose bookkeeping write failed is asked for again, with the same
request on files that it has already reverted.  The runtime has only the hashes
to tell that apart from an outside edit.

* The replay ends, on every path of the request, at the origin of the path's
  log, which is the reverted state that the request names.  So the second call
  finds every path reverted.
* If no path can tell the two states apart, the second call replays, but then
  the first one started from the same files.
-/

namespace MangoStudio.Checkpoints

open Filesystem

variable {π μ : Type} [DecidableEq π] [ToString π]

section

variable {sha256 : Bytes → String} {stamp : Nat → μ} {chatId : String}
  {blobs : Table String Bytes} {rows : List (FileCheckpoint π)}
  {operations : List (SnapshotRevertOperation π)} {workspace after : Workspace π μ} {n : Nat}
  {expected : List (SnapshotExpectedPath π)}

theorem revertSnapshots_ok
    (h : revertSnapshots sha256 stamp chatId expected operations workspace = (after, .ok n)) :
    n = (operations.map SnapshotRevertOperation.path).dedup.length ∧
      (alreadyReverted sha256 workspace.files expected = .ok true ∧ after = workspace ∨
        alreadyReverted sha256 workspace.files expected = .ok false ∧
          replay sha256 stamp chatId workspace operations = (after, .ok ())) := by
  grind [revertSnapshots, revertBy]

theorem revertSnapshots_of_reverted (h : alreadyReverted sha256 workspace.files expected = .ok true)
    :
    revertSnapshots sha256 stamp chatId expected operations workspace =
      (workspace, .ok (operations.map SnapshotRevertOperation.path).dedup.length) := by
  simp [revertSnapshots, revertBy, h]

theorem revertSnapshots_of_pending (h : alreadyReverted sha256 workspace.files expected = .ok false)
    (hreplay : replay sha256 stamp chatId workspace operations = (after, .ok ())) :
    revertSnapshots sha256 stamp chatId expected operations workspace =
      (after, .ok (operations.map SnapshotRevertOperation.path).dedup.length) := by
  simp [revertSnapshots, revertBy, h, hreplay]

theorem undo_of_replay
    (h : replay sha256 stamp chatId workspace (rows.reverse.map (FileCheckpoint.operation blobs)) =
      (after, .ok ())) :
    revertRows blobs rows.reverse workspace.files = some after.files := by
  have hspec := replay_spec sha256 stamp chatId blobs rows.reverse workspace
  grind

end

end MangoStudio.Checkpoints
