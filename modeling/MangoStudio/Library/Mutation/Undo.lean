import MangoStudio.Library.Mutation.Removal

/-!
# The engine of `library.undo`

Restore is undo: every entry that carries a backup is restored, and every entry
that does not is removed, newest first.  An entry outside the location that it
names refuses the whole undo at that point.

A copy lies in the backup root when it is a place of a backup set.
-/

namespace MangoStudio.Library.Mutation

structure UndoEntry where
  locationId : String
  destinationPath : String
  deriving DecidableEq, Repr

inductive SkipReason where
  | changedSinceApply
  | backupMissing
  deriving DecidableEq, Repr

structure UndoSkipped where
  locationId : String
  destinationPath : String
  reason : SkipReason
  deriving DecidableEq, Repr

structure UndoResult where
  backupId : String
  restored : List UndoEntry := []
  removed : List UndoEntry := []
  skipped : List UndoSkipped := []
  deriving DecidableEq, Repr

inductive UndoError where
  | missing (message : String)
  | refused (error : WriteError)
  | interrupted (message : String) (report : UndoResult)
  | failed (message : String)

namespace UndoResult

def skip (report : UndoResult) (entry : BackupEntry) (reason : SkipReason) : UndoResult :=
  { report with
    skipped := report.skipped ++ [⟨entry.locationId, entry.destinationPath, reason⟩] }

def remove (report : UndoResult) (entry : BackupEntry) : UndoResult :=
  { report with removed := report.removed ++ [⟨entry.locationId, entry.destinationPath⟩] }

def restore (report : UndoResult) (entry : BackupEntry) : UndoResult :=
  { report with restored := report.restored ++ [⟨entry.locationId, entry.destinationPath⟩] }

end UndoResult

/-- A place under the backup root. -/
def Place.inBackupRoot : Place → Bool
  | .copy _ _ _ => true
  | _ => false

namespace World

variable (world : World)

/-- An entry whose destination passed the check: restored, removed or skipped. -/
def undoContained (report : UndoResult) (entry : BackupEntry) :
    Attempt Machine UndoError UndoResult := do
  let current ← Attempt.settle (world.hashAt .undoHash entry.resolvedPath entry.kind)
  -- A destination that has no hash is taken for an unchanged one.
  if current.toOption.any fun hash => hash ≠ entry.writtenContentHash then
    return report.skip entry .changedSinceApply
  else
    match entry.backupPath with
    | none =>
      Attempt.mapError .failed (world.removeAll .undoRemove (.resource entry.resolvedPath))
      return report.remove entry
    | some backupPath =>
      if backupPath.inBackupRoot then
        if ← Attempt.mapError .failed (world.exists_ .undoPresent backupPath) then
          Attempt.mapError .failed (world.restoreEntry entry)
          return report.restore entry
        else return report.skip entry .backupMissing
      else return report.skip entry .backupMissing

def undoEntry (registry : Registry) (report : UndoResult) (entry : BackupEntry) :
    Attempt Machine UndoError UndoResult := do
  Attempt.mapError .refused
    (Attempt.ofExcept (registry.contained entry.locationId entry.resolvedPath))
  world.undoContained report entry

/-- The loop over the entries, newest first. -/
def undoLoop (registry : Registry) :
    Nat → UndoResult → List BackupEntry → Attempt Machine UndoError UndoResult
  | _, report, [] => return report
  | done, report, entry :: rest => do
    match world.interrupted done with
    | some message => throw (.interrupted message report)
    | none =>
      let report ← world.undoEntry registry report entry
      undoLoop registry (done + 1) report rest

def executeUndo (registry : Registry) (backupId : String) :
    Attempt Machine UndoError UndoResult := do
  match ← Attempt.mapError .failed (world.readManifest backupId) with
  | none => throw (.missing ("No library backup \"" ++ backupId ++
      "\" is retained. Backups are bounded by count and size."))
  | some manifest =>
    world.undoLoop registry 0 { backupId } manifest.entries.reverse

end World

end MangoStudio.Library.Mutation
