import MangoStudio.Library.Mutation.RemovalRun
import Mathlib.Data.List.Nodup

/-!
# How a removal ends

The results are renamed home, newest first, or their manifest is on disk and the
staged trees are deleted.  `unstageAll` answers the stages that could not be
renamed; they are exactly the results that are still away.

`RemovalEnd` lists how a run can end, with what its result says.
-/

namespace MangoStudio.Library.Mutation

open Staged List

open Attempt

theorem Machine.Always.next {safe : Disk → Prop} {machine : Machine} {step : Step}
    {succeeded : Bool} {disk : Disk} (h : machine.Always safe) (hdisk : safe disk) :
    (machine.next step succeeded disk).Always safe := by
  refine ⟨hdisk, fun other hother => ?_⟩
  rcases mem_cons.1 hother with rfl | hother
  · exact h.1
  · exact h.2 other hother

/-! ## Renaming home -/

section Home

variable (world : World) {backupId : String} {base : Disk} {adrift : Option String}
variable {results : List Staged} {away : Staged → Prop} {disk : Disk} {item : Staged}
variable {ε : Type} {never : ε → Machine → Prop}

section

variable (h : Away backupId base adrift results away disk) {first second : Staged}
  (hfirst : first ∈ results) (hsecond : second ∈ results)

include h hfirst hsecond

theorem eq_of_resolvedPath (hpath : first.resolvedPath = second.resolvedPath) : first = second :=
  inj_on_of_nodup_map h.nodup hfirst hsecond hpath

theorem resolvedPath_of_stagePath (hstage : first.stagePath = second.stagePath) :
    first.resolvedPath = second.resolvedPath := by
  obtain ⟨suffix, hshape⟩ := (h.shaped first hfirst).stagePath
  obtain ⟨suffix', hshape'⟩ := (h.shaped second hsecond).stagePath
  rw [hshape, hshape'] at hstage
  exact (Place.sibling.inj hstage).1

end

theorem Away.renameHome (h : Away backupId base adrift results away disk) (hitem : item ∈ results)
    (haway : away item) {tree : Tree} (htree : disk.tree item.stagePath = some tree) :
    Away backupId base adrift results
      (fun staged => away staged ∧ staged.resolvedPath ≠ item.resolvedPath)
      ((disk.put item.stagePath none).put (.resource item.resolvedPath) (some tree)) := by
  obtain ⟨suffix, hshape⟩ := (h.shaped item hitem).stagePath
  have hframed : Framed backupId item.resolvedPath disk
      ((disk.put item.stagePath none).put (.resource item.resolvedPath) (some tree)) := by
    rw [hshape]
    exact framed_move rfl rfl
  refine ⟨⟨h.shaped, h.nodup, fun staged hstaged hstill => ?_, fun staged hstaged hback => ?_,
    fun path hpath hadrift => ?_, fun path hadrift => ?_⟩, fun staged hstaged => ?_⟩
  · obtain ⟨hgone, haside⟩ := h.staged staged hstaged hstill.1
    obtain ⟨other, hother⟩ := (h.shaped staged hstaged).stagePath
    refine ⟨(hframed.resource _ hstill.2).trans hgone, ?_⟩
    rw [hother] at haside ⊢
    exact (hframed.sibling _ other .removing hstill.2).trans haside
  · by_cases hsame : staged.resolvedPath = item.resolvedPath
    · rw [hsame, ← (h.staged item hitem haway).aside, htree]
      exact Disk.put_self ..
    · refine (hframed.resource _ hsame).trans (h.home staged hstaged fun hstill => ?_)
      exact hback ⟨hstill, hsame⟩
  · have hne : path ≠ item.resolvedPath := fun heq => hpath (heq ▸ mem_map_of_mem hitem)
    exact (hframed.resource path hne).trans (h.others path hpath hadrift)
  · obtain ⟨houtside, hgone, ⟨other, haside⟩, hpresent⟩ := h.drifts path hadrift
    have hne : path ≠ item.resolvedPath := fun heq => houtside (heq ▸ mem_map_of_mem hitem)
    exact ⟨houtside, (hframed.resource path hne).trans hgone,
      ⟨other, (hframed.sibling path other .removing hne).trans haside⟩, hpresent⟩
  · exact (h.held staged hstaged).stay (h.shaped staged hstaged).present hframed.copy

/-- The stages of the renames that failed. -/
def unrestoredOf (outcomes : List (Place × Except String Unit)) : List Place :=
  outcomes.filterMap fun outcome => if outcome.2.isOk then none else some outcome.1

/-- A run in the course of its renames home. -/
structure Homing (backupId : String) (base : Disk) (adrift : Option String)
    (results : List Staged) (away : Staged → Prop) (machine : Machine) : Prop where
  safe : machine.Always (RemovalSafe backupId base)
  away : Away backupId base adrift results away machine.disk
  checked : machine.Failed .stagedCheck ↔ adrift.isSome

theorem Homing.congr {away' : Staged → Prop} {machine : Machine}
    (h : Homing backupId base adrift results away machine)
    (haway : ∀ staged ∈ results, away staged ↔ away' staged) :
    Homing backupId base adrift results away' machine :=
  ⟨h.safe, h.away.congr haway, h.checked⟩

theorem checked_iff_next {machine : Machine} {step : Step} {succeeded : Bool} {disk : Disk}
    (hstep : step ≠ .stagedCheck) :
    (machine.next step succeeded disk).Failed .stagedCheck ↔ machine.Failed .stagedCheck := by
  rw [Machine.failed_next]
  exact or_iff_left fun h => hstep h.1

theorem triple_unstage (hitem : item ∈ results)
    (haway : away item) :
    Triple (Homing backupId base adrift results away)
      (Attempt.settle (world.rename .unstage item.stagePath (.resource item.resolvedPath)))
      (Ends (fun _ => Homing backupId base adrift results
          fun staged => away staged ∧ staged.resolvedPath ≠ item.resolvedPath)
        fun _ => Homing backupId base adrift results away) never := by
  have hrename : Guarantee (Machine.Since AnyChange fun _ => True)
      (Homing backupId base adrift results away)
      (world.rename .unstage item.stagePath (.resource item.resolvedPath))
      (fun _ => Homing backupId base adrift results
        fun staged => away staged ∧ staged.resolvedPath ≠ item.resolvedPath)
      fun _ => Homing backupId base adrift results away := by
    refine guarantee_rename world trivial (fun machine tree h htree => ⟨trivial, ?_⟩)
      fun machine _ h =>
        ⟨h.safe.next h.safe.1, h.away, (checked_iff_next (by nofun)).trans h.checked⟩
    have haway' := h.away.renameHome hitem haway htree
    exact ⟨h.safe.next haway'.allKept.removalSafe, haway',
      (checked_iff_next (by nofun)).trans h.checked⟩
  exact Triple.of_start fun start hstart =>
    (guarantee_settle hrename).triple hstart (fun _ _ _ h => h) fun _ _ _ h => h

/-- Which results are away once the renames of some of them are done. -/
def AwayAfter (done : List Staged) (outcomes : List (Place × Except String Unit))
    (staged : Staged) : Prop :=
  staged.stagePath ∉ done.map Staged.stagePath ∨ staged.stagePath ∈ unrestoredOf outcomes

theorem unrestoredOf_append (outcomes : List (Place × Except String Unit)) (place : Place)
    (outcome : Except String Unit) :
    unrestoredOf (outcomes ++ [(place, outcome)]) =
      unrestoredOf outcomes ++ if outcome.isOk then [] else [place] := by
  unfold unrestoredOf
  rw [filterMap_append]
  cases outcome with
  | ok | error => rfl

theorem mem_done_append {done : List Staged} {place : Place} :
    place ∈ (done ++ [item]).map stagePath ↔
      place ∈ done.map stagePath ∨ place = item.stagePath := by
  rw [map_append, mem_append, map_singleton, mem_singleton]

theorem Away.fresh_stage (h : Away backupId base adrift results away disk)
    {done rest : List Staged} (hitems : results.reverse = done ++ item :: rest) :
    item ∈ results ∧ item.stagePath ∉ done.map stagePath := by
  have hmem : ∀ staged ∈ done ++ item :: rest, staged ∈ results := fun staged hstaged =>
    mem_reverse.1 (hitems ▸ hstaged)
  have hitem := hmem item (mem_append_right done mem_cons_self)
  refine ⟨hitem, fun hstage => ?_⟩
  obtain ⟨earlier, hearlier, hsame⟩ := mem_map.1 hstage
  have hpath := resolvedPath_of_stagePath h (hmem earlier (mem_append_left _ hearlier)) hitem
    hsame
  have hnodup : (results.reverse.map resolvedPath).Nodup := by
    rw [map_reverse]
    exact (reverse_perm _).nodup_iff.2 h.nodup
  grind

theorem triple_unstageTurn {done rest : List Staged}
    {outcomes : List (Place × Except String Unit)}
    (hitems : results.reverse = done ++ item :: rest) :
    Triple
      (fun machine => Homing backupId base adrift results (AwayAfter done outcomes) machine ∧
        unrestoredOf outcomes ⊆ done.map stagePath)
      (do
        let outcome ← Attempt.settle
          (world.rename .unstage item.stagePath (.resource item.resolvedPath))
        return (item.stagePath, outcome))
      (fun outcome machine => Homing backupId base adrift results
          (AwayAfter (done ++ [item]) (outcomes ++ [outcome])) machine ∧
        unrestoredOf (outcomes ++ [outcome]) ⊆ (done ++ [item]).map stagePath) never := by
  refine Triple.of_start fun start hstart => ?_
  obtain ⟨hhoming, hsubset⟩ := hstart
  obtain ⟨hitem, hfresh⟩ := hhoming.away.fresh_stage hitems
  have hstage : ∀ staged ∈ results,
      staged.resolvedPath ≠ item.resolvedPath ↔ staged.stagePath ≠ item.stagePath := by
    grind [resolvedPath_of_stagePath, eq_of_resolvedPath, cases Homing]
  have hgrow : done.map stagePath ⊆ (done ++ [item]).map stagePath :=
    fun place hplace => mem_done_append.2 (.inl hplace)
  refine triple_bind ((triple_unstage world hitem (.inl hfresh)).weaken
    (fun machine hmachine => hmachine ▸ hhoming) (fun _ _ h => h) fun _ _ h => h) fun outcome => ?_
  refine triple_pure fun machine h => ?_
  cases outcome with
  | ok _ =>
    have hunrestored : unrestoredOf (outcomes ++ [(item.stagePath, .ok ())]) =
        unrestoredOf outcomes := by
      rw [unrestoredOf_append]
      exact append_nil _
    refine ⟨h.congr fun staged hstaged => ?_, ?_⟩
    · grind [AwayAfter]
    · rw [hunrestored]
      exact fun place hplace => hgrow (hsubset hplace)
  | error error =>
    have hunrestored : unrestoredOf (outcomes ++ [(item.stagePath, .error error)]) =
        unrestoredOf outcomes ++ [item.stagePath] := unrestoredOf_append _ _ _
    refine ⟨h.congr fun staged hstaged => ?_, ?_⟩
    · grind [AwayAfter]
    · rw [hunrestored]
      intro place hplace
      rcases mem_append.1 hplace with hplace | hplace
      · exact hgrow (hsubset hplace)
      · exact mem_done_append.2 (.inr (mem_singleton.1 hplace))

theorem triple_unstageAll :
    Triple (Homing backupId base adrift results fun _ => True) (world.unstageAll results)
      (fun unrestored => Homing backupId base adrift results
        fun staged => staged.stagePath ∈ unrestored) never := by
  have hloop := @triple_mapM Machine ε _ _ never (fun result => do
      let outcome ← Attempt.settle
        (world.rename .unstage result.stagePath (.resource result.resolvedPath))
      return (result.stagePath, outcome)) results.reverse
    (fun done outcomes machine =>
      Homing backupId base adrift results (AwayAfter done outcomes) machine ∧
        unrestoredOf outcomes ⊆ done.map stagePath)
    fun done item rest outcomes hitems => triple_unstageTurn world hitems
  refine triple_bind (hloop.weaken (fun machine h => ⟨h.congr fun staged _ => ?_, ?_⟩)
    (fun _ _ h => h) fun _ _ h => h) fun outcomes => ?_
  · exact iff_of_true trivial (.inl not_mem_nil)
  · exact nil_subset _
  · refine triple_pure fun machine h => h.1.congr fun staged hstaged => ?_
    refine or_iff_right fun hnot => hnot ?_
    exact mem_map_of_mem (mem_reverse.2 hstaged)

end Home

/-! ## Committing -/

/-- Destinations, the copies of the set and its manifest are the same. -/
structure Committed (backupId : String) (start now : Disk) : Prop where
  resource : ∀ path, now.tree (.resource path) = start.tree (.resource path)
  copy : ∀ locationId slug,
    now.tree (.copy backupId locationId slug) = start.tree (.copy backupId locationId slug)
  manifest : now.manifest backupId = start.manifest backupId

instance {backupId : String} : IsPreorder Disk (Committed backupId) where
  refl _ := ⟨fun _ => rfl, fun _ _ => rfl, rfl⟩
  trans _ _ _ hfirst hsecond :=
    ⟨fun path => (hsecond.resource path).trans (hfirst.resource path),
      fun locationId slug => (hsecond.copy locationId slug).trans (hfirst.copy locationId slug),
      hsecond.manifest.trans hfirst.manifest⟩

/-- The manifest of a removal. -/
def RemovalContext.manifestOf (context : RemovalContext) (entries : List BackupEntry) :
    BackupManifest :=
  ⟨context.backupId, entries, .removal, context.environmentId,
    if !context.lastCopyResourceKeys.isEmpty then some true else none,
    if !context.lastCopyResourceKeys.isEmpty then some context.lastCopyResourceKeys else none⟩

/-- The manifest on disk restores what is gone. -/
structure Recoverable (context : RemovalContext) (base : Disk) (results : List Staged)
    (disk : Disk) : Prop where
  gone : ∀ staged ∈ results, disk.contents staged.resolvedPath = none
  others : ∀ path, path ∉ results.map Staged.resolvedPath →
    disk.contents path = base.contents path
  held : ∀ staged ∈ results, EntryHolds context.backupId base staged disk
  paths : ∀ staged ∈ results, staged.entry.resolvedPath = staged.resolvedPath
  manifest : disk.manifest context.backupId =
    .written (context.manifestOf (results.map Staged.entry))

section Commit

variable (world : World) {context : RemovalContext} {base start now : Disk}
variable {results : List Staged}
variable {ε : Type} {never : ε → Machine → Prop}

theorem Recoverable.committed (h : Recoverable context base results start)
    (hnow : Committed context.backupId start now) : Recoverable context base results now := by
  refine ⟨fun staged hstaged => (hnow.resource _).trans (h.gone staged hstaged),
    fun path hpath => (hnow.resource path).trans (h.others path hpath), fun staged hstaged => ?_,
    h.paths, hnow.manifest.trans h.manifest⟩
  obtain ⟨locationId, slug, hbackup, hcopy⟩ := h.held staged hstaged
  exact ⟨locationId, slug, hbackup, (hnow.copy locationId slug).trans hcopy⟩

theorem Recoverable.removalSafe (h : Recoverable context base results now) :
    RemovalSafe context.backupId base now := by
  intro path tree htree
  by_cases hmem : path ∈ results.map resolvedPath
  · obtain ⟨staged, hstaged, rfl⟩ := mem_map.1 hmem
    obtain ⟨locationId, slug, hbackup, hcopy⟩ := h.held staged hstaged
    exact .inr ⟨_, h.manifest, staged.entry, mem_map_of_mem hstaged, h.paths staged hstaged,
      locationId, slug, hbackup, hcopy.trans htree⟩
  · exact .inl (.inl ((h.others path hmem).trans htree))

theorem Evicted.committed {backupId : String} {start now : Disk}
    (h : Evicted backupId start now) : Committed backupId start now :=
  ⟨h.resource, h.copy, h.manifest⟩

theorem guarantee_commitRemoval
    (hshaped : ∀ staged ∈ results, Shaped base staged) :
    Guarantee (Machine.Since (Committed context.backupId) fun step => step ≠ .stagedCheck)
      (fun _ => True) (world.commitRemoval context results)
      (fun result _ => result.isPartial = false ∧ result.backupId = some context.backupId ∧
        result.removed = results.map removed ∧ result.kept = [] ∧ result.failed = [])
      never := by
  have hput : ∀ staged ∈ results, ∀ (disk : Disk) (tree : Option Tree),
      Committed context.backupId disk (disk.put staged.stagePath tree) := by
    intro staged hstaged disk tree
    obtain ⟨suffix, hshape⟩ := (hshaped staged hstaged).stagePath
    rw [hshape]
    exact ⟨fun _ => Disk.put_of_ne _ _ (by nofun), fun _ _ => Disk.put_of_ne _ _ (by nofun), rfl⟩
  have hremove : ∀ staged ∈ results, Guarantee
      (Machine.Since (Committed context.backupId) fun step => step ≠ .stagedCheck) (fun _ => True)
      (world.removeAll .commit staged.stagePath) (fun _ _ => True) fun _ _ => True :=
    fun staged hstaged => guarantee_removeAll world (by nofun)
      (fun _ _ => ⟨hput staged hstaged _ _, trivial⟩) (fun _ _ _ => trivial)
      fun _ _ _ _ => ⟨hput staged hstaged _ _, trivial⟩
  have hprune : Guarantee
      (Machine.Since (Committed context.backupId) fun step => step ≠ .stagedCheck) (fun _ => True)
      (world.prune context.backupId) (fun _ _ => True) fun _ _ => True :=
    guarantee_prune_keep world (fun _ _ h => h.committed)
      (fun step hstep => by rcases hstep with rfl | rfl <;> nofun) fun _ _ _ _ => trivial
  refine guarantee_andThen (guarantee_mapM fun staged hstaged =>
    (guarantee_settle (hremove staged hstaged)).weaken (fun _ _ h => h) (fun _ h => h)
      (fun _ _ _ => trivial) fun _ _ h => h) fun _ => ?_
  refine guarantee_andThen ((guarantee_settle hprune).weaken (fun _ _ h => h) (fun _ h => h)
    (fun _ _ _ => trivial) fun _ _ h => h) fun _ => ?_
  exact guarantee_pure fun _ _ => ⟨rfl, rfl, rfl, rfl, rfl⟩

end Commit

/-! ## Accounts -/

/-- What identifies an operation in a row. -/
abbrev Account := String × String × String

def RemovalOperation.account (context : RemovalContext) (operation : RemovalOperation) : Account :=
  (operation.resourceKey, context.environment, operation.locationId)

def Removed.account (row : Removed) : Account :=
  (row.resourceKey, row.environmentId, row.locationId)

def Kept.account (row : Kept) : Account := (row.resourceKey, row.environmentId, row.locationId)

def FailureRow.account (row : FailureRow) : Account :=
  (row.resourceKey, row.environmentId, row.locationId)

theorem account_rows {context : RemovalContext} {done : List RemovalOperation}
    {results : List Staged} (h : List.Forall₂ (RowFor context) done results) :
    results.map (fun staged => staged.removed.account) =
      done.map (RemovalOperation.account context) := by
  induction h with
  | nil => rfl
  | @cons operation staged done results hrow _ ih =>
    rw [map_cons, map_cons, ih]
    congr 1
    show (staged.removed.resourceKey, staged.removed.environmentId, staged.removed.locationId) = _
    rw [hrow.resourceKey, hrow.environment, hrow.location]
    rfl

theorem account_results (results : List Staged) (unrestored : List Place) :
    ((World.stillRemoved results unrestored).map Removed.account ++
      (World.rolledBack results unrestored).map Kept.account).Perm
      (results.map fun staged => staged.removed.account) := by
  have hremoved : (World.stillRemoved results unrestored).map Removed.account =
      (results.filter fun staged => staged.stagePath ∈ unrestored).map
        fun staged => staged.removed.account := by
    rw [World.stillRemoved, map_map]
    rfl
  have hkept : (World.rolledBack results unrestored).map Kept.account =
      (results.filter fun staged => !decide (staged.stagePath ∈ unrestored)).map
        fun staged => staged.removed.account := by
    rw [World.rolledBack, map_map]
    simp only [decide_not]
    rfl
  rw [hremoved, hkept, ← map_append]
  exact (filter_append_perm _ results).map _

/-! ## Ends -/

/-- The rows of the operations that were not staged, and the destination that is adrift. -/
structure Remainder (context : RemovalContext) (operations done : List RemovalOperation)
    (failing : List FailureRow) (skipped : List Kept) (adrift : Option String) : Prop where
  accounts : operations.map (RemovalOperation.account context) =
    done.map (RemovalOperation.account context) ++ failing.map FailureRow.account ++
      skipped.map Kept.account
  destination : ∀ path, adrift = some path → ∃ operation ∈ operations, ∃ logicalPath,
    context.registry.destination operation.locationId operation.slug = .ok ⟨logicalPath, path⟩
  included : done ⊆ operations

/-- A list with nothing but a row for the manifest. -/
def ManifestRows (context : RemovalContext) (operations : List RemovalOperation)
    (rows : List FailureRow) : Prop :=
  rows = [] ∨ ∃ message, rows =
    [World.removalManifestFailure operations context.environment context.backupId message]

/-- How a removal ends. -/
inductive RemovalEnd (context : RemovalContext) (base : Disk)
    (operations : List RemovalOperation) (result : RemovalResult) (now : Machine) : Prop
  | nothing (operations : operations = []) (whole : result.isPartial = false)
      (backupId : result.backupId = none) (removed : result.removed = [])
      (kept : result.kept = []) (failed : result.failed = [])
      (contents : now.disk.contents = base.contents) (checked : ¬ now.Failed .stagedCheck)
  | committed {results : List Staged} (rows : List.Forall₂ (RowFor context) operations results)
      (nodup : (results.map Staged.resolvedPath).Nodup)
      (shaped : ∀ staged ∈ results, Shaped base staged)
      (recoverable : Recoverable context base results now.disk)
      (whole : result.isPartial = false) (backupId : result.backupId = some context.backupId)
      (removed : result.removed = results.map Staged.removed) (kept : result.kept = [])
      (failed : result.failed = []) (checked : ¬ now.Failed .stagedCheck)
  | returned {done : List RemovalOperation} {results : List Staged} {unrestored : List Place}
      {adrift : Option String} {failing manifestRows : List FailureRow} {skipped : List Kept}
      (rows : List.Forall₂ (RowFor context) done results)
      (remainder : Remainder context operations done failing skipped adrift)
      (away : Whereabouts base adrift results
        (fun staged => staged.stagePath ∈ unrestored) now.disk)
      (flagged : result.isPartial = !unrestored.isEmpty)
      (removed : result.removed = World.stillRemoved results unrestored)
      (kept : result.kept = World.rolledBack results unrestored ++ skipped)
      (failed : result.failed = failing ++ manifestRows)
      (some_failed : result.failed ≠ [])
      (manifest : ManifestRows context operations manifestRows)
      (checked : now.Failed .stagedCheck ↔ adrift.isSome)

section Ends

variable (world : World) {context : RemovalContext} {base : Disk}
variable {operations done rest : List RemovalOperation} {results : List Staged}
variable {adrift : Option String} {away : Staged → Prop} {start now : Machine}
variable {ε : Type} {never : ε → Machine → Prop}

theorem stillRemoved_nil (results : List Staged) : World.stillRemoved results [] = [] := by
  unfold World.stillRemoved
  rw [filter_eq_nil_iff.2 fun staged _ => by simp]
  rfl

theorem Homing.closing {rel : Disk → Disk → Prop}
    (h : Homing context.backupId base adrift results away start)
    (hsince : Machine.Since rel Step.Closing start now)
    (hrel : ∀ disk, rel start.disk disk → Discarded start.disk disk) :
    now.Always (RemovalSafe context.backupId base) ∧
      Whereabouts base adrift results away now.disk ∧
      (now.Failed .stagedCheck ↔ adrift.isSome) := by
  refine ⟨h.safe.since hsince fun disk hdisk =>
    (h.away.allKept.discarded (hrel disk hdisk)).removalSafe,
    h.away.toWhereabouts.discarded (hrel _ hsince.disk), ?_⟩
  rw [← h.checked]
  exact ⟨fun hfailed => hsince.failed_before (by simp [Step.Closing]) hfailed, hsince.failed⟩

theorem Removing.homing (h : Removing context base adrift done results start) :
    Homing context.backupId base adrift results (fun _ => True) start :=
  ⟨h.safe, h.away, h.checked⟩

theorem Homing.recorded (h : Homing context.backupId base adrift results away start)
    (hsince : Machine.Since (Recorded context.backupId) Step.Closing start now) :
    Homing context.backupId base adrift results away now := by
  obtain ⟨hsafe, haway, hchecked⟩ := h.closing hsince fun _ hdisk => hdisk.toDiscarded
  refine ⟨hsafe, ⟨haway, fun staged hstaged => ?_⟩, hchecked⟩
  obtain ⟨locationId, slug, hbackup, hcopy⟩ := h.away.held staged hstaged
  exact ⟨locationId, slug, hbackup, (hsince.disk.copy locationId slug).trans hcopy⟩

theorem remainder_of_halted {operation : RemovalOperation} {row : FailureRow}
    (hoperations : operations = done ++ operation :: rest)
    (hrows : List.Forall₂ (RowFor context) done results)
    (hrow : row.resourceKey = operation.resourceKey ∧ row.environmentId = context.environment ∧
      row.locationId = operation.locationId)
    (hadrift : ∀ path, adrift = some path → ∃ logicalPath,
      context.registry.destination operation.locationId operation.slug = .ok ⟨logicalPath, path⟩) :
    Remainder context operations done [row]
      (World.notAttempted operations context.environment results.length) adrift := by
  have hmem : operation ∈ operations := by
    rw [hoperations]
    exact mem_append_right done mem_cons_self
  refine ⟨?_, fun path hpath => ⟨operation, hmem, hadrift path hpath⟩, ?_⟩
  · have hdrop : operations.drop (results.length + 1) = rest := by
      rw [hoperations, ← hrows.length_eq, ← drop_drop, drop_left]
      rfl
    have hskipped : (World.notAttempted operations context.environment results.length).map
        Kept.account = rest.map (RemovalOperation.account context) := by
      rw [World.notAttempted, hdrop, map_map]
      rfl
    have haccount : row.account = operation.account context := by
      show (row.resourceKey, row.environmentId, row.locationId) = _
      rw [hrow.1, hrow.2.1, hrow.2.2]
      rfl
    rw [hskipped, hoperations, map_append, map_cons, map_singleton, haccount,
      append_assoc]
    rfl
  · rw [hoperations]
    exact subset_append_left _ _

theorem guarantee_persistRemoval :
    Guarantee (Machine.Since (Recorded context.backupId) Step.Closing) (fun _ => True)
      (world.persistRemoval context (results.map entry))
      (fun _ now => now.disk.manifest context.backupId =
        .written (context.manifestOf (results.map entry))) fun _ _ => True :=
  guarantee_writeManifest world _

theorem triple_abandonRemoval {row : FailureRow} :
    Triple (RemovalHalted context base operations results row)
      (world.abandonRemoval context operations results row)
      (fun result now => now.Always (RemovalSafe context.backupId base) ∧
        RemovalEnd context base operations result now) never := by
  refine Triple.of_start fun start hstart => ?_
  obtain ⟨done, operation, rest, adrift, hoperations, hremoving, hrow, hadrift⟩ := hstart
  have hremainder := remainder_of_halted hoperations hremoving.rows hrow hadrift
  refine triple_bind ((triple_unstageAll world).weaken
    (fun machine hmachine => hmachine ▸ hremoving.homing) (fun _ _ h => h) fun _ _ h => h)
    fun unrestored => ?_
  refine Triple.of_start fun middle hmiddle => ?_
  cases hempty : unrestored.isEmpty with
  | true =>
    obtain rfl := isEmpty_iff.1 hempty
    refine triple_bind (guarantee_discardSet world).settled fun _ => ?_
    refine triple_pure fun now hsince => ?_
    obtain ⟨hsafe, haway, hchecked⟩ := hmiddle.closing hsince fun _ h => h
    exact ⟨hsafe, .returned hremoving.rows hremainder haway rfl (stillRemoved_nil results).symm rfl
      (append_nil _).symm (cons_ne_nil _ _) (.inl rfl) hchecked⟩
  | false =>
    refine triple_bind (guarantee_persistRemoval world).settled fun recorded => ?_
    cases recorded with
    | ok _ =>
      refine triple_pure fun now hsince => ?_
      obtain ⟨hsafe, haway, hchecked⟩ := hmiddle.closing hsince
        fun _ (h : Recorded context.backupId _ _) => h.toDiscarded
      exact ⟨hsafe, .returned hremoving.rows hremainder haway (by rw [hempty]; rfl) rfl rfl
        (append_nil _).symm (cons_ne_nil _ _) (.inl rfl) hchecked⟩
    | error message =>
      refine triple_pure fun now hsince => ?_
      obtain ⟨hsafe, haway, hchecked⟩ := hmiddle.closing hsince
        fun _ (h : Recorded context.backupId _ _) => h.toDiscarded
      exact ⟨hsafe, .returned hremoving.rows hremainder haway (by rw [hempty]; rfl) rfl rfl
        rfl (cons_ne_nil _ _) (.inr ⟨message, rfl⟩) hchecked⟩

theorem triple_returnRemoval {message : String}
    (hrows : List.Forall₂ (RowFor context) operations results) :
    Triple (Homing context.backupId base none results fun _ => True)
      (world.returnRemoval context operations results message)
      (fun result now => now.Always (RemovalSafe context.backupId base) ∧
        RemovalEnd context base operations result now) never := by
  have hremainder : Remainder context operations operations [] [] none :=
    ⟨by rw [map_nil, append_nil, map_nil, append_nil], nofun,
      List.Subset.refl _⟩
  refine triple_bind (triple_unstageAll world) fun unrestored => ?_
  refine Triple.of_start fun middle hmiddle => ?_
  cases hempty : unrestored.isEmpty with
  | true =>
    obtain rfl := isEmpty_iff.1 hempty
    refine triple_bind (guarantee_discardSet world).settled fun _ => ?_
    refine triple_pure fun now hsince => ?_
    obtain ⟨hsafe, haway, hchecked⟩ := hmiddle.closing hsince fun _ h => h
    exact ⟨hsafe, .returned hrows hremainder haway rfl (stillRemoved_nil results).symm
      (append_nil _).symm (nil_append _).symm (cons_ne_nil _ _)
      (.inr ⟨message, rfl⟩) hchecked⟩
  | false =>
    refine triple_pure fun now hnow => ?_
    subst hnow
    exact ⟨hmiddle.safe, .returned hrows hremainder hmiddle.away.toWhereabouts
      (by rw [hempty]; rfl) rfl (append_nil _).symm (nil_append _).symm
      (cons_ne_nil _ _) (.inr ⟨message, rfl⟩) hmiddle.checked⟩

theorem removing_boot (base : Disk) : Removing context base none [] [] base.boot where
  safe := ⟨fun _ _ htree => .inl (.inl htree), nofun⟩
  away :=
    { shaped := fun _ hstaged => nomatch hstaged
      nodup := nodup_nil
      staged := fun _ hstaged => nomatch hstaged
      home := fun _ hstaged => nomatch hstaged
      others := fun _ _ _ => rfl
      drifts := fun _ hadrift => nomatch hadrift
      held := fun _ hstaged => nomatch hstaged }
  rows := .nil
  checked := ⟨fun hfailed => (nomatch hfailed), fun hadrift => nomatch hadrift⟩

theorem Removing.recoverable (h : Removing context base none operations results start)
    (hsince : Machine.Since (Recorded context.backupId) Step.Closing start now)
    (hmanifest : now.disk.manifest context.backupId =
      .written (context.manifestOf (results.map entry))) :
    Recoverable context base results now.disk := by
  refine ⟨fun staged hstaged => ?_, fun path hpath => ?_, fun staged hstaged => ?_,
    fun staged hstaged => ?_, hmanifest⟩
  · exact (hsince.disk.resource _).trans (h.away.staged staged hstaged trivial).gone
  · exact (hsince.disk.resource path).trans (h.away.others path hpath nofun)
  · obtain ⟨locationId, slug, hbackup, hcopy⟩ := h.away.held staged hstaged
    exact ⟨locationId, slug, hbackup, (hsince.disk.copy locationId slug).trans hcopy⟩
  · obtain ⟨operation, _, hrow⟩ := exists_item h.rows hstaged
    exact hrow.entryPath

theorem triple_executeRemoval :
    Triple (fun machine => machine = base.boot) (world.executeRemoval context operations)
      (fun result now => now.Always (RemovalSafe context.backupId base) ∧
        RemovalEnd context base operations result now) never := by
  refine triple_bind ((triple_removalLoop world (nil_append operations).symm).weaken
    (fun machine hmachine => hmachine ▸ removing_boot base) (fun _ _ h => h)
    fun _ _ hnever => hnever) fun (results, failure) => ?_
  cases failure with
  | some row => exact triple_abandonRemoval world
  | none =>
    refine Triple.of_start fun middle
      (hmiddle : Removing context base none operations results _) => ?_
    have hchecked : ¬ middle.Failed .stagedCheck := fun h => nomatch hmiddle.checked.1 h
    show Triple _ (if results.isEmpty then _ else _) _ _
    split_ifs with hempty
    · obtain rfl := isEmpty_iff.1 hempty
      refine triple_pure fun machine hmachine => ?_
      subst hmachine
      refine ⟨hmiddle.safe, .nothing (forall₂_nil_right_iff.1 hmiddle.rows) rfl rfl rfl rfl rfl
        ?_ hchecked⟩
      exact funext fun path => hmiddle.away.others path (not_mem_nil) nofun
    · refine triple_bind ((guarantee_settle (guarantee_persistRemoval world)).triple trivial
        (fun _ now hsince hwritten => And.intro hsince hwritten) fun _ _ _ hnever => hnever)
        fun recorded => ?_
      cases recorded with
      | error message =>
        refine (triple_returnRemoval world hmiddle.rows).weaken (fun now h => ?_) (fun _ _ h => h)
          fun _ _ hnever => hnever
        exact hmiddle.homing.recorded h.1
      | ok _ =>
        refine Triple.of_start fun now hnow => ?_
        have hrecoverable := hmiddle.recoverable hnow.1 hnow.2
        refine (guarantee_commitRemoval world hmiddle.away.shaped).triple trivial
          (fun result last hsince hresult => ?_) fun _ _ _ hnever => hnever
        obtain ⟨hwhole, hid, hremoved, hkept, hfailed⟩ := hresult
        refine ⟨?_, .committed hmiddle.rows hmiddle.away.nodup hmiddle.away.shaped
          (hrecoverable.committed hsince.disk) hwhole hid hremoved hkept hfailed fun hlast => ?_⟩
        · refine Machine.Always.since ?_ hsince fun disk hdisk =>
            (hrecoverable.committed hdisk).removalSafe
          exact (hmiddle.homing.recorded hnow.1).safe
        · refine hchecked (hnow.1.failed_before ?_ (hsince.failed_before (fun h => h rfl) hlast))
          simp [Step.Closing]

end Ends

end MangoStudio.Library.Mutation
