import MangoStudio.Library.Mutation.RemovalSpec

/-!
# Whole runs of a removal

The destinations that a removal has staged, and which of them are still away, is
the state of a run (`Away`).  Staging an operation adds one; a rename home takes
one back.  At every moment each original is in place, in its `.removing` sibling,
or named by a manifest on disk whose set has the copy (`RemovalSafe`).

A destination may be staged without being among the results: the check after the
rename can fail.  It is `adrift`.
-/

namespace MangoStudio.Library.Mutation

open Attempt List

/-! ## Where the originals are -/

/-- The manifest of the set restores the tree at the path. -/
def Restorable (backupId : String) (disk : Disk) (path : String) (tree : Tree) : Prop :=
  ∃ manifest, disk.manifest backupId = .written manifest ∧ ∃ entry ∈ manifest.entries,
    entry.resolvedPath = path ∧ ∃ locationId slug,
      entry.backupPath = some (.copy backupId locationId slug) ∧
      disk.tree (.copy backupId locationId slug) = some tree

/-- Each original is in place or staged, or the manifest that restores it is on disk. -/
def RemovalSafe (backupId : String) (base disk : Disk) : Prop :=
  ∀ path tree, base.contents path = some tree →
    TreeKept disk path tree ∨ Restorable backupId disk path tree

/-- Each original is in place or staged. -/
def AllKept (base disk : Disk) : Prop :=
  ∀ path tree, base.contents path = some tree → TreeKept disk path tree

theorem AllKept.removalSafe {backupId : String} {base disk : Disk} (h : AllKept base disk) :
    RemovalSafe backupId base disk := fun path tree htree => .inl (h path tree htree)

theorem AllKept.staging {backupId path : String} {base start now : Disk} (h : AllKept base start)
    (hnow : Staging backupId path start now) : AllKept base now := by
  intro other tree htree
  by_cases hother : other = path
  · subst hother
    exact hnow.kept (h other tree htree)
  · rcases h other tree htree with hhome | ⟨suffix, haside⟩
    · exact .inl ((hnow.resource other hother).trans hhome)
    · exact .inr ⟨suffix, (hnow.sibling other suffix .removing hother).trans haside⟩

theorem AllKept.discarded {base start now : Disk} (h : AllKept base start)
    (hnow : Discarded start now) : AllKept base now := by
  intro path tree htree
  rcases h path tree htree with hhome | ⟨suffix, haside⟩
  · exact .inl ((hnow.resource path).trans hhome)
  · exact .inr ⟨suffix, (hnow.sibling path suffix .removing).trans haside⟩

/-! ## The state of a run -/

/-- The row and the entry that an operation leaves. -/
structure RowFor (context : RemovalContext) (operation : RemovalOperation) (staged : Staged) :
    Prop where
  destination : context.registry.destination operation.locationId operation.slug =
    .ok ⟨staged.removed.path, staged.resolvedPath⟩
  resourceKey : staged.removed.resourceKey = operation.resourceKey
  environment : staged.removed.environmentId = context.environment
  location : staged.removed.locationId = operation.locationId
  entryPath : staged.entry.resolvedPath = staged.resolvedPath
  entryLocation : staged.entry.locationId = operation.locationId

/-- The destination is in its sibling. -/
structure StillStaged (base : Disk) (staged : Staged) (disk : Disk) : Prop where
  gone : disk.contents staged.resolvedPath = none
  aside : disk.tree staged.stagePath = base.contents staged.resolvedPath

/-- The entry's copy holds the original. -/
def EntryHolds (backupId : String) (base : Disk) (staged : Staged) (disk : Disk) : Prop :=
  ∃ locationId slug, staged.entry.backupPath = some (.copy backupId locationId slug) ∧
    disk.tree (.copy backupId locationId slug) = base.contents staged.resolvedPath

/-- A staged result lies in a sibling of its path, and took something that was there. -/
structure Shaped (base : Disk) (staged : Staged) : Prop where
  stagePath : ∃ suffix, staged.stagePath = .sibling staged.resolvedPath suffix .removing
  present : (base.contents staged.resolvedPath).isSome

/-- The destination that is staged without being among the results. -/
structure Drifts (base : Disk) (results : List Staged) (path : String) (disk : Disk) : Prop where
  outside : path ∉ results.map Staged.resolvedPath
  gone : disk.contents path = none
  aside : ∃ suffix, disk.tree (.sibling path suffix .removing) = base.contents path
  present : (base.contents path).isSome

/-- Which destinations are away. -/
structure Whereabouts (base : Disk) (adrift : Option String) (results : List Staged)
    (away : Staged → Prop) (disk : Disk) : Prop where
  shaped : ∀ staged ∈ results, Shaped base staged
  nodup : (results.map Staged.resolvedPath).Nodup
  staged : ∀ staged ∈ results, away staged → StillStaged base staged disk
  home : ∀ staged ∈ results, ¬ away staged →
    disk.contents staged.resolvedPath = base.contents staged.resolvedPath
  others : ∀ path, path ∉ results.map Staged.resolvedPath → adrift ≠ some path →
    disk.contents path = base.contents path
  drifts : ∀ path, adrift = some path → Drifts base results path disk

/-- Which destinations are away, with the copies of the originals in the set. -/
structure Away (backupId : String) (base : Disk) (adrift : Option String)
    (results : List Staged) (away : Staged → Prop) (disk : Disk) : Prop
    extends Whereabouts base adrift results away disk where
  held : ∀ staged ∈ results, EntryHolds backupId base staged disk

section Away

variable {backupId : String} {base : Disk} {adrift : Option String} {results : List Staged}
variable {away : Staged → Prop} {disk : Disk}

theorem Whereabouts.allKept (h : Whereabouts base adrift results away disk) :
    AllKept base disk := by
  intro path tree htree
  by_cases hmem : path ∈ results.map Staged.resolvedPath
  · obtain ⟨staged, hstaged, rfl⟩ := mem_map.1 hmem
    by_cases haway : away staged
    · obtain ⟨suffix, hshape⟩ := (h.shaped staged hstaged).stagePath
      refine .inr ⟨suffix, ?_⟩
      rw [← hshape, (h.staged staged hstaged haway).aside]
      exact htree
    · exact .inl ((h.home staged hstaged haway).trans htree)
  · by_cases hadrift : adrift = some path
    · obtain ⟨suffix, haside⟩ := (h.drifts path hadrift).aside
      exact .inr ⟨suffix, haside.trans htree⟩
    · exact .inl ((h.others path hmem hadrift).trans htree)

theorem Away.congr {away' : Staged → Prop} (h : Away backupId base adrift results away disk)
    (haway : ∀ staged ∈ results, away staged ↔ away' staged) :
    Away backupId base adrift results away' disk :=
  ⟨⟨h.shaped, h.nodup,
    fun staged hstaged h' => h.staged staged hstaged ((haway staged hstaged).2 h'),
    fun staged hstaged h' => h.home staged hstaged fun h'' => h' ((haway staged hstaged).1 h''),
    h.others, h.drifts⟩, h.held⟩

theorem Whereabouts.discarded {now : Disk} (h : Whereabouts base adrift results away disk)
    (hnow : Discarded disk now) : Whereabouts base adrift results away now := by
  refine ⟨h.shaped, h.nodup, fun staged hstaged haway => ?_, fun staged hstaged haway => ?_,
    fun path hpath hadrift => ?_, fun path hadrift => ?_⟩
  · obtain ⟨hgone, haside⟩ := h.staged staged hstaged haway
    obtain ⟨suffix, hshape⟩ := (h.shaped staged hstaged).stagePath
    refine ⟨(hnow.resource _).trans hgone, ?_⟩
    rw [hshape] at haside ⊢
    exact (hnow.sibling _ suffix .removing).trans haside
  · exact (hnow.resource _).trans (h.home staged hstaged haway)
  · exact (hnow.resource path).trans (h.others path hpath hadrift)
  · obtain ⟨houtside, hgone, ⟨suffix, haside⟩, hpresent⟩ := h.drifts path hadrift
    exact ⟨houtside, (hnow.resource path).trans hgone,
      ⟨suffix, (hnow.sibling path suffix .removing).trans haside⟩, hpresent⟩

end Away

/-! ## The loop -/

/-- The results so far, all of them away. -/
structure Removing (context : RemovalContext) (base : Disk) (adrift : Option String)
    (done : List RemovalOperation) (results : List Staged) (machine : Machine) : Prop where
  safe : machine.Always (RemovalSafe context.backupId base)
  away : Away context.backupId base adrift results (fun _ => True) machine.disk
  rows : List.Forall₂ (RowFor context) done results
  checked : machine.Failed .stagedCheck ↔ adrift.isSome

section Loop

variable (world : World) {context : RemovalContext} {base : Disk}
variable {operations done rest : List RemovalOperation} {operation : RemovalOperation}
variable {results : List Staged} {start now : Machine} {path : String} {may : Step → Prop}

theorem EntryHolds.stay {staged : Staged} {start now : Disk} {backupId : String}
    (h : EntryHolds backupId base staged start)
    (hpresent : (base.contents staged.resolvedPath).isSome)
    (hstay : CopiesStay backupId start now) : EntryHolds backupId base staged now := by
  obtain ⟨locationId, slug, hbackup, hcopy⟩ := h
  obtain ⟨tree, htree⟩ := Option.isSome_iff_exists.1 hpresent
  refine ⟨locationId, slug, hbackup, ?_⟩
  rw [htree] at hcopy ⊢
  exact hstay locationId slug tree hcopy

theorem Away.outside {start now : Disk} {away : Staged → Prop}
    (h : Away context.backupId base none results away start)
    (hframed : Framed context.backupId path start now)
    (hpath : path ∉ results.map Staged.resolvedPath) :
    ∀ staged ∈ results, staged.resolvedPath ≠ path ∧ EntryHolds context.backupId base staged now ∧
      (away staged → StillStaged base staged now) := by
  intro staged hstaged
  have hne : staged.resolvedPath ≠ path := by
    rintro rfl
    exact hpath (mem_map_of_mem hstaged)
  refine ⟨hne, (h.held staged hstaged).stay (h.shaped staged hstaged).present hframed.copy,
    fun haway => ?_⟩
  obtain ⟨hgone, haside⟩ := h.staged staged hstaged haway
  obtain ⟨suffix, hshape⟩ := (h.shaped staged hstaged).stagePath
  refine ⟨(hframed.resource _ hne).trans hgone, ?_⟩
  rw [hshape] at haside ⊢
  exact (hframed.sibling _ suffix .removing hne).trans haside

section

variable (h : Removing context base none done results start)

include h

theorem Removing.outside {tree : Tree} (htree : start.disk.contents path = some tree) :
    path ∉ results.map Staged.resolvedPath := by
  intro hmem
  obtain ⟨staged, hstaged, rfl⟩ := mem_map.1 hmem
  have hgone := (h.away.staged staged hstaged trivial).gone
  rw [htree] at hgone
  cases hgone

theorem Removing.always (hsince : Machine.Since (Staging context.backupId path) may start now) :
    now.Always (RemovalSafe context.backupId base) :=
  h.safe.since hsince fun _ hdisk => (h.away.allKept.staging hdisk).removalSafe

theorem Removing.base_contents {tree : Tree} (htree : start.disk.contents path = some tree) :
    base.contents path = some tree :=
  (h.away.others path (h.outside htree) nofun).symm.trans htree

end

theorem Staging.stays {staged : Staged} {start now : Disk}
    (h : Staging context.backupId path start now) (hshaped : Shaped base staged)
    (haside : start.tree staged.stagePath = base.contents staged.resolvedPath) :
    now.tree staged.stagePath = base.contents staged.resolvedPath := by
  obtain ⟨⟨suffix, hshape⟩, hpresent⟩ := hshaped
  obtain ⟨tree, htree⟩ := Option.isSome_iff_exists.1 hpresent
  rw [hshape, htree] at haside ⊢
  by_cases hpath : staged.resolvedPath = path
  · rw [hpath] at haside ⊢
    exact h.aside suffix tree haside
  · exact (h.sibling _ suffix .removing hpath).trans haside

section

variable (h : Removing context base none done results start)
  (hsince : Machine.Since (Staging context.backupId path) may start now)

include h hsince

theorem Removing.stagedAs {staged : Staged}
    (hstaged : StagedAs context operation path (start.disk.contents path) staged now) :
    Removing context base none (done ++ [operation]) (results ++ [staged]) now := by
  have hframed : Framed context.backupId path start.disk now.disk := hsince.disk.toRetreated
  obtain ⟨hresolved, ⟨suffix, tree, htree, hstagePath, hmoved⟩, hchecked, hdestination, hrow,
    hentry, hcopied⟩ := hstaged
  have houtside := h.outside htree
  have hbase := h.base_contents htree
  have hold := h.away.outside hframed houtside
  subst hresolved
  refine ⟨h.always hsince, ⟨⟨?_, ?_, ?_, fun _ _ hnot => absurd trivial hnot, ?_, nofun⟩, ?_⟩,
    ?_, ?_⟩
  · intro other hother
    rcases mem_append.1 hother with hother | hother
    · exact h.away.shaped other hother
    · rw [mem_singleton.1 hother]
      exact ⟨⟨suffix, hstagePath⟩, by rw [hbase]; rfl⟩
  · rw [map_append, map_singleton]
    refine nodup_append.2 ⟨h.away.nodup, pairwise_singleton _ _, ?_⟩
    intro first hfirst second hsecond
    rw [mem_singleton.1 hsecond]
    rintro rfl
    exact houtside hfirst
  · intro other hother _
    rcases mem_append.1 hother with hother | hother
    · exact (hold other hother).2.2 trivial
    · rw [mem_singleton.1 hother]
      refine ⟨hmoved.gone, ?_⟩
      rw [hbase, hstagePath]
      exact hmoved.aside
  · intro other hother _
    rw [map_append, mem_append, not_or, map_singleton, mem_singleton] at hother
    exact (hframed.resource other hother.2).trans (h.away.others other hother.1 nofun)
  · intro other hother
    rcases mem_append.1 hother with hother | hother
    · exact (hold other hother).2.1
    · rw [mem_singleton.1 hother]
      refine ⟨operation.locationId, operation.slug, by rw [hentry], ?_⟩
      rw [hcopied, hbase, htree]
  · refine rel_append h.rows (.cons ⟨hdestination, ?_, ?_, ?_, ?_, ?_⟩ .nil)
    · rw [hrow]
    · rw [hrow]
    · rw [hrow]
    · rw [hentry]
    · rw [hentry]
  · exact iff_of_false hchecked nofun

theorem Removing.inPlace (hplace : InPlace path (start.disk.contents path) now) :
    Removing context base none done results now := by
  have hframed : Framed context.backupId path start.disk now.disk := hsince.disk.toRetreated
  have hcontents : now.disk.contents = start.disk.contents := by
    rw [contents_update hframed hplace.home, Function.update_eq_self]
  refine ⟨h.always hsince, ⟨⟨h.away.shaped, h.away.nodup, fun staged hstaged _ => ?_,
    fun _ _ hnot => absurd trivial hnot, fun other hother hadrift => ?_, nofun⟩,
    fun staged hstaged => ?_⟩, h.rows, iff_of_false hplace.checked nofun⟩
  · obtain ⟨hgone, haside⟩ := h.away.staged staged hstaged trivial
    exact ⟨hcontents ▸ hgone, hsince.disk.stays (h.away.shaped staged hstaged) haside⟩
  · rw [hcontents]
    exact h.away.others other hother hadrift
  · exact (h.away.held staged hstaged).stay (h.away.shaped staged hstaged).present hframed.copy

theorem Removing.drift
    (hadrift : Adrift context.registry operation path (start.disk.contents path) now) :
    Removing context base (some path) done results now := by
  have hframed : Framed context.backupId path start.disk now.disk := hsince.disk.toRetreated
  obtain ⟨suffix, tree, htree, hmoved⟩ := hadrift.moved
  have houtside := h.outside htree
  have hbase := h.base_contents htree
  have hold := h.away.outside hframed houtside
  refine ⟨h.always hsince, ⟨⟨h.away.shaped, h.away.nodup,
    fun staged hstaged _ => (hold staged hstaged).2.2 trivial, fun _ _ hnot => absurd trivial hnot,
    fun other hother hne => ?_, fun other hother => ?_⟩,
    fun staged hstaged => (hold staged hstaged).2.1⟩, h.rows, iff_of_true hadrift.failed rfl⟩
  · have hother' : other ≠ path := fun heq => hne (heq ▸ rfl)
    exact (hframed.resource other hother').trans (h.away.others other hother nofun)
  · obtain rfl := Option.some.inj hother
    exact ⟨houtside, hmoved.gone, ⟨suffix, hmoved.aside.trans hbase.symm⟩, by rw [hbase]; rfl⟩

end

/-- The loop has stopped at an operation that failed. -/
def RemovalHalted (context : RemovalContext) (base : Disk)
    (operations : List RemovalOperation) (results : List Staged) (row : FailureRow)
    (machine : Machine) : Prop :=
  ∃ done operation rest adrift, operations = done ++ operation :: rest ∧
    Removing context base adrift done results machine ∧
    (row.resourceKey = operation.resourceKey ∧ row.environmentId = context.environment ∧
      row.locationId = operation.locationId) ∧
    ∀ path, adrift = some path → ∃ logicalPath,
      context.registry.destination operation.locationId operation.slug = .ok ⟨logicalPath, path⟩

theorem triple_removalTurn {ε : Type} {never : ε → Machine → Prop}
    (hoperations : operations = done ++ operation :: rest) :
    Triple (Removing context base none done results)
      (world.attemptRemoval context results.length operation)
      (Ends (fun staged => Removing context base none (done ++ [operation]) (results ++ [staged]))
        fun error => RemovalHalted context base operations results ⟨operation.resourceKey,
          context.environment, operation.locationId, error.reason, error.message⟩) never := by
  unfold World.attemptRemoval
  cases world.interrupted results.length with
  | some message =>
    refine triple_pure fun machine h => ?_
    exact ⟨done, operation, rest, none, hoperations, h, ⟨rfl, rfl, rfl⟩, nofun⟩
  | none =>
    refine Triple.of_start fun start hstart => ?_
    obtain ⟨path, hpath⟩ := exists_resolvesTo context.registry operation.locationId operation.slug
    have hsettle : Guarantee (WithinStaging context.backupId path)
        (InPlace path (start.disk.contents path))
        (Attempt.settle (world.stageOperation context operation) : Attempt Machine ε _)
        (Ends (StagedAs context operation path (start.disk.contents path))
          fun _ machine => InPlace path (start.disk.contents path) machine ∨
            Adrift context.registry operation path (start.disk.contents path) machine) never :=
      guarantee_settle (guarantee_stageOperation world hpath)
    have hchecked : ¬ start.Failed .stagedCheck := fun hfailed => nomatch hstart.checked.1 hfailed
    refine hsettle.triple ⟨rfl, hchecked⟩ ?_ fun _ _ _ h => h
    intro outcome now hsince hend
    cases outcome with
    | ok staged => exact hstart.stagedAs hsince hend
    | error error =>
      rcases hend with hplace | hadrift
      · exact ⟨done, operation, rest, none, hoperations, hstart.inPlace hsince hplace,
          ⟨rfl, rfl, rfl⟩, nofun⟩
      · refine ⟨done, operation, rest, some path, hoperations, hstart.drift hsince hadrift,
          ⟨rfl, rfl, rfl⟩, fun other hother => ?_⟩
        obtain rfl := Option.some.inj hother
        exact hadrift.destination

theorem triple_removalLoop {ε : Type} {never : ε → Machine → Prop}
    (hoperations : operations = done ++ rest) :
    Triple (Removing context base none done results)
      (world.removalLoop context results rest)
      (fun final machine => match final.2 with
        | none => Removing context base none operations final.1 machine
        | some row => RemovalHalted context base operations final.1 row machine) never := by
  induction rest generalizing done results with
  | nil =>
    rw [append_nil] at hoperations
    subst hoperations
    exact triple_pure fun _ h => h
  | cons operation rest ih =>
    refine triple_bind (triple_removalTurn world hoperations) fun outcome => ?_
    cases outcome with
    | ok staged =>
      refine ih ?_
      rw [hoperations, append_assoc]
      rfl
    | error error => exact triple_pure fun _ h => h

end Loop

end MangoStudio.Library.Mutation
