import MangoStudio.Library.Mutation.ApplyEnd

/-!
# What one operation of a removal does

An operation copies the destination into the set and renames it to its
`.removing` sibling.  At every moment the tree is in place or in that sibling
(`Staging`).  It ends in one of three ways:

* the destination is staged (`StagedAs`);
* it fails and the destination is as before;
* it fails although the destination is staged, because the check that it is gone
  could not be made (`Adrift`).
-/

namespace MangoStudio.Library.Mutation

open Attempt

/-! ## Trees that are staged -/

/-- The tree is in place or in the sibling that a removal renames to. -/
def TreeKept (disk : Disk) (path : String) (tree : Tree) : Prop :=
  disk.tree (.resource path) = some tree ∨
    ∃ suffix, disk.tree (.sibling path suffix .removing) = some tree

/-- Only one destination changes: its tree is kept, and trees that are staged stay there. -/
structure Staging (backupId path : String) (start now : Disk) : Prop
    extends Framed backupId path start now where
  home : ∀ tree, start.tree (.resource path) = some tree → TreeKept now path tree
  aside : ∀ suffix tree, start.tree (.sibling path suffix .removing) = some tree →
    now.tree (.sibling path suffix .removing) = some tree

section Staging

variable {backupId path : String}

theorem Staging.kept {start now : Disk} (h : Staging backupId path start now) {tree : Tree}
    (hkept : TreeKept start path tree) : TreeKept now path tree := by
  rcases hkept with hhome | ⟨suffix, haside⟩
  · exact h.home tree hhome
  · exact .inr ⟨suffix, h.aside suffix tree haside⟩

instance : IsPreorder Disk (Staging backupId path) where
  refl disk := ⟨refl_of (Framed backupId path) disk, fun _ h => .inl h, fun _ _ h => h⟩
  trans _ _ _ hfirst hsecond :=
    ⟨trans_of (Framed backupId path) hfirst.toRetreated hsecond.toRetreated,
      fun tree h => hsecond.kept (hfirst.home tree h),
      fun suffix tree h => hsecond.aside suffix tree (hfirst.aside suffix tree h)⟩

theorem staging_copy {disk : Disk} {locationId slug : String} {tree : Option Tree}
    (habsent : disk.tree (.copy backupId locationId slug) = none) :
    Staging backupId path disk (disk.put (.copy backupId locationId slug) tree) := by
  refine ⟨framed_put (.inr ⟨habsent, locationId, slug, rfl⟩), fun found hhome => .inl ?_,
    fun suffix found haside => ?_⟩
  · exact (Disk.put_of_ne _ _ (by nofun)).trans hhome
  · exact (Disk.put_of_ne _ _ (by nofun)).trans haside

theorem staging_rename {disk : Disk} {suffix : String} {tree : Tree}
    (hhome : disk.tree (.resource path) = some tree)
    (habsent : disk.tree (.sibling path suffix .removing) = none) :
    Staging backupId path disk
      ((disk.put (.resource path) none).put (.sibling path suffix .removing) (some tree)) := by
  refine ⟨framed_move rfl rfl, fun found hfound => .inr ⟨suffix, ?_⟩, fun other found haside => ?_⟩
  all_goals grind [Disk.put_self, Disk.put_of_ne]

end Staging

/-! ## The ends of an operation -/

abbrev WithinStaging (backupId path : String) : Machine → Machine → Prop :=
  Machine.Since (Staging backupId path) fun _ => True

/-- The destination holds the content, and no check of a staged removal has failed. -/
structure InPlace (path : String) (content : Option Tree) (machine : Machine) : Prop where
  home : machine.disk.tree (.resource path) = content
  checked : ¬ machine.Failed .stagedCheck

/-- The destination is in its sibling. -/
structure Moved (path suffix : String) (tree : Tree) (machine : Machine) : Prop where
  gone : machine.disk.tree (.resource path) = none
  aside : machine.disk.tree (.sibling path suffix .removing) = some tree

/-- The destination is staged, and the operation does not know. -/
structure Adrift (registry : Registry) (operation : RemovalOperation) (path : String)
    (content : Option Tree) (machine : Machine) : Prop where
  moved : ∃ suffix tree, content = some tree ∧ Moved path suffix tree machine
  failed : machine.Failed .stagedCheck
  destination : ∃ logicalPath, registry.destination operation.locationId operation.slug =
    .ok ⟨logicalPath, path⟩

/-- The destination is staged, with the entry and the row that the operation reports. -/
structure StagedAs (context : RemovalContext) (operation : RemovalOperation) (path : String)
    (content : Option Tree) (staged : Staged) (machine : Machine) : Prop where
  resolved : staged.resolvedPath = path
  moved : ∃ suffix tree, content = some tree ∧
    staged.stagePath = .sibling path suffix .removing ∧ Moved path suffix tree machine
  checked : ¬ machine.Failed .stagedCheck
  destination : context.registry.destination operation.locationId operation.slug =
    .ok ⟨staged.removed.path, path⟩
  row : staged.removed = ⟨operation.resourceKey, context.environment, operation.locationId,
    staged.removed.path, operation.expectedContentHash, operation.lastCopy⟩
  entry : staged.entry = ⟨operation.locationId, operation.slug, operation.kind,
    staged.removed.path, path, some (.copy context.backupId operation.locationId operation.slug),
    operation.expectedContentHash, some operation.resourceKey⟩
  copied : machine.disk.tree (.copy context.backupId operation.locationId operation.slug) = content

section Stage

variable (world : World) {backupId path : String} {content : Option Tree} {machine : Machine}
variable {step : Step} {succeeded : Bool}

theorem checked_next {disk : Disk} (h : ¬ machine.Failed .stagedCheck)
    (hstep : step ≠ .stagedCheck ∨ succeeded = true) :
    ¬ (machine.next step succeeded disk).Failed .stagedCheck := by
  grind [Machine.failed_next]

theorem InPlace.read (h : InPlace path content machine) (hstep : step ≠ .stagedCheck) :
    InPlace path content (machine.next step succeeded machine.disk) :=
  ⟨h.home, checked_next h.checked (.inl hstep)⟩

/-- Before the rename: the content is in place, and its copy is in the set. -/
structure Copied (target : WriteTarget) (path : String) (tree : Tree) (machine : Machine) :
    Prop extends InPlace path (some tree) machine where
  copied : machine.disk.tree target.copy = some tree

/-- After the rename: the content is beside its place, and its copy is in the set. -/
structure SetAside (target : WriteTarget) (path suffix : String) (tree : Tree)
    (machine : Machine) : Prop extends Moved path suffix tree machine where
  checked : ¬ machine.Failed .stagedCheck
  copied : machine.disk.tree target.copy = some tree

variable {target : WriteTarget} {tree : Tree}

theorem Copied.read (h : Copied target path tree machine) (hstep : step ≠ .stagedCheck) :
    Copied target path tree (machine.next step succeeded machine.disk) :=
  ⟨h.toInPlace.read hstep, h.copied⟩

theorem guarantee_backupForRemoval :
    Guarantee (WithinStaging target.backupId path) (InPlace path (some tree))
      (world.backupExisting path target.locationId target.slug target.backupId)
      (fun place machine => Copied target path tree machine ∧ place = target.copy)
      fun _ => InPlace path (some tree) := by
  refine guarantee_andThen (guarantee_read_keep world trivial fun _ _ h => h.read nofun)
    fun _ => ?_
  have hcopy : Guarantee (WithinStaging target.backupId path) (InPlace path (some tree))
      (world.copyTree .backupCopy (.resource path) target.copy)
      (fun _ => Copied target path tree) fun _ => InPlace path (some tree) := by
    refine guarantee_copyTree world trivial ?_ (fun _ _ h => h.read nofun) ?_
    · intro machine found h hsource habsent
      obtain rfl : tree = found := Option.some.inj (h.home.symm.trans hsource)
      exact ⟨staging_copy habsent, ⟨(Disk.put_of_ne _ _ (by nofun)).trans h.home,
        checked_next h.checked (.inl (by nofun))⟩, Disk.put_self ..⟩
    · intro machine error left h habsent
      exact ⟨staging_copy habsent, (Disk.put_of_ne _ _ (by nofun)).trans h.home,
        checked_next h.checked (.inl (by nofun))⟩
  exact guarantee_bind hcopy fun _ => guarantee_pure fun _ h => ⟨h, rfl⟩

theorem guarantee_stageRemoval {suffix : String} :
    Guarantee (WithinStaging target.backupId path) (Copied target path tree)
      (world.stageRemoval path suffix)
      (fun stagePath machine => stagePath = .sibling path suffix .removing ∧
        SetAside target path suffix tree machine)
      fun _ machine => InPlace path (some tree) machine ∨
        Moved path suffix tree machine ∧ machine.Failed .stagedCheck := by
  have hcheck : Guarantee (WithinStaging target.backupId path) (Copied target path tree)
      (world.exists_ .stageCheck (.sibling path suffix .removing))
      (fun found machine => Copied target path tree machine ∧
        (machine.disk.tree (.sibling path suffix .removing)).isSome = found)
      fun _ => InPlace path (some tree) :=
    guarantee_read world trivial (fun _ _ h hfound => ⟨h.read nofun, Except.ok.inj hfound⟩)
      fun _ _ h => h.toInPlace.read nofun
  refine guarantee_bind (guarantee_mapError (hcheck.fail_mono fun _ _ h => .inl h)) fun found => ?_
  cases found with
  | true => exact guarantee_throw fun _ h => .inl h.1.toInPlace
  | false =>
    have hrename : Guarantee (WithinStaging target.backupId path)
        (fun machine => Copied target path tree machine ∧
          (machine.disk.tree (.sibling path suffix .removing)).isSome = false)
        (world.rename .stageRename (.resource path) (.sibling path suffix .removing))
        (fun _ => SetAside target path suffix tree) fun _ => InPlace path (some tree) := by
      refine guarantee_rename world trivial ?_ fun _ _ h => h.1.toInPlace.read nofun
      intro machine found h hsource
      obtain rfl : tree = found := Option.some.inj (h.1.home.symm.trans hsource)
      have habsent := Option.not_isSome_iff_eq_none.1 (h.2 ▸ Bool.false_ne_true)
      refine ⟨staging_rename hsource habsent, ⟨?_, Disk.put_self ..⟩,
        checked_next h.1.checked (.inl (by nofun)), ?_⟩
      · show (Disk.put _ _ _).tree _ = none
        rw [Disk.put_of_ne _ _ (by nofun), Disk.put_self]
      · rw [← h.1.copied]
        exact @copy_move path _ _ _ _ _ _ _ rfl rfl
    refine guarantee_bind (guarantee_mapError (hrename.fail_mono fun _ _ h => .inl h)) fun _ => ?_
    have hstaged : Guarantee (WithinStaging target.backupId path)
        (SetAside target path suffix tree) (world.exists_ .stagedCheck (.resource path))
        (fun found machine => found = false ∧ SetAside target path suffix tree machine)
        fun _ machine => Moved path suffix tree machine ∧ machine.Failed .stagedCheck := by
      refine guarantee_read world trivial (fun machine found h hfound => ⟨?_, ⟨h.gone, h.aside⟩,
        checked_next h.checked (.inr rfl), h.copied⟩)
        fun machine _ h => ⟨⟨h.gone, h.aside⟩, Machine.failed_next.2 (.inr ⟨rfl, rfl⟩)⟩
      rw [h.gone] at hfound
      exact (Except.ok.inj hfound).symm
    refine guarantee_bind (guarantee_mapError (hstaged.fail_mono fun _ _ h => .inr h))
      fun found => ?_
    cases found with
    | true => exact Guarantee.of_fact (fun _ h => h.1) nofun
    | false => exact guarantee_pure fun _ h => ⟨rfl, h.2⟩

/-! ## The operation -/

variable {context : RemovalContext} {operation : RemovalOperation}

theorem assertPreviewedContent_ok {destination : ResolvedDestination} {contentHash : String}
    (h : World.assertPreviewedContent operation destination contentHash = .ok ()) :
    contentHash = operation.expectedContentHash := by
  unfold World.assertPreviewedContent at h
  split_ifs at h with heq
  exact heq

theorem guarantee_previewedDestination
    (hpath : ResolvesTo context.registry operation.locationId operation.slug path) :
    Guarantee (WithinStaging context.backupId path) (InPlace path content)
      (world.previewedDestination context operation)
      (fun found machine => InPlace path content machine ∧
        context.registry.destination operation.locationId operation.slug =
          .ok ⟨found.1.logicalPath, path⟩ ∧ found.1.resolvedPath = path ∧
        found.2 = operation.expectedContentHash ∧ ∃ tree, content = some tree ∧
          world.hash operation.kind tree = .ok operation.expectedContentHash)
      fun _ => InPlace path content := by
  refine guarantee_andThen (guarantee_mapError
    (guarantee_ofExcept (fun _ _ h _ => h) fun _ _ h _ => h)) fun _ => ?_
  have hdestination : Guarantee (WithinStaging context.backupId path) (InPlace path content)
      (Attempt.ofExcept (context.registry.destination operation.locationId operation.slug))
      (fun found machine => InPlace path content machine ∧
        context.registry.destination operation.locationId operation.slug = .ok found)
      fun _ => InPlace path content :=
    guarantee_ofExcept (fun _ found h hfound => ⟨h, hfound⟩) fun _ _ h _ => h
  refine guarantee_bind (guarantee_mapError hdestination) fun found => ?_
  refine Guarantee.of_fact (fun _ h => h.2) fun hfound => ?_
  obtain rfl := hpath found hfound
  refine Guarantee.pre_mono ?_ fun _ h => h.1
  refine guarantee_andThen (guarantee_ofExcept (fun _ _ h _ => h) fun _ _ h _ => h) fun _ => ?_
  refine guarantee_andThen (guarantee_mapError
    (guarantee_read_keep world trivial fun _ _ h => h.read nofun)) fun _ => ?_
  refine guarantee_bind (guarantee_mapError
    (guarantee_hashAt world trivial fun _ _ h => h.read nofun)) fun contentHash => ?_
  have hcontent : Guarantee (WithinStaging context.backupId found.resolvedPath)
      (fun machine => InPlace found.resolvedPath content machine ∧ ∃ tree,
        machine.disk.tree (.resource found.resolvedPath) = some tree ∧
          world.hash operation.kind tree = .ok contentHash)
      (Attempt.ofExcept (World.assertPreviewedContent operation found contentHash))
      (fun _ machine => InPlace found.resolvedPath content machine ∧
        contentHash = operation.expectedContentHash ∧ ∃ tree, content = some tree ∧
          world.hash operation.kind tree = .ok operation.expectedContentHash)
      fun _ => InPlace found.resolvedPath content := by
    refine guarantee_ofExcept (fun machine _ h hok => ?_) fun _ _ h _ => h.1
    grind [assertPreviewedContent_ok, cases InPlace]
  refine guarantee_bind hcontent fun _ => guarantee_pure fun _ h => ?_
  exact ⟨h.1, hfound, rfl, h.2⟩

theorem guarantee_stageOperation
    (hpath : ResolvesTo context.registry operation.locationId operation.slug path) :
    Guarantee (WithinStaging context.backupId path) (InPlace path content)
      (world.stageOperation context operation) (StagedAs context operation path content)
      fun _ machine => InPlace path content machine ∨
        Adrift context.registry operation path content machine := by
  refine guarantee_bind ((guarantee_previewedDestination world hpath).fail_mono
    fun _ _ h => .inl h) fun found => ?_
  obtain ⟨found, contentHash⟩ := found
  refine Guarantee.of_fact (fun _ h => h.2) fun hfacts => ?_
  obtain ⟨hdestination, hresolved, rfl, tree, rfl, hhash⟩ := hfacts
  dsimp only at hdestination hresolved ⊢
  subst hresolved
  have hbackup : Guarantee (WithinStaging context.backupId found.resolvedPath)
      (InPlace found.resolvedPath (some tree))
      (world.backupExisting found.resolvedPath operation.locationId operation.slug
        context.backupId)
      (fun place machine => Copied ⟨operation.locationId, operation.slug, context.backupId⟩
        found.resolvedPath tree machine ∧
        place = .copy context.backupId operation.locationId operation.slug)
      fun _ machine => InPlace found.resolvedPath (some tree) machine ∨
        Adrift context.registry operation found.resolvedPath (some tree) machine :=
    (@guarantee_backupForRemoval world found.resolvedPath
      ⟨operation.locationId, operation.slug, context.backupId⟩ tree).fail_mono fun _ _ h => .inl h
  refine guarantee_bind ((guarantee_mapError hbackup).pre_mono fun _ h => h.1) fun place => ?_
  refine Guarantee.of_fact (fun _ h => h.2) fun hplace => ?_
  subst hplace
  refine Guarantee.pre_mono ?_ fun _ h => h.1
  refine guarantee_andThen (guarantee_look fun _ h => h) fun suffix => ?_
  refine guarantee_bind ((guarantee_stageRemoval world).fail_mono fun _ machine h => ?_)
    fun stagePath => guarantee_pure fun machine h => ?_
  · refine h.imp_right fun hmoved => ⟨⟨suffix, tree, rfl, hmoved.1⟩, hmoved.2, ?_⟩
    exact ⟨found.logicalPath, hdestination⟩
  · obtain ⟨rfl, haside⟩ := h
    exact ⟨rfl, ⟨suffix, tree, rfl, rfl, haside.toMoved⟩, haside.checked, hdestination, rfl, rfl,
      haside.copied⟩

end Stage

end MangoStudio.Library.Mutation
