import MangoStudio.Library.Mutation.Moments

/-!
# What one write does

From a disk that holds `content` at the destination, one write either succeeds,
with a copy of `content` in its set, or fails with `content` in place
(`Found`).  The exception is a directory swap in which the rename into place
fails and the rename back fails too: then the destination is gone and its tree
is in the `.previous` sibling (`Lost`).

At every moment of a write the content is in place or copied, and nothing else
that a mutation relies on changes (`Shielded`).
-/

namespace MangoStudio.Library.Mutation

open Attempt Disk

/-! ## Purposes of calls -/

/-- The calls that put an entry back. A failed cleanup of a stage is not among them: it does not
decide whether the entry is back. -/
def Step.compensates : Step → Bool
  | .restoreDir => true
  | .restoreCopy => true
  | .restoreRemove => true
  | .restoreRename => true
  | .rollbackRemove => true
  | _ => false

/-- The calls that make a write; none of them puts an entry back. -/
def Step.Forward (step : Step) : Prop := step.compensates = false

/-! ## States of a destination -/

section States

variable {path : String} {content : Option Tree} {machine : Machine} {step : Step}
variable {succeeded : Bool}

/-- The destination holds the content, and no rename back has failed. -/
structure Found (path : String) (content : Option Tree) (machine : Machine) : Prop where
  home : machine.disk.tree (.resource path) = content
  calm : ¬ machine.Failed .swapBack

/-- The destination is gone, and its tree is beside it. -/
structure Lost (path : String) (content : Option Tree) (machine : Machine) : Prop where
  gone : machine.disk.tree (.resource path) = none
  aside : ∃ suffix tree, content = some tree ∧
    machine.disk.tree (.sibling path suffix .previous) = some tree
  failed : machine.Failed .swapBack

/-- Where the set has the copy of a destination. -/
abbrev WriteTarget.copy (target : WriteTarget) : Place :=
  .copy target.backupId target.locationId target.slug

/-- The destination holds the content, and the set has the copy that the backup path names. -/
structure Backed (registry : Registry) (target : WriteTarget) (path : String)
    (content : Option Tree) (backupPath : Option Place) (machine : Machine) : Prop
    extends Found path content machine where
  leads : registry.LeadsTo target.locationId target.slug path
  named : backupPath = content.map fun _ => target.copy
  copied : ∀ tree, content = some tree → machine.disk.tree target.copy = some tree

theorem calm_next {disk : Disk} (hcalm : ¬ machine.Failed .swapBack) (hstep : step ≠ .swapBack) :
    ¬ (machine.next step succeeded disk).Failed .swapBack := by
  rw [Machine.failed_next]
  rintro (hfailed | ⟨hother, _⟩)
  · exact hcalm hfailed
  · exact hstep hother

theorem Found.put (h : Found path content machine) (hstep : step ≠ .swapBack) {place : Place}
    (hplace : place ≠ .resource path) {tree : Option Tree} :
    Found path content (machine.next step succeeded (machine.disk.put place tree)) :=
  ⟨(put_of_ne _ _ hplace.symm).trans h.home, calm_next h.calm hstep⟩

theorem Found.read (h : Found path content machine) (hstep : step ≠ .swapBack) :
    Found path content (machine.next step succeeded machine.disk) :=
  ⟨h.home, calm_next h.calm hstep⟩

variable {registry : Registry} {target : WriteTarget} {backupPath : Option Place}

section

variable (h : Backed registry target path content backupPath machine)

include h

theorem Backed.put (hstep : step ≠ .swapBack) {other suffix : String} {kind : SiblingKind}
    {tree : Option Tree} :
    Backed registry target path content backupPath
      (machine.next step succeeded (machine.disk.put (.sibling other suffix kind) tree)) := by
  refine ⟨h.toFound.put hstep ?_, h.leads, h.named, fun found hfound => ?_⟩
  · nofun
  · rw [← h.copied found hfound]
    refine put_of_ne _ _ ?_
    nofun

theorem Backed.read (hstep : step ≠ .swapBack) :
    Backed registry target path content backupPath
      (machine.next step succeeded machine.disk) :=
  ⟨h.toFound.read hstep, h.leads, h.named, h.copied⟩

theorem Backed.shielded {now : Disk} (hframed : Framed target.backupId path machine.disk now) :
    Shielded registry target.backupId path machine.disk now := by
  refine hframed.shielded_of_copy fun tree htree => ?_
  exact ⟨_, _, h.leads, h.copied tree (h.home.symm.trans htree)⟩

end

end States

/-! ## Reads -/

section Reads

variable (world : World) {ε α : Type} {rel : Disk → Disk → Prop} {may : Step → Prop}
variable [IsPreorder Disk rel] {step : Step} {failed : String → ε} {pre : Machine → Prop}

theorem guarantee_read_keep {answer : Disk → Except ε α} (hmay : may step)
    (hkeep : ∀ machine succeeded, pre machine → pre (machine.next step succeeded machine.disk)) :
    Guarantee (Machine.Since rel may) pre (world.read step failed answer) (fun _ => pre)
      fun _ => pre :=
  guarantee_read world hmay (fun machine _ hpre _ => hkeep machine true hpre)
    fun machine _ hpre => hkeep machine false hpre

end Reads

/-! ## Retention -/

/-- Destinations and siblings are the same. -/
structure Discarded (start now : Disk) : Prop where
  resource : ∀ path, now.tree (.resource path) = start.tree (.resource path)
  sibling : ∀ path suffix kind,
    now.tree (.sibling path suffix kind) = start.tree (.sibling path suffix kind)

/-- So are the copies of the set. -/
structure Recorded (backupId : String) (start now : Disk) : Prop extends Discarded start now where
  copy : ∀ locationId slug,
    now.tree (.copy backupId locationId slug) = start.tree (.copy backupId locationId slug)

/-- Only other sets change. -/
structure Evicted (backupId : String) (start now : Disk) : Prop
    extends Recorded backupId start now where
  manifest : now.manifest backupId = start.manifest backupId

instance : IsPreorder Disk Discarded where
  refl _ := ⟨fun _ => rfl, fun _ _ _ => rfl⟩
  trans _ _ _ hfirst hsecond :=
    ⟨fun path => (hsecond.resource path).trans (hfirst.resource path),
      fun path suffix kind => (hsecond.sibling path suffix kind).trans
        (hfirst.sibling path suffix kind)⟩

instance {backupId : String} : IsPreorder Disk (Recorded backupId) where
  refl disk := ⟨refl_of Discarded disk, fun _ _ => rfl⟩
  trans _ _ _ hfirst hsecond :=
    ⟨trans_of Discarded hfirst.toDiscarded hsecond.toDiscarded,
      fun locationId slug => (hsecond.copy locationId slug).trans (hfirst.copy locationId slug)⟩

instance {backupId : String} : IsPreorder Disk (Evicted backupId) where
  refl disk := ⟨refl_of (Recorded backupId) disk, rfl⟩
  trans _ _ _ hfirst hsecond :=
    ⟨trans_of (Recorded backupId) hfirst.toRecorded hsecond.toRecorded,
      hsecond.manifest.trans hfirst.manifest⟩

theorem evicted_putSet {backupId other : String} {disk : Disk} (hother : other ≠ backupId)
    (copies : String → String → Option Tree) (manifest : ManifestFile) :
    Evicted backupId disk (disk.putSet other copies manifest) := by
  refine ⟨⟨⟨fun _ => rfl, fun _ _ _ => rfl⟩, fun locationId slug => ?_⟩, ?_⟩
  · show (if backupId = other then _ else _) = _
    rw [if_neg hother.symm]
  · exact Function.update_of_ne hother.symm ..

theorem Evicted.shielded {registry : Registry} {backupId path : String} {start now : Disk}
    (h : Evicted backupId start now) : Shielded registry backupId path start now :=
  Framed.shielded ⟨fun other _ => h.resource other,
    fun other suffix kind _ => h.sibling other suffix kind,
    fun locationId slug _ hcopy => (h.copy locationId slug).trans hcopy, h.manifest⟩
    (h.resource path)

theorem current_mem_selectRetained (world : World) (disk : Disk) (sets : List ListedSet)
    (current : String) : current ∈ world.selectRetained disk sets current :=
  List.mem_append_left _ List.mem_cons_self

theorem guarantee_prune (world : World) {may : Step → Prop} (hlist : may .listSets)
    (hevict : may .evictSet) (backupId : String) :
    Guarantee (Machine.Since (Evicted backupId) may) (fun _ => True) (world.prune backupId)
      (fun _ _ => True) fun _ _ => True := by
  refine guarantee_bind
    (guarantee_look fun _ _ => trivial : Guarantee _ _ _ (fun _ _ => True) _) fun moment => ?_
  refine guarantee_bind (guarantee_read_keep world hlist fun _ _ _ => trivial) fun listed => ?_
  obtain ⟨disk, sets⟩ := listed
  simp only
  split_ifs
  · exact guarantee_pure fun _ _ => trivial
  · exact guarantee_throw fun _ _ => trivial
  · refine guarantee_bind (guarantee_mapM fun set hset => ?_) fun outcomes => ?_
    · have hother : set.id ≠ backupId := by
        grind [current_mem_selectRetained]
      have hremove : Guarantee (Machine.Since (Evicted backupId) may) (fun _ => True)
          (world.removeSet .evictSet set.id) (fun _ _ => True) fun _ _ => True :=
        guarantee_removeSet world hevict
          (fun _ _ _ _ => ⟨evicted_putSet hother _ _, trivial⟩)
          fun _ _ _ _ _ => ⟨evicted_putSet hother _ _, trivial⟩
      exact (guarantee_observe hremove).weaken (fun _ _ h => h) (fun _ h => h)
        (fun _ _ _ => trivial) fun _ _ h => h
    · split
      · exact guarantee_throw fun _ _ => trivial
      · exact guarantee_pure fun _ _ => trivial

/-- The calls of retention. -/
def Step.Retention (step : Step) : Prop := step = .listSets ∨ step = .evictSet

theorem guarantee_prune_keep (world : World) {backupId : String} {rel : Disk → Disk → Prop}
    {may : Step → Prop} {pre : Machine → Prop}
    (hrel : ∀ disk disk', Evicted backupId disk disk' → rel disk disk')
    (hmay : ∀ step, Step.Retention step → may step)
    (hkeep : ∀ start now, Machine.Since (Evicted backupId) Step.Retention start now →
      pre start → pre now) :
    Guarantee (Machine.Since rel may) pre (world.prune backupId) (fun _ => pre) fun _ => pre :=
  ((guarantee_prune world (.inl rfl) (.inr rfl) backupId).frame hkeep).weaken
    (fun _ _ h => h.mono hrel hmay) (fun _ h => ⟨trivial, h⟩) (fun _ _ h => h.2) fun _ _ h => h.2

/-! ## Backing up -/

/-- What the calls of one write may do. -/
abbrev WithinWrite (registry : Registry) (target : WriteTarget) (path : String) :
    Machine → Machine → Prop :=
  Machine.Since (Shielded registry target.backupId path) Step.Forward

section Write

variable (world : World) {registry : Registry} {target : WriteTarget} {path : String}
variable {content : Option Tree}

theorem Backed.evicted {backupPath : Option Place} {start now : Machine}
    (h : Backed registry target path content backupPath start)
    (hsince : Machine.Since (Evicted target.backupId) Step.Retention start now) :
    Backed registry target path content backupPath now := by
  refine ⟨⟨(hsince.disk.resource path).trans h.home, fun hfailed => ?_⟩, h.leads, h.named,
    fun tree htree => (hsince.disk.copy ..).trans (h.copied tree htree)⟩
  exact h.calm (hsince.failed_before (by simp [Step.Retention]) hfailed)

theorem guarantee_backupExisting (hleads : registry.LeadsTo target.locationId target.slug path)
    (tree : Tree) :
    Guarantee (WithinWrite registry target path) (Found path (some tree))
      (world.backupExisting path target.locationId target.slug target.backupId)
      (fun place => Backed registry target path (some tree) (some place))
      fun _ => Found path (some tree) := by
  refine guarantee_bind (guarantee_read_keep world rfl fun _ _ h => h.read nofun) fun _ => ?_
  have hcopy : Guarantee (WithinWrite registry target path) (Found path (some tree))
      (world.copyTree .backupCopy (.resource path) target.copy)
      (fun _ => Backed registry target path (some tree) (some target.copy))
      fun _ => Found path (some tree) := by
    refine guarantee_copyTree world rfl ?_ (fun _ _ h => h.read nofun) ?_
    · intro machine found hfound hsource habsent
      obtain rfl : tree = found := Option.some.inj (hfound.home.symm.trans hsource)
      refine ⟨(framed_put (.inr ⟨habsent, _, _, rfl⟩)).shielded ?_,
        hfound.put (by nofun) (by nofun), hleads, rfl, fun other hother => ?_⟩
      · refine put_of_ne _ _ ?_
        nofun
      · rw [← hother]
        exact put_self ..
    · intro machine error left hfound habsent
      refine ⟨(framed_put (.inr ⟨habsent, _, _, rfl⟩)).shielded ?_,
        hfound.put (by nofun) (by nofun)⟩
      refine put_of_ne _ _ ?_
      nofun
  exact guarantee_bind hcopy fun _ => guarantee_pure fun _ h => h

theorem guarantee_backupIfExisting
    (hleads : registry.LeadsTo target.locationId target.slug path) :
    Guarantee (WithinWrite registry target path) (Found path content)
      (world.backupIfExisting path target)
      (Backed registry target path content)
      fun _ => Found path content := by
  refine guarantee_bind
    (guarantee_mapError (guarantee_read_keep world rfl fun _ _ h => h.read nofun)) fun _ => ?_
  have hexists : Guarantee (WithinWrite registry target path) (Found path content)
      (world.exists_ .existing (.resource path))
      (fun existing machine => Found path content machine ∧ existing = content.isSome)
      fun _ => Found path content := by
    refine guarantee_read world rfl (fun machine value h hvalue => ⟨h.read nofun, ?_⟩)
      fun machine _ h => h.read nofun
    rw [← h.home]
    exact (Except.ok.inj hvalue).symm
  refine guarantee_bind (guarantee_mapError hexists) fun existing => ?_
  cases hcontent : content with
  | none =>
    cases existing with
    | true => exact fun _ _ h => nomatch h.2.2
    | false => exact guarantee_pure fun _ h => ⟨h.1, hleads, rfl, nofun⟩
  | some tree =>
    cases existing with
    | false => exact fun _ _ h => nomatch h.2.2
    | true =>
      refine guarantee_bind (guarantee_mapError ?_) fun backupPath => guarantee_pure fun _ h => h
      refine guarantee_bind ((guarantee_backupExisting world hleads tree).pre_mono fun _ h => h.1)
        fun backupPath => ?_
      have hprune : Guarantee (WithinWrite registry target path)
          (Backed registry target path (some tree)
            (some backupPath))
          (world.prune target.backupId)
          (fun _ => Backed registry target path (some tree)
            (some backupPath)) fun _ => Found path (some tree) :=
        (guarantee_prune_keep world (fun _ _ h => h.shielded)
          (fun step hstep => by rcases hstep with rfl | rfl <;> rfl)
          fun _ _ hsince h => h.evicted hsince).fail_mono fun _ _ h => h.toFound
      exact guarantee_bind hprune fun _ => guarantee_pure fun _ h => h

/-! ## Staging -/

variable {backupPath : Option Place} {suffix : String} {machine : Machine} {step : Step}
variable {succeeded : Bool} {tree : Option Tree}

theorem Backed.stage (h : Backed registry target path content backupPath machine)
    (hstep : step ≠ .swapBack) :
    Shielded registry target.backupId path machine.disk
        (machine.disk.put (.sibling path suffix .staging) tree) ∧
      Backed registry target path content backupPath (machine.next step succeeded
        (machine.disk.put (.sibling path suffix .staging) tree)) :=
  ⟨h.shielded (framed_put (.inl rfl)), h.put hstep⟩

theorem guarantee_stageFile (file : TransferredFile) :
    Guarantee (WithinWrite registry target path)
      (Backed registry target path content backupPath)
      (world.stageFile (.sibling path suffix .staging) file)
      (fun _ => Backed registry target path content backupPath)
      fun _ => Backed registry target path content backupPath := by
  unfold World.stageFile
  split_ifs
  · exact guarantee_throw fun _ h => h
  · refine guarantee_mapError (guarantee_bind
      (guarantee_read_keep world rfl fun _ _ h => h.read nofun) fun _ => ?_)
    refine guarantee_call world rfl ?_ (fun _ _ h _ => h.read nofun)
      fun _ _ h => ⟨refl_of _ _, h.read nofun⟩
    grind [Backed.stage]

theorem guarantee_stageSource (source : DirectorySource) :
    Guarantee (WithinWrite registry target path)
      (Backed registry target path content backupPath)
      (world.stageSource source (.sibling path suffix .staging))
      (fun _ => Backed registry target path content backupPath)
      fun _ => Backed registry target path content backupPath := by
  cases source with
  | path sourceDir =>
    refine guarantee_mapError (guarantee_copyTree world rfl ?_ (fun _ _ h => h.read nofun) ?_)
    · exact fun machine tree h _ _ => h.stage nofun
    · exact fun machine error left h _ => h.stage nofun
  | files files =>
    refine guarantee_andThen (guarantee_call world rfl ?_ (fun _ _ h _ => h.read nofun)
      fun _ _ h => ⟨refl_of _ _, h.read nofun⟩) fun _ => ?_
    · intro machine value disk h heffect
      split at heffect
      · obtain rfl := (Prod.mk.inj (Except.ok.inj heffect)).2
        exact h.stage nofun
      · obtain rfl := (Prod.mk.inj (Except.ok.inj heffect)).2
        exact ⟨refl_of _ _, h.read nofun⟩
      · cases heffect
    · exact guarantee_andThen (guarantee_mapM fun file _ => guarantee_stageFile world file)
        fun _ => guarantee_pure fun _ h => h

/-! ## Swapping in -/

/-- The write has landed, and the set has the copy that the backup path names. -/
structure Landed (target : WriteTarget) (path : String) (content : Option Tree)
    (backupPath : Option Place) (machine : Machine) : Prop where
  present : (machine.disk.tree (.resource path)).isSome
  calm : ¬ machine.Failed .swapBack
  named : backupPath = content.map fun _ => target.copy
  copied : ∀ tree, content = some tree → machine.disk.tree target.copy = some tree

/-- Between the two renames of a swap. -/
structure Aside (target : WriteTarget) (path suffix : String) (tree : Tree)
    (backupPath : Option Place) (machine : Machine) : Prop where
  gone : machine.disk.tree (.resource path) = none
  aside : machine.disk.tree (.sibling path suffix .previous) = some tree
  calm : ¬ machine.Failed .swapBack
  named : backupPath = some target.copy
  copied : machine.disk.tree target.copy = some tree

theorem Aside.read {tree : Tree} (h : Aside target path suffix tree backupPath machine)
    (hstep : step ≠ .swapBack) :
    Aside target path suffix tree backupPath
      (machine.next step succeeded machine.disk) :=
  ⟨h.gone, h.aside, calm_next h.calm hstep, h.named, h.copied⟩

theorem Aside.shielded {tree : Tree} {now : Disk} (h : Aside target path suffix tree backupPath machine)
    (hframed : Framed target.backupId path machine.disk now) :
    Shielded registry target.backupId path machine.disk now := by
  refine hframed.shielded_of_copy fun found hfound => ?_
  rw [h.gone] at hfound
  cases hfound

theorem framed_move {backupId : String} {disk : Disk} {source destination : Place}
    (hsource : source.At path) (hdestination : destination.At path) :
    Framed backupId path disk ((disk.put source none).put destination tree) :=
  trans_of (Framed backupId path) (framed_put (.inl hsource)) (framed_put (.inl hdestination))

theorem copy_move {disk : Disk} {source destination : Place}
    {id locationId slug : String} (hsource : source.At path) (hdestination : destination.At path) :
    ((disk.put source none).put destination tree).tree (.copy id locationId slug) =
      disk.tree (.copy id locationId slug) := by
  rw [put_of_ne, put_of_ne]
  · rintro rfl
    exact hsource
  · rintro rfl
    exact hdestination

theorem guarantee_swapAside (tree : Tree) :
    Guarantee (WithinWrite registry target path)
      (Backed registry target path (some tree) backupPath)
      (world.rename .swapAside (.resource path) (.sibling path suffix .previous))
      (fun _ => Aside target path suffix tree backupPath)
      fun _ => Found path (some tree) := by
  refine guarantee_rename world rfl ?_ fun _ _ h => h.toFound.read nofun
  intro machine found h hsource
  obtain rfl : tree = found := Option.some.inj (h.home.symm.trans hsource)
  refine ⟨h.shielded (framed_move rfl rfl), ?_, put_self .., calm_next h.calm (by nofun),
    h.named, ?_⟩
  · show (put _ _ _).tree _ = none
    rw [put_of_ne _ _ (by nofun), put_self]
  · rw [← h.copied tree rfl]
    exact @copy_move path _ _ _ _ _ _ _ rfl rfl

theorem guarantee_swapIn (tree : Tree) :
    Guarantee (WithinWrite registry target path)
      (Aside target path suffix tree backupPath)
      (world.rename .swapIn (.sibling path suffix .staging) (.resource path))
      (fun _ => Landed target path (some tree) backupPath)
      fun _ => Aside target path suffix tree backupPath := by
  refine guarantee_rename world rfl ?_ fun _ _ h => h.read nofun
  intro machine found h _
  refine ⟨h.shielded (framed_move rfl rfl), ?_, calm_next h.calm (by nofun), h.named,
    fun other hother => ?_⟩
  · show ((put _ _ _).tree _).isSome
    rw [put_self]
    rfl
  · rw [← Option.some.inj hother, ← h.copied]
    exact @copy_move path _ _ _ _ _ _ _ rfl rfl

theorem guarantee_swapBack (tree : Tree) :
    Guarantee (WithinWrite registry target path)
      (Aside target path suffix tree backupPath)
      (world.rename .swapBack (.sibling path suffix .previous) (.resource path))
      (fun _ => Found path (some tree)) fun _ => Lost path (some tree) := by
  refine guarantee_rename world rfl ?_ ?_
  · intro machine found h hsource
    obtain rfl : tree = found := Option.some.inj (h.aside.symm.trans hsource)
    refine ⟨h.shielded (framed_move rfl rfl), put_self .., ?_⟩
    rw [Machine.failed_next]
    rintro (hfailed | ⟨_, hfailed⟩)
    · exact h.calm hfailed
    · cases hfailed
  · intro machine error h
    exact ⟨h.gone, ⟨suffix, tree, rfl, h.aside⟩, Machine.failed_next.2 (.inr ⟨rfl, rfl⟩)⟩

/-- The removal of a sibling keeps what does not depend on it. -/
theorem guarantee_removeSibling {step : Step} (hforward : step.Forward) {kind : SiblingKind}
    {pre : Machine → Prop} (hkeep : ∀ machine succeeded tree, pre machine →
      pre (machine.next step succeeded (machine.disk.put (.sibling path suffix kind) tree))) :
    Guarantee (WithinWrite registry target path) pre
      (world.removeAll step (.sibling path suffix kind)) (fun _ => pre) fun _ => pre := by
  have hput : ∀ (disk : Disk) tree,
      Shielded registry target.backupId path disk (disk.put (.sibling path suffix kind) tree) := by
    intro disk tree
    have hframed : Framed target.backupId path disk (disk.put (.sibling path suffix kind) tree) :=
      framed_put (.inl rfl)
    exact hframed.shielded (put_of_ne _ _ (by nofun))
  refine guarantee_removeAll world hforward (fun machine h => ⟨hput _ _, hkeep machine true none h⟩)
    (fun machine _ h => ?_) fun machine _ left h => ⟨hput _ _, hkeep machine false left h⟩
  have hsame : machine.disk.put (.sibling path suffix kind)
      (machine.disk.tree (.sibling path suffix kind)) = machine.disk := by
    rw [put, Function.update_eq_self]
  exact hsame ▸ hkeep machine false _ h

theorem Landed.put (h : Landed target path content backupPath machine) :
    Landed target path content backupPath (machine.next .removePrevious succeeded
      (machine.disk.put (.sibling path suffix .previous) tree)) := by
  refine ⟨?_, calm_next h.calm (by nofun), h.named, fun found hfound => ?_⟩
  · show ((Disk.put _ _ _).tree _).isSome
    rw [put_of_ne _ _ (by nofun)]
    exact h.present
  · exact (put_of_ne _ _ (by nofun)).trans (h.copied found hfound)

theorem guarantee_swapStagedDirectory :
    Guarantee (WithinWrite registry target path)
      (Backed registry target path content backupPath)
      (world.swapStagedDirectory (.sibling path suffix .staging) (.resource path)
        (.sibling path suffix .previous) content.isSome)
      (fun _ => Landed target path content backupPath)
      fun _ machine => Found path content machine ∨ Lost path content machine := by
  refine guarantee_mapError ?_
  cases content with
  | none =>
    refine guarantee_rename world rfl ?_ fun _ _ h => .inl (h.toFound.read nofun)
    intro machine found h _
    refine ⟨h.shielded (framed_move rfl rfl), ?_, calm_next h.calm (by nofun), h.named, nofun⟩
    show ((put _ _ _).tree _).isSome
    rw [put_self]
    rfl
  | some tree =>
    refine guarantee_bind ((guarantee_swapAside world tree).fail_mono fun _ _ h => .inl h)
      fun _ => ?_
    refine guarantee_bind (guarantee_observe (guarantee_swapIn world tree)) fun swapped => ?_
    cases swapped with
    | error writeError =>
      refine guarantee_bind (guarantee_observe (guarantee_swapBack world tree)) fun returned => ?_
      cases returned with
      | error rollbackError => exact guarantee_throw fun _ h => .inr h
      | ok _ => exact guarantee_throw fun _ h => .inl h
    | ok _ =>
      refine guarantee_bind (guarantee_observe
        (guarantee_removeSibling world (by exact rfl) fun _ _ _ h => h.put)) fun cleaned => ?_
      cases cleaned with
      | error | ok => exact guarantee_pure fun _ h => h

/-! ## Whole writes -/

/-- A write into the destination of its target, with the result that it reports. -/
structure Wrote (registry : Registry) (target : WriteTarget) (path : String)
    (content : Option Tree) (result : WriteResult) (machine : Machine) : Prop
    extends Landed target path content result.backupPath
      machine where
  destination : registry.destination target.locationId target.slug =
    .ok ⟨result.destinationPath, path⟩
  resolved : result.resolvedDestinationPath = path

/-- A destination, where it resolves, is the path. -/
def ResolvesTo (registry : Registry) (locationId slug path : String) : Prop :=
  ∀ found, registry.destination locationId slug = .ok found → found.resolvedPath = path

theorem guarantee_resolveTarget (kind : ResourceKind)
    (hpath : ResolvesTo registry target.locationId target.slug path) :
    Guarantee (WithinWrite registry target path) (Found path content)
      (world.resolveTarget registry target kind)
      (fun found machine => Found path content machine ∧
        registry.destination target.locationId target.slug = .ok ⟨found.logicalPath, path⟩ ∧
        found.resolvedPath = path)
      fun _ => Found path content := by
  refine guarantee_mapError ?_
  refine guarantee_andThen (guarantee_ofExcept (fun _ _ h _ => h) fun _ _ h _ => h) fun _ => ?_
  refine guarantee_bind
    (guarantee_ofExcept (fun _ found h hfound => ⟨h, hfound⟩) fun _ _ h _ => h :
      Guarantee _ _ _ (fun found machine => Found path content machine ∧
        registry.destination target.locationId target.slug = .ok found) _) fun found => ?_
  refine Guarantee.of_fact (fun _ h => h.2) fun hfound => ?_
  obtain rfl := hpath found hfound
  have hinspect : Guarantee (WithinWrite registry target found.resolvedPath)
      (Found found.resolvedPath content)
      (world.assertExpectedResourceEntry found.resolvedPath kind)
      (fun _ => Found found.resolvedPath content) fun _ => Found found.resolvedPath content :=
    guarantee_read_keep world rfl fun _ _ h => h.read nofun
  refine guarantee_bind (hinspect.pre_mono fun _ h => h.1) fun _ => ?_
  exact guarantee_pure fun _ h => ⟨h, hfound, rfl⟩

/-- What is known after a write that failed. -/
abbrev Unwritten (path : String) (content : Option Tree) (machine : Machine) : Prop :=
  Found path content machine ∨ Lost path content machine

/-- A write that failed; only the destination of the target can be lost. -/
def WriteFailed (registry : Registry) (target : WriteTarget) (path : String)
    (content : Option Tree) (machine : Machine) : Prop :=
  Found path content machine ∨ Lost path content machine ∧ ∃ logicalPath,
    registry.destination target.locationId target.slug = .ok ⟨logicalPath, path⟩

theorem guarantee_writeFile (contents : List UInt8)
    (hpath : ResolvesTo registry target.locationId target.slug path) :
    Guarantee (WithinWrite registry target path) (Found path content)
      (world.writeFile registry target contents) (Wrote registry target path content)
      fun _ => WriteFailed registry target path content := by
  refine guarantee_bind ((guarantee_resolveTarget world .file hpath).fail_mono
    fun _ _ h => .inl h) fun found => ?_
  refine Guarantee.of_fact (fun _ h => h.2) fun hfound => ?_
  obtain ⟨hdestination, rfl⟩ := hfound
  refine guarantee_bind ((guarantee_backupIfExisting world
    ⟨found.logicalPath, hdestination⟩).weaken (fun _ _ h => h)
    (fun _ h => h.1) (fun _ _ h => h) fun _ _ h => .inl h) fun backupPath => ?_
  have hwrite : Guarantee (WithinWrite registry target found.resolvedPath)
      (Backed registry target found.resolvedPath content
        backupPath)
      (world.writeFileAtomic .writeFile found.logicalPath found.resolvedPath contents)
      (fun _ => Landed target found.resolvedPath content
        backupPath)
      fun _ => WriteFailed registry target found.resolvedPath content := by
    refine guarantee_call world rfl ?_ (fun _ _ h _ => .inl (h.toFound.read (by simp)))
      fun _ _ h => ⟨refl_of _ _, .inl (h.toFound.read (by simp))⟩
    intro machine value disk h heffect
    split at heffect
    · cases heffect
    · obtain rfl := (Prod.mk.inj (Except.ok.inj heffect)).2
      refine ⟨h.shielded (framed_put (.inl rfl)), ?_, calm_next h.calm (by simp), h.named,
        fun tree htree => (put_of_ne _ _ (by simp)).trans (h.copied tree htree)⟩
      show ((put _ _ _).tree _).isSome
      rw [put_self]
      rfl
  exact guarantee_bind (guarantee_mapError hwrite) fun _ =>
    guarantee_pure fun _ h => ⟨h, hdestination, rfl⟩

theorem Unwritten.put (h : Unwritten path content machine) :
    Unwritten path content (machine.next .removeStage succeeded
      (machine.disk.put (.sibling path suffix .staging) tree)) := by
  rcases h with hfound | ⟨hgone, ⟨other, aside, hcontent, haside⟩, hfailed⟩
  · exact .inl (hfound.put (by nofun) (by nofun))
  · exact .inr ⟨(put_of_ne _ _ (by nofun)).trans hgone,
      ⟨other, aside, hcontent, (put_of_ne _ _ (by simp)).trans haside⟩,
      Machine.failed_next.2 (.inl hfailed)⟩

theorem guarantee_installDirectory (source : DirectorySource) {found : ResolvedDestination}
    (hdestination : registry.destination target.locationId target.slug = .ok found) :
    Guarantee (WithinWrite registry target found.resolvedPath)
      (Found found.resolvedPath content)
      (world.installDirectory found target source)
      (Wrote registry target found.resolvedPath content)
      fun _ => Unwritten found.resolvedPath content := by
  refine guarantee_bind ((guarantee_backupIfExisting world
    ⟨found.logicalPath, hdestination⟩).fail_mono fun _ _ h => .inl h) fun backupPath => ?_
  refine Guarantee.of_fact (fun _ h => h.named) fun hnamed => ?_
  have hexisting : backupPath.isSome = content.isSome := by
    rw [hnamed, Option.isSome_map]
  refine guarantee_andThen (guarantee_look fun _ h => h) fun suffix => ?_
  have hstaged : Guarantee (WithinWrite registry target found.resolvedPath)
      (Backed registry target found.resolvedPath content
        backupPath)
      (do
        world.stageSource source (.sibling found.resolvedPath suffix .staging)
        Attempt.mapError .policy (world.assertExpectedResourceEntry found.resolvedPath .directory)
        world.swapStagedDirectory (.sibling found.resolvedPath suffix .staging)
          (.resource found.resolvedPath) (.sibling found.resolvedPath suffix .previous)
          backupPath.isSome)
      (fun _ => Landed target found.resolvedPath content
        backupPath)
      fun _ => Unwritten found.resolvedPath content := by
    refine guarantee_andThen ((guarantee_stageSource world source).fail_mono
      fun _ _ h => .inl h.toFound) fun _ => ?_
    refine guarantee_andThen (guarantee_mapError (Guarantee.fail_mono
      (guarantee_read_keep world rfl fun _ _ h => h.read nofun)
      fun _ _ h => .inl h.toFound)) fun _ => ?_
    rw [hexisting]
    exact guarantee_swapStagedDirectory world
  refine guarantee_bind (guarantee_observe hstaged) fun staged => ?_
  cases staged with
  | ok _ => exact guarantee_pure fun _ h => ⟨h, hdestination, rfl⟩
  | error error =>
    refine guarantee_bind (guarantee_settle
      (guarantee_removeSibling world (by exact rfl) fun _ _ _ => Unwritten.put)) fun cleaned => ?_
    refine guarantee_throw fun machine h => ?_
    cases cleaned with
    | ok | error => exact h

theorem guarantee_writeDirectory (source : DirectorySource)
    (hpath : ResolvesTo registry target.locationId target.slug path) :
    Guarantee (WithinWrite registry target path) (Found path content)
      (world.writeDirectory registry target source) (Wrote registry target path content)
      fun _ => WriteFailed registry target path content := by
  refine guarantee_bind ((guarantee_resolveTarget world .directory hpath).fail_mono
    fun _ _ h => .inl h) fun found => ?_
  refine Guarantee.of_fact (fun _ h => h.2) fun hfound => ?_
  obtain ⟨hdestination, rfl⟩ := hfound
  refine Guarantee.pre_mono ?_ fun _ h => h.1
  have hinstall : Guarantee (WithinWrite registry target found.resolvedPath)
      (Found found.resolvedPath content) (world.installDirectory found target source)
      (Wrote registry target found.resolvedPath content)
      fun _ => WriteFailed registry target found.resolvedPath content :=
    (guarantee_installDirectory world source hdestination).fail_mono
      fun _ _ h => h.imp_right fun hlost => ⟨hlost, found.logicalPath, hdestination⟩
  cases source with
  | files files => exact hinstall
  | path sourceDir =>
    refine guarantee_andThen (Guarantee.fail_mono
      (guarantee_read_keep world rfl fun _ _ h => h.read nofun) fun _ _ h => .inl h) fun _ => ?_
    exact hinstall

end Write

end MangoStudio.Library.Mutation
