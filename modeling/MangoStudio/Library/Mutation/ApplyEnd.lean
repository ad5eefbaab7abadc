import MangoStudio.Library.Mutation.ApplyRun

/-!
# How an apply ends

After the loop an apply records its manifest, or rolls back and discards its
set.  Recording leaves every destination, sibling and copy as it is (`Recorded`);
discarding leaves every destination and sibling (`Discarded`).

`ApplyEnd` lists how a run can end, with what its result says.
-/

namespace MangoStudio.Library.Mutation

open Attempt List Function

/-! ## Recording and discarding -/

/-- The calls that record or discard a set. -/
def Step.Closing (step : Step) : Prop :=
  step = .setDir ∨ step = .writeManifest ∨ step = .listSets ∨ step = .evictSet ∨ step = .discardSet

section Closing

variable (world : World) {backupId : String} {start now : Machine}
variable {rel : Disk → Disk → Prop}

theorem Machine.Since.calm_closing (h : Machine.Since rel Step.Closing start now)
    (hcalm : ¬ start.Failed .swapBack) : ¬ now.Failed .swapBack := fun hfailed =>
  hcalm (h.failed_before (by simp [Step.Closing]) hfailed)

theorem Machine.Since.compensated_closing (h : Machine.Since rel Step.Closing start now)
    (hstart : ¬ start.Uncompensated) : ¬ now.Uncompensated := by
  rintro ⟨step, hstep, hfailed⟩
  refine hstart ⟨step, hstep, h.failed_before ?_ hfailed⟩
  rintro (rfl | rfl | rfl | rfl | rfl) <;> cases hstep

theorem recorded_manifest (disk : Disk) (id : String) (manifest : ManifestFile) :
    Recorded backupId disk { disk with manifest := update disk.manifest id manifest } :=
  ⟨⟨fun _ => rfl, fun _ _ _ => rfl⟩, fun _ _ => rfl⟩

theorem guarantee_writeManifest (manifest : BackupManifest) :
    Guarantee (Machine.Since (Recorded backupId) Step.Closing) (fun _ => True)
      (world.writeManifest manifest)
      (fun _ machine => machine.disk.manifest manifest.backupId = .written manifest)
      fun _ _ => True := by
  refine guarantee_andThen (guarantee_read_keep world (.inl rfl) fun _ _ _ => trivial) fun _ => ?_
  refine guarantee_call world (.inr (.inl rfl)) ?_ (fun _ _ _ _ => trivial)
    fun machine failure _ => ⟨recorded_manifest _ _ _, trivial⟩
  intro machine value disk _ heffect
  obtain rfl := (Prod.mk.inj (Except.ok.inj heffect)).2
  exact ⟨recorded_manifest _ _ _, update_self ..⟩

/-- What an apply records. -/
def MutationContext.manifestOf (context : MutationContext) (written : List BackupEntry) :
    BackupManifest :=
  ⟨context.backupId, written, .propagation, context.environmentId, none, none⟩

theorem guarantee_persist {context : MutationContext} (written : List BackupEntry) :
    Guarantee (Machine.Since (Recorded context.backupId) Step.Closing) (fun _ => True)
      (world.persist context written)
      (fun _ machine => machine.disk.manifest context.backupId =
        .written (context.manifestOf written))
      fun _ _ => True := by
  refine guarantee_bind (guarantee_writeManifest world (context.manifestOf written)) fun _ => ?_
  refine Guarantee.fail_mono (guarantee_prune_keep world (fun _ _ h => h.toRecorded) ?_ ?_)
    fun _ _ _ => trivial
  · rintro step (rfl | rfl)
    · exact .inr (.inr (.inl rfl))
    · exact .inr (.inr (.inr (.inl rfl)))
  · exact fun _ _ hsince h => hsince.disk.manifest.trans h

theorem guarantee_discardSet :
    Guarantee (Machine.Since Discarded Step.Closing) (fun _ => True)
      (world.discardSet backupId) (fun _ _ => True) fun _ _ => True :=
  guarantee_removeSet world (.inr (.inr (.inr (.inr rfl))))
    (fun _ _ _ _ => ⟨⟨fun _ => rfl, fun _ _ _ => rfl⟩, trivial⟩)
    fun _ _ _ _ _ => ⟨⟨fun _ => rfl, fun _ _ _ => rfl⟩, trivial⟩

theorem Covered.recorded {touched : String → Prop} {base start now : Disk}
    (h : Covered registry backupId touched base start) (hnow : Recorded backupId start now) :
    Covered registry backupId touched base now := by
  intro path tree htree
  rcases h path tree htree with hbacks | ⟨htouched, hhome⟩
  · exact .inl (hbacks.stay fun locationId slug _ hcopy => (hnow.copy locationId slug).trans hcopy)
  · exact .inr ⟨htouched, (hnow.resource path).trans hhome⟩

theorem Journal.recorded {base : Disk} {written : List BackupEntry} {may : Step → Prop}
    (h : Journal registry backupId base written start)
    (hsince : Machine.Since (Recorded backupId) may start now) :
    Journal registry backupId base written now :=
  ⟨h.always.since hsince fun _ hdisk => (h.covered.recorded hdisk).safe,
    h.covered.recorded hsince.disk,
    fun entry hentry => (h.held_stay (fun locationId slug _ hcopy =>
      (hsince.disk.copy locationId slug).trans hcopy) entry hentry).self⟩

theorem contents_recorded {start now : Disk} (h : Recorded backupId start now) :
    now.contents = start.contents := funext h.resource

theorem InProgress.recorded {context : MutationContext} {base : Disk}
    {done : List ApplyOperation} {progress : World.Progress}
    (h : InProgress world context base done progress start)
    (hsince : Machine.Since (Recorded context.backupId) Step.Closing start now) :
    InProgress world context base done progress now := by
  have hstay : CopiesStay context.backupId start.disk now.disk := fun locationId slug _ hcopy =>
    (hsince.disk.copy locationId slug).trans hcopy
  refine ⟨h.toJournal.recorded hsince, ?_, ?_, h.entries, h.failed,
    hsince.calm_closing h.calm, hsince.compensated_closing h.compensated⟩
  · unfold Disk.undone
    rw [contents_recorded hsince.disk, h.toJournal.undone_stay hstay]
    exact h.undone
  · rw [contents_recorded hsince.disk]
    exact h.rewinds.congr fun entry hentry =>
      ((h.toJournal.held_stay hstay entry (mem_reverse.1 hentry)).copy).symm

end Closing

/-! ## Rolling back -/

/-- The state after a rollback of all entries. -/
structure RolledBack (backupId : String) (written : List BackupEntry) (start : Machine)
    (complete : Bool) (now : Machine) : Prop where
  since : Machine.Since (Retreated backupId (Touches written)) Step.Backward start now
  contents : complete = true → now.disk.contents = start.disk.undone written
  log : complete = true → now.Uncompensated → start.Uncompensated
  failed : complete = false → now.Uncompensated

section RolledBack

variable (world : World) {registry : Registry} {backupId : String} {base : Disk}
variable {written : List BackupEntry}
variable {start now : Machine} {complete : Bool}

theorem triple_rollback {ε : Type} {never : ε → Machine → Prop}
    (h : Journal registry backupId base written start) :
    Triple (fun machine => machine = start) (world.rollback written)
      (RolledBack backupId written start) never := by
  have hpending : Pending backupId start.disk.copyOf start.Uncompensated written
      start.disk.contents start := ⟨h.held, rfl, fun hfailed => hfailed⟩
  refine (@guarantee_rollback world backupId start.disk.copyOf start.Uncompensated
    start.disk.contents (Touches written) written ε never
    (fun entry hentry => mem_map_of_mem hentry)).triple hpending ?_ fun _ _ _ hnever => hnever
  intro complete now hsince hend
  cases complete with
  | true => exact ⟨hsince, fun _ => hend.1, fun _ => hend.2, nofun⟩
  | false => exact ⟨hsince, nofun, nofun, fun _ => hend⟩

theorem RolledBack.calm (h : RolledBack backupId written start complete now)
    (hcalm : ¬ start.Failed .swapBack) : ¬ now.Failed .swapBack := fun hfailed =>
  hcalm (h.since.failed_before (by simp [Step.Backward, Step.compensates]) hfailed)

theorem RolledBack.always (h : RolledBack backupId written start complete now)
    (hjournal : Journal registry backupId base written start) :
    now.Always (Safe registry backupId base) :=
  hjournal.always.since h.since fun _ hdisk => (hjournal.covered.retreated hdisk).safe

theorem Always.discarded {later : Machine} {may : Step → Prop}
    (halways : now.Always (Safe registry backupId base))
    (hsince : Machine.Since Discarded may now later)
    (hhome : ∀ path tree, base.contents path = some tree → now.disk.contents path = some tree ∨
      ∃ suffix, now.disk.tree (.sibling path suffix .previous) = some tree) :
    later.Always (Safe registry backupId base) := by
  refine halways.since hsince fun disk hdisk path tree htree => ?_
  rcases hhome path tree htree with hstill | ⟨suffix, haside⟩
  · exact .inl ((hdisk.resource path).trans hstill)
  · exact .inr (.inl ⟨suffix, .previous, nofun, (hdisk.sibling path suffix .previous).trans haside⟩)

end RolledBack

/-! ## Ends -/

/-- A destination that a failed swap lost in the operation after the ones that are done. -/
def LostAt (context : MutationContext) (operations done : List ApplyOperation)
    (path : String) : Prop :=
  ∃ operation rest, operations = done ++ operation :: rest ∧ ∃ logicalPath,
    context.registry.destination operation.locationId operation.slug = .ok ⟨logicalPath, path⟩

/-- How an apply ends in which something failed. -/
inductive FailedEnd (context : MutationContext) (base : Disk) (operations : List ApplyOperation)
    (result : ApplyResult) (now : Machine) : Prop
  | restored (whole : result.isPartial = false) (contents : now.disk.contents = base.contents)
      (calm : ¬ now.Failed .swapBack)
  | repaired {done : List ApplyOperation} {written : List BackupEntry} {path : String}
      (whole : result.isPartial = false) (contents : now.disk.contents = base.contents)
      (lostAt : LostAt context operations done path)
      (entries : List.Forall₂ (EntryFor context.registry) done written)
      (touches : Touches written path)
  | lost {done : List ApplyOperation} {path : String} {tree : Tree}
      (whole : result.isPartial = false) (lostAt : LostAt context operations done path)
      (original : base.contents path = some tree) (gone : now.disk.contents path = none)
      (failed : now.Failed .swapBack) (compensated : ¬ now.Uncompensated)
  | kept {touched : String → Prop} (flagged : result.isPartial = true)
      (backupId : result.backupId = some context.backupId)
      (backups : result.backups = [⟨context.environment, context.backupId⟩])
      (covered : Covered context.registry context.backupId touched base now.disk)
      (log : now.Failed .swapBack → now.Uncompensated)

section Ends

variable (world : World) {context : MutationContext} {base : Disk}
variable {operations : List ApplyOperation} {written : List BackupEntry}
variable {start middle now : Machine}

theorem Halted.discarded (h : Halted context base operations written start)
    (hrolled : RolledBack context.backupId written start true middle)
    (hsince : Machine.Since Discarded Step.Closing middle now) :
    now.Always (Safe context.registry context.backupId base) ∧ ∀ result : ApplyResult,
      result.isPartial = false → FailedEnd context base operations result now := by
  have hcontents : now.disk.contents = middle.disk.contents := funext hsince.disk.resource
  cases h with
  | clean journal undone calm =>
    have hbase : middle.disk.contents = base.contents := (hrolled.contents rfl).trans undone
    refine ⟨Always.discarded (hrolled.always journal) hsince fun path tree htree => ?_,
      fun _ hwhole => .restored hwhole (hcontents.trans hbase)
        (hsince.calm_closing (hrolled.calm calm))⟩
    exact .inl ((congrFun hbase path).trans htree)
  | @lost done rest operation logicalPath path suffix tree journal position entries destination
      undone gone aside failed compensated =>
    have hlostAt : LostAt context operations done path :=
      ⟨operation, rest, position, logicalPath, destination⟩
    by_cases htouches : Touches written path
    · -- An earlier entry names the path, and its copy puts the destination right.
      have hbase : middle.disk.contents = base.contents := by
        rw [hrolled.contents rfl, ← undone]
        refine (UndoLog.undo_update_of_mem ?_ _ _).symm
        rw [map_reverse]
        exact mem_reverse.2 htouches
      refine ⟨Always.discarded (hrolled.always journal) hsince fun other found hfound => ?_,
        fun _ hwhole => .repaired hwhole (hcontents.trans hbase) hlostAt entries htouches⟩
      exact .inl ((congrFun hbase other).trans hfound)
    · have hreverse : path ∉ written.reverse.map BackupEntry.resolvedPath := by
        rw [map_reverse, mem_reverse]
        exact htouches
      have hundone : update (start.disk.undone written) path (some tree) =
          base.contents := by
        rw [← undone, UndoLog.undo_update_of_notMem hreverse]
        rfl
      have hother : ∀ other, other ≠ path → middle.disk.contents other = base.contents other := by
        intro other hne
        rw [hrolled.contents rfl, ← hundone, update_of_ne hne]
      have horiginal : base.contents path = some tree := by
        rw [← hundone, update_self]
      have hgone : middle.disk.contents path = none :=
        (hrolled.since.disk.resource path htouches).trans gone
      have haside : middle.disk.tree (.sibling path suffix .previous) = some tree :=
        (hrolled.since.disk.sibling path suffix .previous htouches).trans aside
      refine ⟨Always.discarded (hrolled.always journal) hsince fun other found hfound => ?_,
        fun _ hwhole => .lost hwhole hlostAt horiginal ?_
          (hsince.failed (hrolled.since.failed failed))
          (hsince.compensated_closing fun hfailed => compensated (hrolled.log rfl hfailed))⟩
      · grind
      · rw [hcontents]
        exact hgone

theorem Halted.journal (h : Halted context base operations written start) :
    Journal context.registry context.backupId base written start := by
  cases h with
  | clean journal | lost journal => exact journal

theorem Journal.kept {may : Step → Prop}
    (h : Journal context.registry context.backupId base written start)
    (hrolled : RolledBack context.backupId written start false middle)
    (hsince : Machine.Since (Recorded context.backupId) may middle now) :
    now.Always (Safe context.registry context.backupId base) ∧ ∀ result : ApplyResult,
      FailedEnd context base operations
        { result.withSet context.environment context.backupId with isPartial := true } now := by
  have hcovered := h.covered.retreated hrolled.since.disk
  exact ⟨(hrolled.always h).since hsince fun _ hdisk => (hcovered.recorded hdisk).safe,
    fun _ => .kept rfl rfl rfl (hcovered.recorded hsince.disk)
      fun _ => hsince.uncompensated (hrolled.failed rfl)⟩

variable {ε : Type} {never : ε → Machine → Prop}

theorem triple_settleFailed {progress : World.Progress}
    (hfailed : progress.failed ≠ []) :
    Triple (Halted context base operations progress.written)
      (world.settleFailed context operations progress)
      (fun result now => now.Always (Safe context.registry context.backupId base) ∧
        result.failed ≠ [] ∧ FailedEnd context base operations result now) never := by
  refine Triple.of_start fun start hstart => ?_
  refine triple_bind (triple_rollback world hstart.journal) fun complete => ?_
  cases complete with
  | true =>
    refine Triple.of_start fun middle hrolled => ?_
    refine triple_bind (guarantee_discardSet world).settled fun _ => ?_
    refine triple_pure fun now hsince => ?_
    obtain ⟨halways, hend⟩ := hstart.discarded hrolled hsince
    exact ⟨halways, hfailed, hend _ rfl⟩
  | false =>
    refine Triple.of_start fun middle hrolled => ?_
    refine triple_bind (guarantee_persist world progress.written).settled fun recorded => ?_
    refine triple_pure fun now hsince => ?_
    obtain ⟨halways, hend⟩ := hstart.journal.kept hrolled hsince
    refine ⟨halways, ?_, hend _⟩
    cases recorded with
    | ok _ => exact hfailed
    | error _ => exact append_ne_nil_of_left_ne_nil hfailed _

/-- How an apply ends. -/
inductive ApplyEnd (context : MutationContext) (base : Disk) (operations : List ApplyOperation)
    (result : ApplyResult) (now : Machine) : Prop
  | applied {progress : World.Progress}
      (progressed : InProgress world context base operations progress now)
      (whole : result.isPartial = false) (failed : result.failed = [])
      (recorded : progress.written ≠ [] → result.backupId = some context.backupId ∧
        now.disk.manifest context.backupId = .written (context.manifestOf progress.written))
  | failed (failed : result.failed ≠ []) (ended : FailedEnd context base operations result now)

theorem triple_settleWritten {progress : World.Progress} :
    Triple (InProgress world context base operations progress)
      (world.settleWritten context operations progress)
      (fun result now => now.Always (Safe context.registry context.backupId base) ∧
        ApplyEnd world context base operations result now) never := by
  refine Triple.of_start fun start hstart => ?_
  have hpersist : Guarantee (Machine.Since (Recorded context.backupId) Step.Closing)
      (fun _ => True)
      (Attempt.settle (world.persist context progress.written) : Attempt Machine ε _)
      (Ends (fun _ machine => machine.disk.manifest context.backupId =
        .written (context.manifestOf progress.written)) fun _ _ => True) never :=
    guarantee_settle (guarantee_persist world progress.written)
  refine triple_bind (hpersist.triple trivial (fun recorded now hsince hend =>
    ⟨hstart.recorded world hsince, hend⟩ : ∀ recorded now, _ → _ →
      InProgress world context base operations progress now ∧ _) fun _ _ _ hnever => hnever)
    fun recorded => ?_
  cases recorded with
  | ok _ =>
    refine triple_pure fun now h => ⟨h.1.always, .applied h.1 rfl h.1.failed fun _ => ⟨rfl, h.2⟩⟩
  | error message =>
    refine Triple.of_start fun recording hrecording => ?_
    refine triple_bind (triple_rollback world hrecording.1.toJournal) fun complete => ?_
    have hhalted : Halted context base operations progress.written recording :=
      .clean hrecording.1.toJournal hrecording.1.undone hrecording.1.calm
    cases complete with
    | true =>
      refine Triple.of_start fun middle hrolled => ?_
      refine triple_bind (guarantee_discardSet world).settled fun _ => ?_
      refine triple_pure fun now hsince => ?_
      obtain ⟨halways, hend⟩ := hhalted.discarded hrolled hsince
      exact ⟨halways, .failed (cons_ne_nil _ _) (hend _ rfl)⟩
    | false =>
      refine triple_pure fun now hrolled => ?_
      obtain ⟨halways, hend⟩ := hrecording.1.toJournal.kept hrolled
        (refl_of (Machine.Since (Recorded context.backupId) Step.Closing) now)
      exact ⟨halways,
        .failed (append_ne_nil_of_right_ne_nil _ (cons_ne_nil _ _)) (hend _)⟩

/-- The state before an apply, with nothing on record. -/
def Disk.boot (disk : Disk) : Machine := { disk }

theorem inProgress_boot (base : Disk) : InProgress world context base [] {} base.boot where
  always := ⟨fun _ _ htree => .inl htree, nofun⟩
  covered := fun _ _ htree => .inr ⟨nofun, htree⟩
  held := nofun
  undone := rfl
  rewinds := trivial
  entries := .nil
  failed := rfl
  calm := nofun
  compensated := fun ⟨_, _, hfailed⟩ => nomatch hfailed

theorem triple_executeApply :
    Triple (fun machine => machine = base.boot) (world.executeApply context operations)
      (fun result now => now.Always (Safe context.registry context.backupId base) ∧
        ApplyEnd world context base operations result now) never := by
  refine triple_bind ((triple_applyLoop world (nil_append operations).symm).weaken
    (fun machine hmachine => hmachine ▸ inProgress_boot world base) (fun _ _ h => h)
    fun _ _ hnever => hnever) fun final => ?_
  split_ifs with hfailed hwritten
  · refine triple_pure fun machine h => ?_
    obtain hdone | ⟨hne, _⟩ := h
    · refine ⟨hdone.always, .applied hdone rfl hdone.failed fun hne => ?_⟩
      exact absurd (isEmpty_iff.1 hwritten) hne
    · exact absurd (isEmpty_iff.1 hfailed) hne
  · refine (triple_settleWritten world).weaken (fun machine h => ?_) (fun _ _ h => h)
      fun _ _ hnever => hnever
    exact h.resolve_right fun hhalted => hhalted.1 (isEmpty_iff.1 hfailed)
  · have hne : final.failed ≠ [] := fun hempty => hfailed (isEmpty_iff.2 hempty)
    refine (triple_settleFailed world hne).weaken (fun machine h => ?_)
      (fun _ _ h => ⟨h.1, .failed h.2.1 h.2.2⟩) fun _ _ hnever => hnever
    exact (h.resolve_left fun hdone => hne hdone.failed).2

end Ends

end MangoStudio.Library.Mutation
