import MangoStudio.Library.Mutation.Rollback

/-!
# What one operation of an apply does

An operation writes, hashes what landed, and puts the write back where the hash
is not the expected one.  It ends in one of four ways:

* it succeeds, and its entry holds what was there before (`Applies`);
* it fails and the destination is as before;
* it fails and the destination is lost, because a swap could not be renamed back;
* it fails and the write could not be put back; its entry is kept.
-/

namespace MangoStudio.Library.Mutation

open Attempt

variable (world : World) {registry : Registry} {backupId path : String} {content : Option Tree}

/-! ## Putting a write back -/

theorem guarantee_bind_retreat {ε α β : Type} {may : Step → Prop} {pre : Machine → Prop}
    {middle : α → Machine → Prop} {post : β → Machine → Prop} {fail : ε → Machine → Prop}
    {attempt : Attempt Machine ε α} {next : α → Attempt Machine ε β}
    (hfirst : Guarantee (Machine.Since (Shielded registry backupId path) may) pre attempt middle
      fail)
    (hnext : ∀ value, Guarantee (Machine.Since (Framed backupId path) may) (middle value)
      (next value) post fail)
    (hpre : ∀ machine, pre machine → machine.disk.tree (.resource path) = content)
    (hcopied : ∀ value machine, middle value machine → ∀ tree, content = some tree →
      machine.disk.Backs registry backupId path tree) :
    Guarantee (Machine.Since (Shielded registry backupId path) may) pre (attempt >>= next) post
      fail := by
  rintro start state ⟨rfl, hstart⟩
  refine triple_bind (hfirst state) (fun value middleState hmiddle => ?_) state ⟨rfl, hstart⟩
  have hretreat : ∀ now, Machine.Since (Framed backupId path) may middleState now →
      Machine.Since (Shielded registry backupId path) may state now := by
    intro now hnow
    refine hmiddle.1.append hnow (fun _ h => h) fun disk hdisk => ?_
    refine ⟨trans_of (Framed backupId path) hmiddle.1.disk.toRetreated hdisk, fun tree htree => ?_⟩
    have hbacks := hcopied value middleState hmiddle.2 tree ((hpre state hstart).symm.trans htree)
    exact .inr (hbacks.framed hdisk)
  exact ((hnext value middleState).weaken (fun _ h => h)
    (fun _ _ h => ⟨hretreat _ h.1, h.2⟩) fun _ _ h => ⟨hretreat _ h.1, h.2⟩)
    middleState ⟨rfl, hmiddle.2⟩

/-! ## Entries of an operation -/

/-- An entry for the write of an operation: it names the destination, and holds what was there. -/
structure EntryOf (registry : Registry) (backupId path : String) (content : Option Tree)
    (operation : ApplyOperation) (entry : BackupEntry) (disk : Disk) : Prop where
  destination : registry.destination operation.locationId operation.slug =
    .ok ⟨entry.destinationPath, path⟩
  resolved : entry.resolvedPath = path
  location : entry.locationId = operation.locationId
  kind : entry.kind = operation.kind
  held : Held backupId (fun _ => content) disk entry
  backs : ∀ tree, content = some tree → disk.Backs registry backupId path tree

variable {result : WriteResult}

theorem Wrote.backs {target : WriteTarget} {machine : Machine}
    (h : Wrote registry target path content result machine) {tree : Tree}
    (htree : content = some tree) : machine.disk.Backs registry target.backupId path tree :=
  ⟨target.locationId, target.slug, ⟨_, h.destination⟩, h.copied tree htree⟩

theorem Wrote.entryOf {target : WriteTarget}
    {machine : Machine} (h : Wrote registry target path content result machine)
    {operation : ApplyOperation} (hlocation : target.locationId = operation.locationId)
    (hslug : target.slug = operation.slug) (digest : String) :
    EntryOf registry target.backupId path content operation (entryFrom operation result digest)
      machine.disk := by
  refine ⟨?_, h.resolved, rfl, rfl, ⟨fun place hplace => ?_, ?_, ?_⟩, fun _ => h.backs⟩
  · rw [← hlocation, ← hslug]
    exact h.destination
  · have hnamed : content.map (fun _ => Place.copy target.backupId target.locationId target.slug) =
        some place := h.named.symm.trans hplace
    obtain ⟨_, _, hplace⟩ := Option.map_eq_some_iff.1 hnamed
    exact ⟨target.locationId, target.slug, hplace.symm⟩
  · show result.backupPath.bind machine.disk.tree = content
    rw [h.named]
    cases hcontent : content with
    | none => rfl
    | some tree => exact h.copied tree hcontent
  · show result.backupPath = none ↔ content = none
    rw [h.named, Option.map_eq_none_iff]

/-! ## The write -/

section Operation

variable {context : MutationContext} {operation : ApplyOperation}

/-- What an operation writes to. -/
abbrev ApplyOperation.target (operation : ApplyOperation) (backupId : String) : WriteTarget :=
  ⟨operation.locationId, operation.slug, backupId⟩

theorem guarantee_performWrite
    (hpath : ResolvesTo context.registry operation.locationId operation.slug path) :
    Guarantee (WithinWrite context.registry (operation.target context.backupId) path)
      (Found path content)
      (world.performWrite context operation)
      (Wrote context.registry (operation.target context.backupId) path content)
      fun _ => WriteFailed context.registry (operation.target context.backupId) path content := by
  unfold World.performWrite
  cases operation.kind with
  | directory =>
    cases operation.directory with
    | none => exact guarantee_throw fun _ h => .inl h
    | some source => exact guarantee_mapError (guarantee_writeDirectory world source hpath)
  | file =>
    cases operation.contents with
    | none => exact guarantee_throw fun _ h => .inl h
    | some contents => exact guarantee_mapError (guarantee_writeFile world contents hpath)

/-- A write that is on disk, with no call that puts an entry back failed so far. -/
structure OnDisk (context : MutationContext) (operation : ApplyOperation) (path : String)
    (content : Option Tree) (result : WriteResult) (machine : Machine) : Prop
    extends Wrote context.registry (operation.target context.backupId) path content result machine
    where
  compensated : ¬ machine.Uncompensated

theorem OnDisk.read {machine : Machine} {step : Step} {succeeded : Bool}
    (h : OnDisk context operation path content result machine) (hstep : step ≠ .swapBack)
    (hforward : step.compensates = false) :
    OnDisk context operation path content result
      (machine.next step succeeded machine.disk) := by
  refine ⟨⟨⟨h.present, calm_next h.calm hstep, h.named, h.copied⟩, h.destination, h.resolved⟩, ?_⟩
  grind [uncompensated_next, cases OnDisk]

theorem guarantee_hashAt {rel : Disk → Disk → Prop} [IsPreorder Disk rel] {may : Step → Prop}
    {step : Step} {kind : ResourceKind} {pre : Machine → Prop} (hmay : may step)
    (hkeep : ∀ machine succeeded, pre machine → pre (machine.next step succeeded machine.disk)) :
    Guarantee (Machine.Since rel may) pre (world.hashAt step path kind)
      (fun digest machine => pre machine ∧ ∃ tree,
        machine.disk.tree (.resource path) = some tree ∧ world.hash kind tree = .ok digest)
      fun _ => pre := by
  refine guarantee_read world hmay (fun machine digest h hdigest => ⟨hkeep machine true h, ?_⟩)
    fun machine _ h => hkeep machine false h
  cases htree : machine.disk.tree (.resource path) with
  | none =>
    rw [htree] at hdigest
    cases hdigest
  | some tree =>
    rw [htree] at hdigest
    exact ⟨tree, htree, hdigest⟩

/-! ## The ends of an operation -/

/-- An operation that succeeded. -/
structure Applies (context : MutationContext) (operation : ApplyOperation) (path : String)
    (content : Option Tree) (entry : BackupEntry) (machine : Machine) : Prop where
  entryOf : EntryOf context.registry context.backupId path content operation entry machine.disk
  written : entry.writtenContentHash = operation.expectedContentHash
  landed : ∃ tree, machine.disk.tree (.resource path) = some tree ∧
    world.hash operation.kind tree = .ok operation.expectedContentHash
  calm : ¬ machine.Failed .swapBack
  compensated : ¬ machine.Uncompensated

/-- An operation that failed. -/
inductive Stopped (context : MutationContext) (operation : ApplyOperation) (path : String)
    (content : Option Tree) (machine : Machine) : Option BackupEntry → Prop
  | unwritten (found : Found path content machine) :
    Stopped context operation path content machine none
  | lost {logicalPath : String} (lost : Lost path content machine)
      (compensated : ¬ machine.Uncompensated)
      (destination : context.registry.destination operation.locationId operation.slug =
        .ok ⟨logicalPath, path⟩) :
    Stopped context operation path content machine none
  | uncompensated {entry : BackupEntry} (entryOf : EntryOf context.registry context.backupId path
      content operation entry machine.disk) (calm : ¬ machine.Failed .swapBack) :
    Stopped context operation path content machine (some entry)

theorem guarantee_observedDigest {error : OpError}
    {rel : Disk → Disk → Prop} [IsPreorder Disk rel] {never : OpFailure → Machine → Prop} :
    Guarantee (Machine.Since rel fun _ => True) (OnDisk context operation path content result)
      (world.observedDigest operation result error)
      (fun _ => OnDisk context operation path content result) never := by
  have hobserve : Guarantee (Machine.Since rel fun _ => True)
      (OnDisk context operation path content result)
      (do
        let digest ← Attempt.settle
          (world.hashAt .observe result.resolvedDestinationPath operation.kind)
        return digest.toOption.getD "")
      (fun _ => OnDisk context operation path content result) never := by
    refine guarantee_bind (guarantee_settle
      (guarantee_hashAt world trivial fun _ _ h => h.read nofun rfl)) fun digest => ?_
    refine guarantee_pure fun machine h => ?_
    cases digest with
    | ok _ => exact h.1
    | error _ => exact h
  unfold World.observedDigest
  split
  · split_ifs
    · exact guarantee_pure fun _ h => h
    · exact hobserve
  · exact hobserve

theorem guarantee_retreat {error : OpError}
    {post : BackupEntry × Applied → Machine → Prop} :
    Guarantee (Machine.Since (Framed context.backupId path) fun _ => True)
      (OnDisk context operation path content result) (world.retreat operation result error) post
      fun failure machine =>
        Stopped context operation path content machine failure.uncompensated := by
  refine guarantee_bind (guarantee_observedDigest world) fun observed => ?_
  refine Guarantee.of_start fun start hstart => ?_
  have hentry : EntryOf context.registry context.backupId path content operation
      (entryFrom operation result observed) start.disk := hstart.toWrote.entryOf rfl rfl observed
  have hrollback : Guarantee (Machine.Since (Framed context.backupId path) fun _ => True)
      (fun machine => machine = start)
      (world.rollback [entryFrom operation result observed] : Attempt Machine OpFailure Bool)
      (fun complete machine => Stopped context operation path content machine
        (if complete then none else some (entryFrom operation result observed)))
      fun _ _ => False := by
    refine (@guarantee_rollback world context.backupId (fun _ => content) False
      start.disk.contents (fun other => other = path) [entryFrom operation result observed]
      OpFailure (fun _ _ => False) ?_).deduce ?_ ?_ ?_ fun _ _ _ _ _ h => h
    · exact fun entry hmem => List.mem_singleton.1 hmem ▸ hentry.resolved
    · rintro machine rfl
      exact ⟨fun entry hmem => List.mem_singleton.1 hmem ▸ hentry.held, rfl, hstart.compensated⟩
    · exact fun _ _ h => h.mono (fun _ _ hframed => hframed) fun _ _ => trivial
    · rintro machine complete now rfl hsince hend
      have hcalm : ¬ now.Failed .swapBack := fun hfailed =>
        hstart.calm (hsince.failed_before (by simp [Step.Backward, Step.compensates]) hfailed)
      cases complete with
      | true =>
        refine .unwritten ⟨?_, hcalm⟩
        have hcontents : now.disk.contents path = content := by
          rw [if_pos rfl] at hend
          rw [hend.1]
          show Function.update machine.disk.contents
            (entryFrom operation result observed).resolvedPath content path = content
          rw [hentry.resolved, Function.update_self]
        exact hcontents
      | false =>
        refine .uncompensated ⟨hentry.destination, hentry.resolved, rfl, rfl,
          hentry.held.stay hsince.disk.copy, fun tree htree => ?_⟩ hcalm
        exact (hentry.backs tree htree).framed hsince.disk
  refine guarantee_bind (hrollback.fail_mono fun _ _ h => h.elim) fun rolledBack => ?_
  exact guarantee_throw fun _ h => h

theorem judge_ok {digest : Except HashError String} {contentHash : String}
    (h : World.judge operation result digest = .ok contentHash) :
    digest = .ok contentHash ∧ contentHash = operation.expectedContentHash := by
  unfold World.judge at h
  grind

theorem guarantee_executeOperation
    (hpath : ResolvesTo context.registry operation.locationId operation.slug path) :
    Guarantee (Machine.Since (Shielded context.registry context.backupId path) fun _ => True)
      (fun machine => Found path content machine ∧ ¬ machine.Uncompensated)
      (world.executeOperation context operation)
      (fun outcome => Applies world context operation path content outcome.1)
      fun failure machine =>
        Stopped context operation path content machine failure.uncompensated := by
  refine guarantee_andThen (guarantee_mapError (guarantee_ofExcept (fun _ _ h _ => h)
    fun _ _ h _ => .unwritten h.1)) fun _ => ?_
  have hwrite : Guarantee
      (Machine.Since (Shielded context.registry context.backupId path) fun _ => True)
      (fun machine => Found path content machine ∧ ¬ machine.Uncompensated)
      (Attempt.mapError (fun error => OpFailure.mk error none)
        (world.performWrite context operation))
      (OnDisk context operation path content)
      fun failure machine =>
        Stopped context operation path content machine failure.uncompensated := by
    refine guarantee_mapError ((guarantee_performWrite world hpath).deduce (fun _ h => h.1)
      (fun _ _ h => h.mono (fun _ _ hrel => hrel) fun _ _ => trivial) ?_ ?_)
    · exact fun _ _ _ hstart hsince hwrote => ⟨hwrote, hsince.compensated hstart.2⟩
    · rintro _ _ _ hstart hsince (hfound | ⟨hlost, logicalPath, hdestination⟩)
      · exact .unwritten hfound
      · exact .lost hlost (hsince.compensated hstart.2) hdestination
  refine guarantee_bind_retreat hwrite (fun result => ?_) (fun _ h => h.1.home)
    fun result machine h tree htree => h.backs htree
  refine Guarantee.of_fact (fun _ h => h.resolved) fun hresolved => ?_
  refine guarantee_bind (guarantee_settle
    (guarantee_hashAt world trivial fun _ _ h => h.read nofun rfl)) fun digest => ?_
  cases hjudge : World.judge operation result digest with
  | error error =>
    refine Guarantee.pre_mono (guarantee_retreat world) fun machine h => ?_
    cases digest with
    | ok _ => exact h.1
    | error _ => exact h
  | ok contentHash =>
    obtain ⟨rfl, rfl⟩ := judge_ok hjudge
    refine guarantee_pure fun machine h => ?_
    obtain ⟨hdisk, tree, htree, hhash⟩ := h
    refine ⟨hdisk.toWrote.entryOf rfl rfl _, rfl, ⟨tree, ?_, hhash⟩, hdisk.calm, hdisk.compensated⟩
    rw [← hresolved]
    exact htree

end Operation

end MangoStudio.Library.Mutation
