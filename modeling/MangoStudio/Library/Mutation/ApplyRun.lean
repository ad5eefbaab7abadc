import MangoStudio.Library.Mutation.OperationSpec

/-!
# Whole runs of an apply

The entries written so far are an undo log that leads back to the disk from
before the apply (`InProgress`), and every original is in place or copied at
every moment (`Covered`).  The loop keeps both; what it leaves when an operation
fails is `Halted`.

From that the end of a run is read off: a complete rollback leaves what was there
before, apart from a destination that a failed swap has lost.
-/

namespace MangoStudio.Library.Mutation

open Attempt List

/-! ## Where the originals are -/

/-- Each original is in place, in a sibling that keeps trees, or a copy in the set. -/
def Safe (registry : Registry) (backupId : String) (base disk : Disk) : Prop :=
  ∀ path tree, base.contents path = some tree →
    disk.contents path = some tree ∨
    (∃ suffix kind, kind ≠ SiblingKind.staging ∧
      disk.tree (.sibling path suffix kind) = some tree) ∨
    disk.Backs registry backupId path tree

/-- Each original is a copy in the set, or in place at a path that is not touched. -/
def Covered (registry : Registry) (backupId : String) (touched : String → Prop)
    (base disk : Disk) : Prop :=
  ∀ path tree, base.contents path = some tree →
    disk.Backs registry backupId path tree ∨ (¬ touched path ∧ disk.contents path = some tree)

section Covered

variable {registry : Registry} {backupId path : String} {touched : String → Prop}
variable {base start now : Disk}

theorem Covered.safe (h : Covered registry backupId touched base now) :
    Safe registry backupId base now := by
  intro path tree htree
  rcases h path tree htree with hcopy | ⟨_, hhome⟩
  · exact .inr (.inr hcopy)
  · exact .inl hhome

theorem Covered.shielded (h : Covered registry backupId touched base start)
    (hnow : Shielded registry backupId path start now) :
    Covered registry backupId touched base now := by
  intro other tree htree
  rcases h other tree htree with hbacks | ⟨htouched, hhome⟩
  · exact .inl (hbacks.framed hnow.toRetreated)
  · by_cases hother : other = path
    · subst hother
      rcases hnow.spared tree hhome with hstill | hbacks
      · exact .inr ⟨htouched, hstill⟩
      · exact .inl hbacks
    · exact .inr ⟨htouched, (hnow.resource other hother).trans hhome⟩

theorem Covered.retreated (h : Covered registry backupId touched base start)
    (hnow : Retreated backupId touched start now) : Covered registry backupId touched base now := by
  intro other tree htree
  rcases h other tree htree with hbacks | ⟨htouched, hhome⟩
  · exact .inl (hbacks.stay hnow.copy)
  · exact .inr ⟨htouched, (hnow.resource other htouched).trans hhome⟩

end Covered

/-! ## The journal of a run -/

/-- The path is one that an entry names. -/
def Touches (written : List BackupEntry) (path : String) : Prop :=
  path ∈ written.map BackupEntry.resolvedPath

/-- What the entries written so far lead back to. -/
def Disk.undone (disk : Disk) (written : List BackupEntry) : String → Option Tree :=
  UndoLog.undo BackupEntry.resolvedPath disk.copyOf written.reverse disk.contents

/-- Every disk so far is safe, the originals are covered, and the entries have their copies. -/
structure Journal (registry : Registry) (backupId : String) (base : Disk)
    (written : List BackupEntry) (machine : Machine) : Prop where
  always : machine.Always (Safe registry backupId base)
  covered : Covered registry backupId (Touches written) base machine.disk
  held : ∀ entry ∈ written, Held backupId machine.disk.copyOf machine.disk entry

section Journal

variable {registry : Registry} {backupId path : String} {base : Disk} {written : List BackupEntry}
variable {start now : Machine} {may : Step → Prop} {entry : BackupEntry}

theorem Held.self {before : BackupEntry → Option Tree} {disk : Disk}
    (h : Held backupId before disk entry) : Held backupId disk.copyOf disk entry :=
  ⟨h.present, rfl, by rw [h.copy]; exact h.named⟩

theorem Journal.held_stay (h : Journal registry backupId base written start)
    (hstay : CopiesStay backupId start.disk now.disk) :
    ∀ entry ∈ written, Held backupId start.disk.copyOf now.disk entry :=
  fun entry hentry => (h.held entry hentry).stay hstay

theorem Journal.since (h : Journal registry backupId base written start)
    (hsince : Machine.Since (Shielded registry backupId path) may start now) :
    Journal registry backupId base written now :=
  ⟨h.always.since hsince fun _ hdisk => (h.covered.shielded hdisk).safe,
    h.covered.shielded hsince.disk,
    fun entry hentry => (h.held_stay hsince.disk.copy entry hentry).self⟩

theorem touches_append {other : String} :
    Touches (written ++ [entry]) other ↔ Touches written other ∨ other = entry.resolvedPath := by
  unfold Touches
  rw [map_append, mem_append, map_singleton, mem_singleton]

section

variable (h : Journal registry backupId base written start)

include h

theorem Journal.record (hsince : Machine.Since (Shielded registry backupId path) may start now)
    (hpath : entry.resolvedPath = path)
    (hheld : Held backupId (fun _ => start.disk.contents path) now.disk entry)
    (hbacks : ∀ tree, start.disk.contents path = some tree → now.disk.Backs registry backupId path
      tree) : Journal registry backupId base (written ++ [entry]) now := by
  have hnow := h.since hsince
  refine ⟨hnow.always, fun other tree htree => ?_, fun found hfound => ?_⟩
  · rcases h.covered other tree htree with hcopy | ⟨htouched, hhome⟩
    · exact .inl (hcopy.framed hsince.disk.toRetreated)
    · by_cases hother : other = path
      · -- What the operation copied is the original.
        subst hother
        exact .inl (hbacks tree hhome)
      · refine .inr ⟨?_, (hsince.disk.resource other hother).trans hhome⟩
        rw [touches_append, hpath]
        rintro (htouch | rfl)
        · exact htouched htouch
        · exact hother rfl
  · rcases mem_append.1 hfound with hold | hnew
    · exact hnow.held found hold
    · rw [mem_singleton.1 hnew]
      exact hheld.self

theorem Journal.undone_stay (hstay : CopiesStay backupId start.disk now.disk)
    (contents : String → Option Tree) :
    UndoLog.undo BackupEntry.resolvedPath now.disk.copyOf written.reverse contents =
      UndoLog.undo BackupEntry.resolvedPath start.disk.copyOf written.reverse contents :=
  UndoLog.undo_congr (fun entry hentry =>
    (h.held_stay hstay entry (mem_reverse.1 hentry)).copy) _

theorem Journal.undone_record (hframed : Framed backupId path start.disk now.disk)
    (hpath : entry.resolvedPath = path)
    (hheld : Held backupId (fun _ => start.disk.contents path) now.disk entry) :
    now.disk.undone (written ++ [entry]) = start.disk.undone written := by
  have hbefore : now.disk.copyOf entry = start.disk.contents entry.resolvedPath := by
    rw [hpath]
    exact hheld.copy
  unfold Disk.undone
  rw [reverse_append, reverse_singleton, singleton_append,
    contents_update hframed rfl, ← hpath, UndoLog.undo_write hbefore]
  exact h.undone_stay hframed.copy _

end

end Journal

/-! ## Operations and their rows -/

section Rows

variable {α β : Type} {rel : α → β → Prop} {items : List α} {rows : List β}

theorem exists_row (h : List.Forall₂ rel items rows) {item : α} (hitem : item ∈ items) :
    ∃ row ∈ rows, rel item row := by
  induction h <;> grind

theorem exists_item (h : List.Forall₂ rel items rows) {row : β} (hrow : row ∈ rows) :
    ∃ item ∈ items, rel item row := exists_row h.flip hrow

end Rows

/-! ## The loop -/

/-- The entry that an operation leaves. -/
structure EntryFor (registry : Registry) (operation : ApplyOperation) (entry : BackupEntry) :
    Prop where
  destination : registry.destination operation.locationId operation.slug =
    .ok ⟨entry.destinationPath, entry.resolvedPath⟩
  location : entry.locationId = operation.locationId
  kind : entry.kind = operation.kind
  written : entry.writtenContentHash = operation.expectedContentHash

/-- The path holds what its entry says was written. -/
def LandedAs (world : World) (entry : BackupEntry) (content : Option Tree) : Prop :=
  ∃ tree, content = some tree ∧ world.hash entry.kind tree = .ok entry.writtenContentHash

/-- All operations so far have succeeded. -/
structure InProgress (world : World) (context : MutationContext) (base : Disk)
    (done : List ApplyOperation) (progress : World.Progress) (machine : Machine) : Prop
    extends Journal context.registry context.backupId base progress.written machine where
  undone : machine.disk.undone progress.written = base.contents
  rewinds : UndoLog.Rewinds BackupEntry.resolvedPath machine.disk.copyOf (LandedAs world)
    progress.written.reverse machine.disk.contents
  entries : List.Forall₂ (EntryFor context.registry) done progress.written
  failed : progress.failed = []
  calm : ¬ machine.Failed .swapBack
  compensated : ¬ machine.Uncompensated

/-- An operation has failed, and nothing is put back yet. -/
inductive Halted (context : MutationContext) (base : Disk) (operations : List ApplyOperation)
    (written : List BackupEntry) (machine : Machine) : Prop
  | clean (journal : Journal context.registry context.backupId base written machine)
      (undone : machine.disk.undone written = base.contents)
      (calm : ¬ machine.Failed .swapBack)
  | lost {done rest : List ApplyOperation} {operation : ApplyOperation}
      {logicalPath path suffix : String} {tree : Tree}
      (journal : Journal context.registry context.backupId base written machine)
      (position : operations = done ++ operation :: rest)
      (entries : List.Forall₂ (EntryFor context.registry) done written)
      (destination : context.registry.destination operation.locationId operation.slug =
        .ok ⟨logicalPath, path⟩)
      (undone : UndoLog.undo BackupEntry.resolvedPath machine.disk.copyOf written.reverse
        (Function.update machine.disk.contents path (some tree)) = base.contents)
      (gone : machine.disk.contents path = none)
      (aside : machine.disk.tree (.sibling path suffix .previous) = some tree)
      (failed : machine.Failed .swapBack) (compensated : ¬ machine.Uncompensated)

section Loop

variable (world : World) {context : MutationContext} {base : Disk}
variable {operations done rest : List ApplyOperation} {operation : ApplyOperation}
variable {progress : World.Progress}

theorem exists_resolvesTo (registry : Registry) (locationId slug : String) :
    ∃ path, ResolvesTo registry locationId slug path := by
  cases hdestination : registry.destination locationId slug with
  | error error => exact ⟨"", fun found hfound => nomatch hdestination.symm.trans hfound⟩
  | ok found =>
    refine ⟨found.resolvedPath, fun other hother => ?_⟩
    rw [Except.ok.inj (hdestination.symm.trans hother)]

section

variable {path : String} {start now : Machine} {may : Step → Prop}
  (h : InProgress world context base done progress start)
  (hsince : Machine.Since (Shielded context.registry context.backupId path) may start now)

include h hsince

theorem InProgress.applies {entry : BackupEntry} {row : Applied}
    (happlies : Applies world context operation path (start.disk.contents path) entry now) :
    InProgress world context base (done ++ [operation])
      { progress with
        written := progress.written ++ [entry], applied := progress.applied ++ [row] } now := by
  have hentry := happlies.entryOf
  have hframed : Framed context.backupId path start.disk now.disk := hsince.disk.toRetreated
  refine ⟨h.toJournal.record hsince hentry.resolved hentry.held hentry.backs, ?_, ?_, ?_, h.failed,
    happlies.calm, happlies.compensated⟩
  · exact (h.toJournal.undone_record hframed hentry.resolved hentry.held).trans h.undone
  · have hbefore : now.disk.copyOf entry = start.disk.contents entry.resolvedPath := by
      rw [hentry.resolved]
      exact hentry.held.copy
    rw [reverse_append, reverse_singleton, singleton_append,
      contents_update hframed rfl, ← hentry.resolved]
    refine UndoLog.rewinds_write hbefore (h.rewinds.congr fun other hother => ?_) ?_
    · exact ((h.toJournal.held_stay hframed.copy other (mem_reverse.1 hother)).copy).symm
    · obtain ⟨tree, htree, hhash⟩ := happlies.landed
      refine ⟨tree, ?_, ?_⟩
      · rw [hentry.resolved]
        exact htree
      · rw [hentry.kind, happlies.written]
        exact hhash
  · refine rel_append h.entries (.cons ⟨?_, hentry.location, hentry.kind,
      happlies.written⟩ .nil)
    rw [hentry.resolved]
    exact hentry.destination

theorem InProgress.stopped {uncompensated : Option BackupEntry}
    (hstopped : Stopped context operation path (start.disk.contents path) now uncompensated)
    (hoperations : operations = done ++ operation :: rest) :
    Halted context base operations (progress.written ++ uncompensated.toList) now := by
  have hframed : Framed context.backupId path start.disk now.disk := hsince.disk.toRetreated
  cases hstopped with
  | unwritten found =>
    have hsame : now.disk.contents = start.disk.contents := by
      rw [contents_update hframed found.home, Function.update_eq_self]
    rw [Option.toList_none, append_nil]
    refine .clean (h.toJournal.since hsince) ?_ found.calm
    unfold Disk.undone
    rw [hsame, h.toJournal.undone_stay hframed.copy]
    exact h.undone
  | lost lost compensated destination =>
    obtain ⟨suffix, tree, hcontent, haside⟩ := lost.aside
    rw [Option.toList_none, append_nil]
    refine .lost (h.toJournal.since hsince) hoperations h.entries destination ?_ lost.gone haside
      lost.failed compensated
    rw [contents_update hframed lost.gone, Function.update_idem, ← hcontent,
      Function.update_eq_self, h.toJournal.undone_stay hframed.copy]
    exact h.undone
  | uncompensated entryOf calm =>
    refine .clean (h.toJournal.record hsince entryOf.resolved entryOf.held entryOf.backs) ?_ calm
    exact (h.toJournal.undone_record hframed entryOf.resolved entryOf.held).trans h.undone

end

theorem triple_turn {ε : Type} {never : ε → Machine → Prop}
    (hoperations : operations = done ++ operation :: rest) :
    Triple (InProgress world context base done progress)
      (world.attemptOperation context progress.written.length operation)
      (Ends
        (fun outcome => InProgress world context base (done ++ [operation])
          { progress with
            written := progress.written ++ [outcome.1]
            applied := progress.applied ++ [outcome.2] })
        fun failure => Halted context base operations
          (progress.written ++ failure.uncompensated.toList)) never := by
  unfold World.attemptOperation
  cases world.interrupted progress.written.length with
  | some message =>
    refine triple_pure fun machine h => ?_
    show Halted context base operations (progress.written ++ Option.toList none) machine
    rw [Option.toList_none, append_nil]
    exact .clean h.toJournal h.undone h.calm
  | none =>
    refine Triple.of_start fun start hstart => ?_
    obtain ⟨path, hpath⟩ := exists_resolvesTo context.registry operation.locationId operation.slug
    have hsettle : Guarantee
        (Machine.Since (Shielded context.registry context.backupId path) fun _ => True)
        (fun machine => Found path (start.disk.contents path) machine ∧ ¬ machine.Uncompensated)
        (Attempt.settle (world.executeOperation context operation) : Attempt Machine ε _)
        (Ends (fun outcome => Applies world context operation path (start.disk.contents path)
            outcome.1)
          fun failure machine => Stopped context operation path (start.disk.contents path) machine
            failure.uncompensated) never :=
      guarantee_settle (guarantee_executeOperation world hpath)
    refine hsettle.triple ⟨⟨rfl, hstart.calm⟩, hstart.compensated⟩ ?_ fun _ _ _ h => h
    intro outcome now hsince hend
    cases outcome with
    | ok outcome => exact hstart.applies world hsince hend
    | error failure => exact hstart.stopped world hsince hend hoperations

theorem triple_applyLoop {ε : Type} {never : ε → Machine → Prop}
    (hoperations : operations = done ++ rest) :
    Triple (InProgress world context base done progress)
      (world.applyLoop context progress rest)
      (fun final machine => InProgress world context base operations final machine ∨
        (final.failed ≠ [] ∧ Halted context base operations final.written machine)) never := by
  induction rest generalizing done progress with
  | nil =>
    rw [append_nil] at hoperations
    subst hoperations
    exact triple_pure fun _ h => .inl h
  | cons operation rest ih =>
    refine triple_bind (triple_turn world hoperations) fun outcome => ?_
    cases outcome with
    | ok outcome =>
      refine ih ?_
      rw [hoperations, append_assoc]
      rfl
    | error failure =>
      refine triple_pure fun machine h => .inr ⟨?_, h⟩
      exact append_ne_nil_of_right_ne_nil _ (cons_ne_nil _ _)

end Loop

end MangoStudio.Library.Mutation
