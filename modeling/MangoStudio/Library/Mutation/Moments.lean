import MangoStudio.Lib.Guarantee
import MangoStudio.Library.Mutation.Undo

/-!
# What a mutation does to the disk at each moment

`Machine.Since rel may` relates two machines of one run: every disk from the one
to the other is related by `rel` to the first, and the calls that failed in
between are ones that may fail.  It is the relation that the specifications of
the engine's functions guarantee.

A mutation of one destination leaves the others alone (`Framed`): it changes the
resource and its siblings, adds copies to its own set, and evicts other sets.
Up to the point where the write is done it also keeps the tree that it found,
in place or as a copy (`Shielded`).
-/

namespace MangoStudio.Library.Mutation

open Attempt

/-! ## From one state of a run to a later one -/

namespace Machine

/-- Every disk so far is safe. -/
def Always (safe : Disk → Prop) (machine : Machine) : Prop :=
  safe machine.disk ∧ ∀ disk ∈ machine.past, safe disk

/-- A call for this purpose has failed. -/
def Failed (machine : Machine) (step : Step) : Prop := (step, false) ∈ machine.log

structure Since (rel : Disk → Disk → Prop) (may : Step → Prop) (start now : Machine) : Prop where
  disk : rel start.disk now.disk
  past : ∃ new, now.past = new ++ start.past ∧ ∀ disk ∈ new, rel start.disk disk
  log : ∃ calls, now.log = start.log ++ calls ∧ ∀ call ∈ calls, call.2 = false → may call.1

variable {rel rel' : Disk → Disk → Prop} {may may' : Step → Prop} {start middle now : Machine}

theorem Since.mono (h : Since rel may start now)
    (hrel : ∀ disk disk', rel disk disk' → rel' disk disk')
    (hmay : ∀ step, may step → may' step) : Since rel' may' start now := by
  obtain ⟨hdisk, ⟨new, hpast, hnew⟩, ⟨calls, hlog, hcalls⟩⟩ := h
  exact ⟨hrel _ _ hdisk, ⟨new, hpast, fun disk hmem => hrel _ _ (hnew disk hmem)⟩,
    ⟨calls, hlog, fun call hmem hfailed => hmay _ (hcalls call hmem hfailed)⟩⟩

theorem Since.append {later : Disk → Disk → Prop} (hfirst : Since rel may start middle)
    (hsecond : Since later may middle now)
    (hbefore : ∀ disk, rel start.disk disk → rel' start.disk disk)
    (hafter : ∀ disk, later middle.disk disk → rel' start.disk disk) :
    Since rel' may start now := by
  obtain ⟨_, ⟨new, hpast, hnew⟩, ⟨calls, hlog, hcalls⟩⟩ := hfirst
  obtain ⟨hdisk, ⟨new', hpast', hnew'⟩, ⟨calls', hlog', hcalls'⟩⟩ := hsecond
  refine ⟨hafter _ hdisk, ⟨new' ++ new, ?_, fun disk hmem => ?_⟩,
    ⟨calls ++ calls', ?_, fun call hmem => ?_⟩⟩
  all_goals grind

instance [IsPreorder Disk rel] : IsPreorder Machine (Since rel may) where
  refl _ := ⟨refl_of rel _, ⟨[], rfl, nofun⟩, ⟨[], (List.append_nil _).symm, nofun⟩⟩
  trans _ _ _ hfirst hsecond :=
    hfirst.append hsecond (fun _ h => h) fun _ h => trans_of rel hfirst.disk h

variable {step : Step}

theorem Since.failed (h : Since rel may start now) (hfailed : start.Failed step) :
    now.Failed step := by
  obtain ⟨calls, hlog, _⟩ := h.log
  show (step, false) ∈ now.log
  rw [hlog]
  exact List.mem_append_left _ hfailed

theorem Since.failed_before (h : Since rel may start now) (hstep : ¬ may step)
    (hfailed : now.Failed step) : start.Failed step := by
  obtain ⟨calls, hlog, hcalls⟩ := h.log
  have hmem : (step, false) ∈ start.log ++ calls := hlog ▸ hfailed
  rcases List.mem_append.1 hmem with hmem | hmem
  · exact hmem
  · exact absurd (hcalls _ hmem rfl) hstep

theorem Always.since {safe : Disk → Prop} (h : start.Always safe) (hsince : Since rel may start now)
    (hsafe : ∀ disk, rel start.disk disk → safe disk) : now.Always safe := by
  obtain ⟨new, hpast, hnew⟩ := hsince.past
  refine ⟨hsafe _ hsince.disk, fun disk hmem => ?_⟩
  rw [hpast] at hmem
  rcases List.mem_append.1 hmem with hmem | hmem
  · exact hsafe disk (hnew disk hmem)
  · exact h.2 disk hmem

theorem since_next [IsPreorder Disk rel] {succeeded : Bool} {disk : Disk}
    (hdisk : rel start.disk disk) (hmay : succeeded = false → may step) :
    Since rel may start (start.next step succeeded disk) := by
  refine ⟨hdisk, ⟨[start.disk], rfl, fun other hother => ?_⟩,
    ⟨[(step, succeeded)], rfl, fun call hcall hfailed => ?_⟩⟩
  · rw [List.mem_singleton.1 hother]
    exact refl_of rel _
  · rw [List.mem_singleton.1 hcall] at hfailed ⊢
    exact hmay hfailed

theorem failed_next {step other : Step} {succeeded : Bool} {disk : Disk} :
    (start.next step succeeded disk).Failed other ↔
      start.Failed other ∨ (step = other ∧ succeeded = false) := by
  show (other, false) ∈ start.log ++ [(step, succeeded)] ↔ _
  rw [List.mem_append, List.mem_singleton, Prod.mk.injEq, eq_comm, @eq_comm _ false]
  rfl

end Machine

/-- The relation that says nothing, for parts of a run whose effect is stated as a whole. -/
def AnyChange (_ _ : Disk) : Prop := True

instance : IsPreorder Disk AnyChange where
  refl _ := trivial
  trans _ _ _ _ _ := trivial

/-! ## Calls -/

section Calls

variable (world : World) {ε α : Type} {rel : Disk → Disk → Prop} {may : Step → Prop}
variable [IsPreorder Disk rel] {step : Step} {failed : String → ε}
variable {pre : Machine → Prop} {post : α → Machine → Prop} {fail : ε → Machine → Prop}

theorem guarantee_call {effect : Disk → Except ε (α × Disk)} {debris : Failure → Disk → Disk}
    (hmay : may step)
    (hok : ∀ machine value disk, pre machine → effect machine.disk = .ok (value, disk) →
      rel machine.disk disk ∧ post value (machine.next step true disk))
    (hrefused : ∀ machine error, pre machine → effect machine.disk = .error error →
      fail error (machine.next step false machine.disk))
    (hfailed : ∀ machine failure, pre machine → rel machine.disk (debris failure machine.disk) ∧
      fail (failed failure.message) (machine.next step false (debris failure machine.disk))) :
    Guarantee (Machine.Since rel may) pre (world.call step failed effect debris) post fail := by
  intro start
  refine triple_act ?_ ?_
  · grind [Machine.since_next]
  · rintro machine error ⟨rfl, hpre⟩ herror
    cases horacle : world.oracle machine.log.length with
    | some failure =>
      grind [Machine.since_next]
    | none =>
      rw [horacle] at herror
      simp only at herror ⊢
      cases heffect : effect machine.disk with
      | error other =>
        rw [heffect] at herror
        obtain rfl : other = error := Except.error.inj herror
        exact ⟨Machine.since_next (refl_of rel _) fun _ => hmay,
          hrefused machine other hpre heffect⟩
      | ok found =>
        rw [heffect] at herror
        cases herror

theorem guarantee_read {answer : Disk → Except ε α} (hmay : may step)
    (hok : ∀ machine value, pre machine → answer machine.disk = .ok value →
      post value (machine.next step true machine.disk))
    (hfail : ∀ machine error, pre machine → fail error (machine.next step false machine.disk)) :
    Guarantee (Machine.Since rel may) pre (world.read step failed answer) post fail := by
  refine guarantee_call world hmay ?_ ?_ ?_
  · intro machine value disk hpre heffect
    cases hanswer : answer machine.disk with
    | error error =>
      rw [hanswer] at heffect
      cases heffect
    | ok found =>
      rw [hanswer] at heffect
      obtain ⟨rfl, rfl⟩ : found = value ∧ machine.disk = disk :=
        Prod.mk.inj (Except.ok.inj heffect)
      exact ⟨refl_of rel _, hok machine found hpre hanswer⟩
  · exact fun machine error hpre _ => hfail machine error hpre
  · exact fun machine failure hpre => ⟨refl_of rel _, hfail machine _ hpre⟩

variable {fail : String → Machine → Prop} {post : Unit → Machine → Prop}

theorem guarantee_copyTree {source destination : Place} (hmay : may step)
    (hok : ∀ machine tree, pre machine → machine.disk.tree source = some tree →
      machine.disk.tree destination = none →
      rel machine.disk (machine.disk.put destination (some tree)) ∧
        post () (machine.next step true (machine.disk.put destination (some tree))))
    (hfail : ∀ machine error, pre machine → fail error (machine.next step false machine.disk))
    (hdebris : ∀ machine error left, pre machine → machine.disk.tree destination = none →
      rel machine.disk (machine.disk.put destination left) ∧
        fail error (machine.next step false (machine.disk.put destination left))) :
    Guarantee (Machine.Since rel may) pre (world.copyTree step source destination) post fail := by
  refine guarantee_call world hmay ?_ (fun machine error hpre _ => hfail machine error hpre) ?_
  · intro machine value disk hpre heffect
    cases hsource : machine.disk.tree source with
    | none =>
      rw [hsource] at heffect
      cases heffect
    | some tree =>
      rw [hsource] at heffect
      simp only at heffect
      cases hdestination : machine.disk.tree destination <;> grind
  · intro machine failure hpre
    split_ifs with hthere
    · exact ⟨refl_of rel _, hfail machine _ hpre⟩
    · exact hdebris machine _ _ hpre (Option.not_isSome_iff_eq_none.1 hthere)

theorem guarantee_rename {source destination : Place} (hmay : may step)
    (hok : ∀ machine tree, pre machine → machine.disk.tree source = some tree →
      rel machine.disk ((machine.disk.put source none).put destination (some tree)) ∧
        post () (machine.next step true
          ((machine.disk.put source none).put destination (some tree))))
    (hfail : ∀ machine error, pre machine → fail error (machine.next step false machine.disk)) :
    Guarantee (Machine.Since rel may) pre (world.rename step source destination) post fail := by
  refine guarantee_call world hmay ?_ (fun machine error hpre _ => hfail machine error hpre)
    fun machine failure hpre => ⟨refl_of rel _, hfail machine _ hpre⟩
  grind

theorem guarantee_removeAll {place : Place} (hmay : may step)
    (hok : ∀ machine, pre machine → rel machine.disk (machine.disk.put place none) ∧
      post () (machine.next step true (machine.disk.put place none)))
    (hfail : ∀ machine error, pre machine → fail error (machine.next step false machine.disk))
    (hdebris : ∀ machine error left, pre machine → rel machine.disk (machine.disk.put place left) ∧
      fail error (machine.next step false (machine.disk.put place left))) :
    Guarantee (Machine.Since rel may) pre (world.removeAll step place) post fail := by
  refine guarantee_call world hmay ?_ (fun machine error hpre _ => hfail machine error hpre) ?_
  · intro machine value disk hpre heffect
    obtain rfl := (Prod.mk.inj (Except.ok.inj heffect)).2
    exact hok machine hpre
  · intro machine failure hpre
    split_ifs with hthere
    · exact hdebris machine _ _ hpre
    · exact ⟨refl_of rel _, hfail machine _ hpre⟩

theorem guarantee_removeSet {backupId : String} (hmay : may step)
    (hok : ∀ machine copies manifest, pre machine →
      rel machine.disk (machine.disk.putSet backupId copies manifest) ∧
        post () (machine.next step true (machine.disk.putSet backupId copies manifest)))
    (hfail : ∀ machine error copies manifest, pre machine →
      rel machine.disk (machine.disk.putSet backupId copies manifest) ∧
        fail error (machine.next step false (machine.disk.putSet backupId copies manifest))) :
    Guarantee (Machine.Since rel may) pre (world.removeSet step backupId) post fail := by
  refine guarantee_call world hmay ?_ ?_ fun machine failure hpre => hfail machine _ _ _ hpre
  · grind
  · exact fun machine error _ heffect => nomatch heffect

end Calls

/-! ## The frame of one destination -/

/-- The places of the resource at a path: itself and its siblings. -/
def Place.At (path : String) : Place → Prop
  | .resource other => other = path
  | .sibling other _ _ => other = path
  | .copy _ _ _ => False

/-- Copies of the set that are there stay. -/
def CopiesStay (backupId : String) (start now : Disk) : Prop :=
  ∀ locationId slug tree, start.tree (.copy backupId locationId slug) = some tree →
    now.tree (.copy backupId locationId slug) = some tree

/-- Only the places of the touched resources change, and the copies of the set stay. -/
structure Retreated (backupId : String) (touched : String → Prop) (start now : Disk) : Prop where
  resource : ∀ other, ¬ touched other → now.tree (.resource other) = start.tree (.resource other)
  sibling : ∀ other suffix kind, ¬ touched other →
    now.tree (.sibling other suffix kind) = start.tree (.sibling other suffix kind)
  copy : CopiesStay backupId start now
  manifest : now.manifest backupId = start.manifest backupId

/-- Only the places of one resource change, and the set of the mutation only grows. -/
abbrev Framed (backupId path : String) : Disk → Disk → Prop :=
  Retreated backupId fun other => other = path

/-- The location and the slug have the path as their destination. -/
def Registry.LeadsTo (registry : Registry) (locationId slug path : String) : Prop :=
  ∃ logicalPath, registry.destination locationId slug = .ok ⟨logicalPath, path⟩

/-- The set has a copy of the tree under a name that leads to the path. -/
def Disk.Backs (disk : Disk) (registry : Registry) (backupId path : String) (tree : Tree) : Prop :=
  ∃ locationId slug, registry.LeadsTo locationId slug path ∧
    disk.tree (.copy backupId locationId slug) = some tree

/-- The tree that a path held is still there, or there is a copy of it in the set. -/
def Spared (registry : Registry) (backupId path : String) (start now : Disk) : Prop :=
  ∀ tree, start.tree (.resource path) = some tree →
    now.tree (.resource path) = some tree ∨ now.Backs registry backupId path tree

structure Shielded (registry : Registry) (backupId path : String) (start now : Disk) : Prop
    extends Framed backupId path start now where
  spared : Spared registry backupId path start now

section Frame

variable {registry : Registry} {backupId path : String}

variable {start now : Disk}

theorem Disk.Backs.stay {tree : Tree} (h : start.Backs registry backupId path tree)
    (hstay : CopiesStay backupId start now) : now.Backs registry backupId path tree := by
  obtain ⟨locationId, slug, hleads, hcopy⟩ := h
  exact ⟨locationId, slug, hleads, hstay locationId slug tree hcopy⟩

theorem Disk.Backs.framed {tree : Tree} {other : String}
    (h : start.Backs registry backupId path tree) (hframed : Framed backupId other start now) :
    now.Backs registry backupId path tree := h.stay hframed.copy

instance {touched : String → Prop} : IsPreorder Disk (Retreated backupId touched) where
  refl _ := ⟨fun _ _ => rfl, fun _ _ _ _ => rfl, fun _ _ _ h => h, rfl⟩
  trans _ _ _ hfirst hsecond :=
    ⟨fun other hother => (hsecond.resource other hother).trans (hfirst.resource other hother),
      fun other suffix kind hother => (hsecond.sibling other suffix kind hother).trans
        (hfirst.sibling other suffix kind hother),
      fun locationId slug tree h => hsecond.copy locationId slug tree
        (hfirst.copy locationId slug tree h),
      hsecond.manifest.trans hfirst.manifest⟩

theorem Framed.retreated {touched : String → Prop} {start now : Disk}
    (h : Framed backupId path start now) (hpath : touched path) :
    Retreated backupId touched start now := by
  have hne : ∀ other, ¬ touched other → ¬ other = path := fun _ hother heq =>
    hother (heq ▸ hpath)
  exact ⟨fun other hother => h.resource other (hne other hother), fun other suffix kind hother =>
    h.sibling other suffix kind (hne other hother), h.copy, h.manifest⟩

instance : IsPreorder Disk (Shielded registry backupId path) where
  refl disk := ⟨refl_of (Framed backupId path) disk, fun _ h => .inl h⟩
  trans _ _ _ hfirst hsecond := by
    refine ⟨trans_of (Framed backupId path) hfirst.toRetreated hsecond.toRetreated, fun tree h => ?_⟩
    rcases hfirst.spared tree h with hhome | hbacks
    · exact hsecond.spared tree hhome
    · exact .inr (hbacks.framed hsecond.toRetreated)

theorem framed_put {disk : Disk} {place : Place} {tree : Option Tree}
    (h : place.At path ∨
      disk.tree place = none ∧ ∃ locationId slug, place = .copy backupId locationId slug) :
    Framed backupId path disk (disk.put place tree) := by
  have hoff : ∀ other : Place, ¬ other.At path →
      (∀ locationId slug, other ≠ .copy backupId locationId slug) → other ≠ place := by
    rintro other hat hcopy rfl
    rcases h with h | ⟨_, locationId, slug, h⟩
    · exact hat h
    · exact hcopy locationId slug h
  refine ⟨fun other hother => Disk.put_of_ne _ _ (hoff _ hother nofun),
    fun other suffix kind hother => Disk.put_of_ne _ _ (hoff _ hother nofun),
    fun locationId slug found hfound => ?_, rfl⟩
  rw [Disk.put_of_ne _ _ ?_]
  · exact hfound
  · rintro rfl
    rcases h with h | ⟨hnone, _⟩
    · exact h
    · rw [hnone] at hfound
      cases hfound

theorem Framed.shielded (h : Framed backupId path start now)
    (hresource : now.tree (.resource path) = start.tree (.resource path)) :
    Shielded registry backupId path start now :=
  ⟨h, fun _ htree => .inl (hresource.trans htree)⟩

theorem Framed.shielded_of_copy (h : Framed backupId path start now)
    (hcopy : ∀ tree, start.tree (.resource path) = some tree →
      start.Backs registry backupId path tree) :
    Shielded registry backupId path start now :=
  ⟨h, fun tree htree => .inr ((hcopy tree htree).framed h)⟩

end Frame

end MangoStudio.Library.Mutation
