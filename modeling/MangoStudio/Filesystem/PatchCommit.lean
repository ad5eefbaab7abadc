import MangoStudio.Filesystem.PatchPlan

/-!
# The commit of a patch

What the three phases of the commit do to the files, when they come to an end
and when they stop in between.

* Each step of an operation is local on the paths of the operation, and no path
  belongs to two operations.  So the phases give what the operations give one
  after the other (`foldl_commitEffect`).
* `Reported` is the invariant of the paths that a failure reports: they are
  those that differ from the files before the call, up to an update that wrote
  the bytes that were there.
-/

namespace MangoStudio.Filesystem

open List Function Except

variable {μ η : Type}

/-! ## Operations one by one -/

section Execute

variable (applyUpdateHunks : String → List η → String → Except String AppliedUpdate)

/-- An operation on its own, on the files that it finds. -/
def PatchOperation.execute (operation : PatchOperation η) (files : Files AbsolutePath) :
    Option (Files AbsolutePath) :=
  match operation with
  | .add _ path content =>
    if files path = none then some (Function.update files path (some (textBytes content)))
    else none
  | .delete _ path =>
    if files path = none then none else some (Function.update files path none)
  | .update inputPath path _ resolvedMoveTo hunks =>
    match files path with
    | none => none
    | some source =>
      match patchedText applyUpdateHunks inputPath hunks source with
      | .error _ => none
      | .ok applied =>
        let content := if hunks.isEmpty then source else textBytes applied.content
        match resolvedMoveTo with
        | none => some (Function.update files path (some content))
        | some destination =>
          if files destination = none then
            some (Function.update (Function.update files path none) destination (some content))
          else none

/-- The operations in listed order. -/
def executeAll : List (PatchOperation η) → Files AbsolutePath → Option (Files AbsolutePath)
  | [], files => some files
  | operation :: rest, files =>
    (operation.execute applyUpdateHunks files).bind (executeAll rest)

end Execute

/-! ## Effects -/

def writeEffect (operation : PlannedOperation) (files : Files AbsolutePath) :
    Files AbsolutePath :=
  match operation with
  | .add _ path content | .update _ path _ _ _ content true _ =>
    Function.update files path (some (textBytes content))
  | _ => files

def moveEffect (operation : PlannedOperation) (files : Files AbsolutePath) :
    Files AbsolutePath :=
  match operation with
  | .update _ path _ (some destination) _ _ _ _ =>
    Function.update (Function.update files path none) destination (files path)
  | _ => files

def deleteEffect (operation : PlannedOperation) (files : Files AbsolutePath) :
    Files AbsolutePath :=
  match operation with
  | .delete _ path _ => Function.update files path none
  | _ => files

/-- The paths of an operation. -/
def owns (operation : PlannedOperation) : Set AbsolutePath :=
  {path | path ∈ operationPaths operation}

theorem localOn_update {path : AbsolutePath} {s : Set AbsolutePath} (hpath : path ∈ s)
    (content : Option Bytes) :
    Footprint.LocalOn (fun files : Files AbsolutePath => update files path content) s := by
  constructor
  all_goals grind

section

variable (operation : PlannedOperation)

theorem primaryPath_mem_owns : operation.primaryPath ∈ owns operation := by
  unfold owns operationPaths
  split
  · exact mem_cons_self
  · exact mem_singleton_self _

theorem localOn_writeEffect : Footprint.LocalOn (writeEffect operation) (owns operation) := by
  have hpath := primaryPath_mem_owns operation
  unfold writeEffect
  split
  · exact localOn_update hpath _
  · exact localOn_update hpath _
  · exact Footprint.localOn_id _

theorem localOn_moveEffect : Footprint.LocalOn (moveEffect operation) (owns operation) := by
  unfold moveEffect
  split
  · rename_i inputPath path moveTo destination source content changes valid
    have hpath : path ∈ owns (.update inputPath path moveTo (some destination) source content
        changes valid) := mem_cons_self
    have hdestination : destination ∈ owns (.update inputPath path moveTo (some destination) source
        content changes valid) := mem_cons_of_mem _ mem_cons_self
    constructor
    · grind
    · intro files others hsame other hother
      rw [update_apply, update_apply, hsame path hpath, update_apply,
        update_apply, hsame other hother]
  · exact Footprint.localOn_id _

theorem localOn_deleteEffect : Footprint.LocalOn (deleteEffect operation) (owns operation) := by
  have hpath := primaryPath_mem_owns operation
  unfold deleteEffect
  split
  · exact localOn_update hpath _
  · exact Footprint.localOn_id _

end

/-! ## Steps -/

section Steps

variable (start : Files AbsolutePath) (rewritten : AbsolutePath → Prop)

/-- The reported paths are those that differ from the files before the call, up
to rewritten ones. -/
structure Reported (progress : Progress) : Prop where
  complete : ∀ path, progress.files path ≠ start path → path ∈ progress.changedPaths
  sound : ∀ path ∈ progress.changedPaths, progress.files path ≠ start path ∨ rewritten path

/-- What the steps of a phase have to do with an effect on the files. -/
structure ActionSound {α : Type} (effect : Files AbsolutePath → Files AbsolutePath)
    (post : Files AbsolutePath → Option α → Prop) (action : Option (Action α)) : Prop where
  skip : action = none → ∀ files, effect files = files ∧ post files none
  step : ∀ taken, action = some taken → ∀ files after value,
    taken.run files = .ok (after, value) → after = effect files ∧ post files (some value) ∧
      (∀ path, path ∉ taken.touched → after path = files path) ∧
      ∀ path ∈ taken.touched, after path ≠ start path ∨ rewritten path
  clean : ∀ taken, action = some taken → ∀ files error,
    taken.run files = .error error → taken.uncertain error = []

variable {start rewritten}

variable {effect : Files AbsolutePath → Files AbsolutePath} {α : Type}
  {post : Files AbsolutePath → Option α → Prop}

theorem actionSound_none (h : ∀ files, effect files = files ∧ post files none) :
    ActionSound start rewritten effect post none :=
  ⟨fun _ => h, fun _ htaken => (nomatch htaken), fun _ htaken => (nomatch htaken)⟩

theorem actionSound_some {taken : Action α}
    (hstep : ∀ files after value, taken.run files = .ok (after, value) → after = effect files ∧
      post files (some value) ∧ (∀ path, path ∉ taken.touched → after path = files path) ∧ ∀ path ∈
      taken.touched, after path ≠ start path ∨ rewritten path)
    (hclean : ∀ files error, taken.run files = .error error → taken.uncertain error = []) :
    ActionSound start rewritten effect post (some taken) := by
  refine ⟨fun hnone => (nomatch hnone), fun other hother => ?_, fun other hother => ?_⟩
  · obtain rfl := Option.some.inj hother
    exact hstep
  · obtain rfl := Option.some.inj hother
    exact hclean

theorem Reported.step {progress : Progress} (h : Reported start rewritten progress)
    {after : Files AbsolutePath} {touched : List AbsolutePath}
    (hframe : ∀ path, path ∉ touched → after path = progress.files path)
    (htouched : ∀ path ∈ touched, after path ≠ start path ∨ rewritten path) :
    Reported start rewritten ⟨after, progress.changedPaths ++ touched⟩ := by
  constructor
  · grind [cases Reported]
  · intro path hpath
    by_cases hown : path ∈ touched
    · exact htouched path hown
    · rcases mem_append.mp hpath with hold | hnew
      · show after path ≠ start path ∨ rewritten path
        rw [hframe path hown]
        exact h.sound path hold
      · exact absurd hnew hown

theorem triple_commitStep {action : Option (Action α)}
    (h : ActionSound start rewritten effect post action) (files : Files AbsolutePath) :
    Attempt.Triple (fun progress => progress.files = files ∧ Reported start rewritten progress)
      (commitStep action) (fun value progress => (progress.files = effect files ∧
        Reported start rewritten progress) ∧ post files value)
      fun _ progress => Reported start rewritten progress := by
  cases action with
  | none =>
    obtain ⟨hsame, hpost⟩ := h.skip rfl files
    refine Attempt.triple_pure fun progress hprogress => ⟨⟨?_, hprogress.2⟩, hpost⟩
    rw [hsame]
    exact hprogress.1
  | some taken =>
    refine Attempt.triple_act ?_ ?_
    · intro progress value ⟨hfiles, hreported⟩ hok
      cases hrun : taken.run progress.files with
      | error error =>
        simp only [hrun] at hok
        cases hok
      | ok result =>
        obtain ⟨after, found⟩ := result
        simp only [hrun] at hok ⊢
        obtain ⟨heffect, hpost, hframe, htouched⟩ := h.step taken rfl _ _ _ hrun
        grind [Reported.step]
    · intro progress error ⟨_, hreported⟩ herror
      cases hrun : taken.run progress.files with
      | ok result =>
        simp only [hrun] at herror
        cases herror
      | error cause =>
        simp only [h.clean taken rfl _ _ hrun, append_nil]
        exact hreported

theorem triple_phase {effect : PlannedOperation → Files AbsolutePath → Files AbsolutePath}
    {action : CommitItem μ → Option (Action α)}
    {post : PlannedOperation → Files AbsolutePath → Option α → Prop} {items : List (CommitItem μ)}
    (hlocal : ∀ operation, Footprint.LocalOn (effect operation) (owns operation))
    (hdisjoint : items.Pairwise fun item other =>
      Disjoint (owns item.operation) (owns other.operation)) (hsound : ∀ item ∈ items,
      ActionSound start rewritten (effect item.operation) (post item.operation) (action item))
    (hpost : ∀ operation files other value, (∀ path ∈ owns operation, files path = other path) →
      post operation files value → post operation other value) (files : Files AbsolutePath) :
    Attempt.Triple (fun progress => progress.files = files ∧ Reported start rewritten progress)
      (items.mapM fun item => commitStep (action item)) (fun values progress =>
        (progress.files = items.foldl (fun files item => effect item.operation files) files ∧
          Reported start rewritten progress) ∧
        List.Forall₂ (fun item value => post item.operation files value) items values)
      fun _ progress => Reported start rewritten progress := by
  refine (Attempt.triple_mapM
    (fun done values progress =>
      (progress.files = done.foldl (fun files item => effect item.operation files) files ∧
        Reported start rewritten progress) ∧
      List.Forall₂ (fun item value => post item.operation files value) done values)
    ?_).weaken (fun _ hprogress => ⟨hprogress, .nil⟩) (fun _ _ hend => hend) fun _ _ hend => hend
  intro done item rest values hitems progress ⟨hprogress, hvalues⟩
  have hmem : item ∈ items := by
    rw [hitems]
    exact mem_append_right _ mem_cons_self
  refine ((triple_commitStep (hsound item hmem) _).weaken (fun _ hprogress => hprogress) ?_
    fun _ _ hend => hend) progress hprogress
  intro value after ⟨⟨hfiles, hreported⟩, hvalue⟩
  refine ⟨⟨?_, hreported⟩, ?_⟩
  · rw [hfiles, foldl_concat]
  · refine rel_append hvalues (.cons ?_ .nil)
    -- the steps before this one are on other paths
    refine hpost item.operation _ _ value (fun path hpath => ?_) hvalue
    rw [hitems] at hdisjoint
    refine @Footprint.foldl_frame _ _ _ (fun item : CommitItem μ => effect item.operation) _ _
      (fun other _ => hlocal other.operation) _ (fun other hother hown => ?_) files
    grind

end Steps

/-! ## The actions -/

section Actions

variable {start : Files AbsolutePath} {env : Environment μ} {sha256 : Bytes → String}
  {applyUpdateHunks : String → List η → String → Except String AppliedUpdate}
  {operations : List (PatchOperation η)}

/-- The path of an update of the request that leaves the bytes as they are. -/
def Rewritten (applyUpdateHunks : String → List η → String → Except String AppliedUpdate)
    (start : Files AbsolutePath) (operations : List (PatchOperation η)) (path : AbsolutePath) :
    Prop :=
  ∃ inputPath moveTo resolvedMoveTo hunks source applied,
    .update inputPath path moveTo resolvedMoveTo hunks ∈ operations ∧
      start path = some source ∧
      patchedText applyUpdateHunks inputPath hunks source = .ok applied ∧
      textBytes applied.content = source

variable {fault : Option IoFault}

theorem guardIo_ok {α : Type} {result : Except RemoteError α} {value : α}
    (h : guardIo fault result = .ok value) : result = .ok value := by
  cases fault with
  | none => exact h
  | some fault => cases h

theorem map_guardIo_ok {α β : Type} {result : Except RemoteError α} {f : α → β} {value : β}
    (h : (guardIo fault result).map f = .ok value) :
    ∃ found, result = .ok found ∧ f found = value := by
  cases hguard : guardIo fault result with
  | error error =>
    rw [hguard] at h
    cases h
  | ok found =>
    rw [hguard] at h
    exact ⟨found, guardIo_ok hguard, ok.inj h⟩

theorem map_guardIo_error {α β : Type} {result : Except RemoteError α} {f : α → β}
    {error : RemoteError} (h : (guardIo fault result).map f = .error error) :
    (∃ refused : IoFault, refused.error = error) ∨ result = .error error := by
  cases fault with
  | some refused => exact .inl ⟨refused, Except.error.inj h⟩
  | none =>
    right
    cases result with
    | error cause => exact congrArg Except.error (Except.error.inj h)
    | ok found => cases h

/-- What is known of a write: there is a time for it. -/
def Written (operation : PlannedOperation) (_ : Files AbsolutePath) (value : Option μ) : Prop :=
  match operation with
  | .add _ _ _ => value.isSome
  | _ => True

variable {files : Files AbsolutePath}

theorem update_frame {path : AbsolutePath} {content : Option Bytes} {other : AbsolutePath}
    (hother : other ∉ [path]) : update files path content other = files other :=
  update_of_ne (fun heq => hother (mem_singleton.mpr heq)) _ _

variable {operation : PatchOperation η} {item : CommitItem μ} {items : List (CommitItem μ)}

theorem writeAction_sound (hmem : operation ∈ operations)
    (hprepared : Prepared applyUpdateHunks start operation item) :
    ActionSound start (Rewritten applyUpdateHunks start operations) (writeEffect item.operation)
      (Written item.operation) (writeAction env item) := by
  obtain ⟨hplans, hrevalidated⟩ := hprepared
  obtain ⟨planned, observed, index⟩ := item
  cases hplans with
  | @add inputPath path content hfree =>
    refine actionSound_some (fun files after value hrun => ?_) fun _ _ _ => rfl
    obtain ⟨written, hwrite, hvalue⟩ := map_guardIo_ok hrun
    obtain ⟨rfl, rfl⟩ := Prod.mk.inj hvalue
    unfold writeAtomic at hwrite
    split_ifs at hwrite
    obtain rfl := ok.inj hwrite
    refine ⟨rfl, rfl, fun other hother => update_frame hother, fun other hother => ?_⟩
    obtain rfl := mem_singleton.mp hother
    left
    rw [hfree, update_self]
    exact Option.some_ne_none _
  | delete hsource => exact actionSound_none fun files => ⟨rfl, trivial⟩
  | @update inputPath path moveTo resolvedMoveTo hunks source applied hsource happlied hpaired
      hdestination =>
    cases hchanges : hunks.isEmpty with
    | true => exact actionSound_none fun files => ⟨rfl, trivial⟩
    | false =>
      obtain ⟨found, rfl, hbytes⟩ := hrevalidated
      refine actionSound_some (fun files after value hrun => ?_) fun _ _ _ => rfl
      obtain ⟨written, hwrite, hvalue⟩ := map_guardIo_ok hrun
      obtain ⟨rfl, rfl⟩ := Prod.mk.inj hvalue
      unfold writeAtomicIfUnchanged at hwrite
      split at hwrite
      · cases hwrite
      · split_ifs at hwrite
        obtain rfl := ok.inj hwrite
        refine ⟨rfl, trivial, fun other hother => update_frame hother, fun other hother => ?_⟩
        obtain rfl := mem_singleton.mp hother
        by_cases hsame : textBytes applied.content = source
        · right
          exact ⟨inputPath, moveTo, resolvedMoveTo, hunks, source, applied, hmem, hsource,
            happlied, hsame⟩
        · left
          rw [hsource, update_self]
          exact fun heq => hsame (Option.some.inj heq)

/-- What is known of a move: it returns the hash of what it moves. -/
def Moved (sha256 : Bytes → String) (operation : PlannedOperation) (files : Files AbsolutePath)
    (value : Option String) : Prop :=
  match operation with
  | .update _ path _ (some _) _ _ _ _ => ∃ bytes, files path = some bytes ∧ value = some (sha256 bytes)
  | _ => True

theorem moveNoOverwrite_error {source target : AbsolutePath} {error : RemoteError}
    (h : moveNoOverwrite files source target = .error error) :
    error.isSet "pathsMayHaveChanged" = false := by
  unfold moveNoOverwrite at h
  split at h
  · rw [← Except.error.inj h]
    rfl
  · split at h
    · rw [← Except.error.inj h]
      rfl
    · cases h

theorem moveNoOverwrite_ok {after : Files AbsolutePath} {source target : AbsolutePath}
    {bytes : Bytes} (h : moveNoOverwrite files source target = .ok (after, bytes)) :
    files source = some bytes ∧
      after = update (update files source none) target (some bytes) := by
  grind [moveNoOverwrite]

theorem moveAction_sound (hprepared : Prepared applyUpdateHunks start operation item) :
    ActionSound start (Rewritten applyUpdateHunks start operations) (moveEffect item.operation)
      (Moved sha256 item.operation) (moveAction sha256 env item) := by
  obtain ⟨hplans, hrevalidated⟩ := hprepared
  obtain ⟨planned, observed, index⟩ := item
  cases hplans with
  | add | delete => exact actionSound_none fun files => ⟨rfl, trivial⟩
  | @update inputPath path moveTo resolvedMoveTo hunks source applied hsource happlied hpaired
      hdestination =>
    cases resolvedMoveTo with
    | none => exact actionSound_none fun files => ⟨rfl, trivial⟩
    | some destination =>
      obtain ⟨hother, hfree⟩ := hdestination destination rfl
      refine actionSound_some (fun files after value hrun => ?_) fun files error hrun => ?_
      · obtain ⟨⟨moved, bytes⟩, hmove, hvalue⟩ := map_guardIo_ok hrun
        obtain ⟨rfl, rfl⟩ := Prod.mk.inj hvalue
        obtain ⟨hbytes, rfl⟩ := moveNoOverwrite_ok hmove
        refine ⟨?_, ⟨bytes, hbytes, rfl⟩, fun other houtside => ?_, fun other hinside => ?_⟩
        · show update (update files path none) destination (some bytes) =
            update (update files path none) destination (files path)
          rw [hbytes]
        · grind
        · grind
      · refine if_neg ?_
        rw [Bool.not_eq_true]
        rcases map_guardIo_error hrun with ⟨refused, rfl⟩ | hmove
        · exact refused.clean
        · exact moveNoOverwrite_error hmove

theorem deleteAction_sound (hprepared : Prepared applyUpdateHunks start operation item) :
    ActionSound start (Rewritten applyUpdateHunks start operations) (deleteEffect item.operation)
      (fun _ _ => True) (deleteAction env item) := by
  obtain ⟨hplans, hrevalidated⟩ := hprepared
  obtain ⟨planned, observed, index⟩ := item
  cases hplans with
  | add | update => exact actionSound_none fun files => ⟨rfl, trivial⟩
  | @delete inputPath path source hsource =>
    refine actionSound_some (fun files after value hrun => ?_) fun _ _ _ => rfl
    obtain ⟨left, hdelete, hvalue⟩ := map_guardIo_ok hrun
    obtain ⟨rfl, _⟩ := Prod.mk.inj hvalue
    unfold deleteFile at hdelete
    split at hdelete
    · cases hdelete
    · obtain rfl := ok.inj hdelete
      refine ⟨rfl, trivial, fun other hother => update_frame hother, fun other hother => ?_⟩
      grind

/-! ## The commit -/

/-- The steps of one operation, one after the other. -/
def commitEffect (operation : PlannedOperation) (files : Files AbsolutePath) :
    Files AbsolutePath :=
  deleteEffect operation (moveEffect operation (writeEffect operation files))

theorem localOn_commitEffect (operation : PlannedOperation) :
    Footprint.LocalOn (commitEffect operation) (owns operation) :=
  (localOn_deleteEffect operation).comp
    ((localOn_moveEffect operation).comp (localOn_writeEffect operation))

theorem owns_disjoint
    (hnodup : (items.flatMap fun item => operationPaths item.operation).Nodup) :
    items.Pairwise fun item other => Disjoint (owns item.operation) (owns other.operation) := by
  refine (nodup_flatMap.mp hnodup).2.imp fun {item other} hapart => ?_
  rw [Set.disjoint_left]
  exact fun path hpath hother => hapart hpath hother

theorem foldl_commitEffect
    (hdisjoint : items.Pairwise fun item other =>
      Disjoint (owns item.operation) (owns other.operation)) (files : Files AbsolutePath) :
    items.foldl (fun files item => deleteEffect item.operation files)
        (items.foldl (fun files item => moveEffect item.operation files)
          (items.foldl (fun files item => writeEffect item.operation files) files)) =
      items.foldl (fun files item => commitEffect item.operation files) files := by
  have hwrites : ∀ item ∈ items,
      Footprint.LocalOn (writeEffect item.operation) (owns item.operation) :=
    fun item _ => localOn_writeEffect item.operation
  have hmoves : ∀ item ∈ items,
      Footprint.LocalOn (moveEffect item.operation) (owns item.operation) :=
    fun item _ => localOn_moveEffect item.operation
  have hdeletes : ∀ item ∈ items,
      Footprint.LocalOn (deleteEffect item.operation) (owns item.operation) :=
    fun item _ => localOn_deleteEffect item.operation
  rw [Footprint.foldl_phases hwrites hmoves hdisjoint]
  exact Footprint.foldl_phases (fun item hitem => (hmoves item hitem).comp (hwrites item hitem))
    hdeletes hdisjoint files

/-- What the phases return for an operation: there is a time for each write, and
a move has the hash of what the writes left. -/
def Committed (sha256 : Bytes → String) (start : Files AbsolutePath) (item : CommitItem μ)
    (write : Option μ) (moveHash : Option String) : Prop :=
  Written item.operation start write ∧
    Moved sha256 item.operation (writeEffect item.operation start) moveHash

theorem forall₂_zip_and {ι α β : Type} {R : ι → α → Prop} {S : ι → β → Prop} {items : List ι}
    {firsts : List α} {seconds : List β} (hfirsts : List.Forall₂ R items firsts)
    (hseconds : List.Forall₂ S items seconds) :
    List.Forall₂ (fun item value => R item value.1 ∧ S item value.2) items
      (firsts.zip seconds) := by
  induction hfirsts generalizing seconds with
  | nil => exact .nil
  | cons hfirst _ ih =>
    cases hseconds with
    | cons hsecond hrest => exact .cons ⟨hfirst, hsecond⟩ (ih hrest)

theorem Moved.congr {operation : PlannedOperation} {other : Files AbsolutePath}
    {value : Option String} (hsame : ∀ path ∈ owns operation, files path = other path)
    (h : Moved sha256 operation files value) : Moved sha256 operation other value := by
  unfold Moved at h ⊢
  split
  · rename_i inputPath path moveTo destination source content changes valid
    obtain ⟨bytes, hbytes, hvalue⟩ := h
    exact ⟨bytes, (hsame path mem_cons_self).symm.trans hbytes, hvalue⟩
  · trivial

theorem triple_commitOperations
    (hprepared : List.Forall₂ (Prepared applyUpdateHunks start) operations items)
    (hnodup : (items.flatMap fun item => operationPaths item.operation).Nodup) :
    Attempt.Triple
      (fun progress => progress.files = start ∧
        Reported start (Rewritten applyUpdateHunks start operations) progress)
      (commitOperations sha256 env items)
      (fun values progress =>
        progress.files = items.foldl (fun files item => commitEffect item.operation files) start ∧
        List.Forall₂ (fun item value => Committed sha256 start item value.1 value.2) items
          (values.1.zip values.2))
      fun _ progress => Reported start (Rewritten applyUpdateHunks start operations) progress := by
  have hdisjoint := owns_disjoint hnodup
  have hitem : ∀ item ∈ items, ∃ operation ∈ operations,
      Prepared applyUpdateHunks start operation item := by
    intro item hmem
    obtain ⟨index, hindex, rfl⟩ := getElem_of_mem hmem
    have hlength := hprepared.length_eq
    exact ⟨operations[index], getElem_mem _, hprepared.get (by omega) hindex⟩
  refine Attempt.triple_bind (triple_phase localOn_writeEffect hdisjoint (fun item hmem => ?_)
    (fun operation files other value _ (hpost : Written operation files value) => hpost) start)
    fun writes progress ⟨hprogress, hwrites⟩ => ?_
  · obtain ⟨operation, hoperation, hprepared⟩ := hitem item hmem
    exact writeAction_sound hoperation hprepared
  refine Attempt.triple_bind (triple_phase localOn_moveEffect hdisjoint (fun item hmem => ?_)
    (fun operation files other value hsame (hpost : Moved sha256 operation files value) =>
      hpost.congr hsame) _) (fun moveHashes progress ⟨hprogress, hmoves⟩ => ?_) progress hprogress
  · obtain ⟨operation, hoperation, hprepared⟩ := hitem item hmem
    exact moveAction_sound hprepared
  refine Attempt.triple_bind (triple_phase localOn_deleteEffect hdisjoint (fun item hmem => ?_)
    (fun operation files other value _ hpost => trivial) _)
    (fun _ => Attempt.triple_pure fun progress ⟨⟨hfiles, _⟩, _⟩ => ⟨?_, ?_⟩) progress hprogress
  · obtain ⟨operation, hoperation, hprepared⟩ := hitem item hmem
    exact deleteAction_sound hprepared
  · rw [hfiles, foldl_commitEffect hdisjoint]
  · refine forall₂_zip_and hwrites ?_
    refine (forall₂_and_left items moveHashes |>.mpr ⟨fun item hmem => hmem, hmoves⟩).imp
      fun item value ⟨hmem, hmoved⟩ => hmoved.congr fun path hpath => ?_
    exact Footprint.foldl_at (fun item _ => localOn_writeEffect item.operation) hdisjoint hmem hpath
      start

end Actions

end MangoStudio.Filesystem
