import MangoStudio.Filesystem.PatchCommit

/-!
# A patch is a transaction

What `fs.apply-patch` does, for any list of operations, any files and any
ledger.

* A request that is refused before the commit changes nothing.
* A commit that comes to an end leaves the files that the operations leave one
  by one (`executeAll_prepared`), and each mutation of the response has the
  content before the call and the hash after it (`Snapshots`).
* A commit that stops reports the paths that it has changed.
-/

namespace MangoStudio.Filesystem

open Function List

variable {μ η : Type}

section Transaction

variable {start : Files AbsolutePath} {env : Environment μ} {sha256 : Bytes → String}
  {applyUpdateHunks : String → List η → String → Except String AppliedUpdate}

/-! ## One by one -/

/-- The content that an update leaves. -/
def updatedBytes (hasContentChanges : Bool) (source : Bytes) (content : String) : Bytes :=
  if hasContentChanges then textBytes content else source

variable {files : Files AbsolutePath}

theorem writeEffect_update {inputPath : String} {path : AbsolutePath} {moveTo : Option String}
    {resolvedMoveTo : Option AbsolutePath} {source : Bytes} (hsource : files path = some source)
    (content : String) (changes : Bool) (valid : Nat) :
    writeEffect (.update inputPath path moveTo resolvedMoveTo source content changes valid) files =
      update files path (some (updatedBytes changes source content)) := by
  cases changes with
  | true => rfl
  | false => exact (update_eq_self_iff.mpr hsource.symm).symm

theorem commitEffect_update {path : AbsolutePath} {source : Bytes}
    (hsource : files path = some source) (inputPath : String) (moveTo : Option String)
    (resolvedMoveTo : Option AbsolutePath) (content : String) (changes : Bool) (valid : Nat) :
    commitEffect (.update inputPath path moveTo resolvedMoveTo source content changes valid) files =
      match resolvedMoveTo with
      | none => update files path (some (updatedBytes changes source content))
      | some destination =>
        update (update files path none) destination
          (some (updatedBytes changes source content)) := by
  unfold commitEffect
  rw [writeEffect_update hsource]
  cases resolvedMoveTo with
  | none => rfl
  | some destination =>
    show update (update (update files path _) path none) destination
      (update files path _ path) = _
    rw [update_idem, update_self]

theorem Plans.execute {operation : PatchOperation η} {planned : PlannedOperation}
    (h : Plans applyUpdateHunks start operation planned)
    (hsame : ∀ path ∈ owns planned, files path = start path) :
    operation.execute applyUpdateHunks files = some (commitEffect planned files) := by
  have hprimary := hsame _ (primaryPath_mem_owns planned)
  cases h with
  | @add inputPath path content hfree => exact if_pos (hprimary.trans hfree)
  | @delete inputPath path source hsource =>
    have hfound : files path = some source := hprimary.trans hsource
    refine if_neg ?_
    rw [hfound]
    exact Option.some_ne_none _
  | @update inputPath path moveTo resolvedMoveTo hunks source applied hsource happlied hpaired
      hdestination =>
    have hfound : files path = some source := hprimary.trans hsource
    have hcontent : (if hunks.isEmpty then source else textBytes applied.content) =
        updatedBytes (!hunks.isEmpty) source applied.content := by
      unfold updatedBytes
      cases hunks.isEmpty with
      | true | false => rfl
    rw [commitEffect_update hfound]
    simp only [PatchOperation.execute, hfound, happlied, hcontent]
    cases resolvedMoveTo with
    | none => rfl
    | some destination =>
      refine if_pos ?_
      rw [hsame destination (mem_cons_of_mem _ mem_cons_self)]
      exact (hdestination destination rfl).2

theorem executeAll_prepared {operations : List (PatchOperation η)} {items : List (CommitItem μ)}
    (hprepared : List.Forall₂ (Prepared applyUpdateHunks start) operations items)
    (hdisjoint : items.Pairwise fun item other => Disjoint (owns item.operation) (owns
      other.operation))
    (hsame : ∀ item ∈ items, ∀ path ∈ owns item.operation, files path = start path) :
    executeAll applyUpdateHunks operations files =
      some (items.foldl (fun files item => commitEffect item.operation files) files) := by
  induction hprepared generalizing files with
  | nil => rfl
  | @cons operation item operations items hprepared _ ih =>
    obtain ⟨hhead, hrest⟩ := pairwise_cons.mp hdisjoint
    have hexecute := hprepared.1.execute (hsame item mem_cons_self)
    rw [executeAll, hexecute, Option.bind_some, foldl_cons]
    refine ih hrest fun other hother path hpath => ?_
    -- the operation does not touch the paths of the others
    rw [(localOn_commitEffect item.operation).frame _ _
      ((hhead other hother).notMem_of_mem_right hpath)]
    exact hsame other (mem_cons_of_mem _ hother) path hpath

/-! ## The response -/

def PatchOperation.path : PatchOperation η → AbsolutePath
  | .add _ path _ | .delete _ path | .update _ path _ _ _ => path

def PatchOperation.movedTo : PatchOperation η → Option AbsolutePath
  | .update _ _ _ resolvedMoveTo _ => resolvedMoveTo
  | _ => none

/-- A mutation of the response has the content before the operation and the hash
after it. -/
structure Snapshots (sha256 : Bytes → String) (before after : Files AbsolutePath)
    (operation : PatchOperation η) (record : SnapshotRecord) : Prop where
  path : record.path = operation.path
  movedTo : record.movedTo = operation.movedTo
  before : record.before = before record.path
  afterHash : record.afterHash =
    observedHash sha256 after (record.movedTo.getD record.path)

theorem observedHash_of_some {path : AbsolutePath} {bytes : Bytes} (h : files path = some bytes) :
    observedHash sha256 files path = sha256 bytes := by
  unfold observedHash hashFileIfPresent
  rw [h]
  rfl

theorem triple_outcome {operation : PatchOperation η} {item : CommitItem μ} {write : Option μ}
    {moveHash : Option String} {chatId : String} {after : Files AbsolutePath}
    (hprepared : Prepared applyUpdateHunks start operation item)
    (hcommitted : Committed sha256 start item write moveHash)
    (hafter : ∀ path ∈ owns item.operation, after path = commitEffect item.operation start path) :
    Attempt.Triple (fun _ => True) (outcome sha256 chatId item write moveHash)
      (fun entry _ => Snapshots sha256 start after operation entry.2) fun _ _ => False := by
  obtain ⟨hplans, hrevalidated⟩ := hprepared
  obtain ⟨hwritten, hmoved⟩ := hcommitted
  obtain ⟨planned, observed, index⟩ := item
  cases hplans with
  | @add inputPath path content hfree =>
    obtain ⟨mtime, rfl⟩ := Option.isSome_iff_exists.mp hwritten
    have hpath : after path = some (textBytes content) := by
      rw [hafter path (primaryPath_mem_owns _)]
      exact update_self _ _ _
    exact Attempt.triple_act_ok fun ledger _ =>
      ⟨_, rfl, rfl, rfl, hfree.symm, (observedHash_of_some hpath).symm⟩
  | @delete inputPath path source hsource =>
    obtain ⟨found, rfl, rfl⟩ := hrevalidated
    have hpath : after path = none := by
      rw [hafter path (primaryPath_mem_owns _)]
      exact update_self _ _ _
    refine Attempt.triple_act_ok fun ledger _ => ⟨_, rfl, rfl, rfl, hsource.symm, ?_⟩
    show absentHash = observedHash sha256 after path
    unfold observedHash hashFileIfPresent
    rw [hpath]
    rfl
  | @update inputPath path moveTo resolvedMoveTo hunks source applied hsource happlied hpaired
      hdestination =>
    obtain ⟨found, rfl, rfl⟩ := hrevalidated
    have hupdated := commitEffect_update hsource inputPath moveTo resolvedMoveTo applied.content
      (!hunks.isEmpty) applied.lineNumbersValidThroughLine
    cases resolvedMoveTo with
    | none =>
      obtain rfl : moveTo = none := Option.not_isSome_iff_eq_none.mp (by simp [hpaired])
      have hpath : after path = some (updatedBytes (!hunks.isEmpty) found.bytes applied.content) := by
        rw [hafter path (primaryPath_mem_owns _), hupdated]
        exact update_self _ _ _
      exact Attempt.triple_act_ok fun ledger _ =>
        ⟨_, rfl, rfl, rfl, hsource.symm, (observedHash_of_some hpath).symm⟩
    | some destination =>
      obtain ⟨name, rfl⟩ := Option.isSome_iff_exists.mp hpaired
      obtain ⟨bytes, hbytes, rfl⟩ := hmoved
      have hpath : after destination =
          some (updatedBytes (!hunks.isEmpty) found.bytes applied.content) := by
        rw [hafter destination (mem_cons_of_mem _ mem_cons_self), hupdated]
        exact update_self _ _ _
      rw [writeEffect_update hsource, update_self] at hbytes
      rw [hbytes] at hpath
      exact Attempt.triple_act_ok fun ledger _ =>
        ⟨_, rfl, rfl, rfl, hsource.symm, (observedHash_of_some hpath).symm⟩

theorem triple_outcomes {operations : List (PatchOperation η)} {items : List (CommitItem μ)}
    {writes : List (Option μ)} {moveHashes : List (Option String)} {chatId : String}
    {after : Files AbsolutePath}
    (hprepared : List.Forall₂ (Prepared applyUpdateHunks start) operations items)
    (hcommitted : List.Forall₂ (fun item value => Committed sha256 start item value.1 value.2) items
      (writes.zip moveHashes))
    (hafter : ∀ item ∈ items, ∀ path ∈ owns item.operation,
      after path = commitEffect item.operation start path) :
    Attempt.Triple (fun _ => True) (outcomes sha256 chatId items writes moveHashes)
      (fun entries _ => List.Forall₂ (fun operation entry =>
        Snapshots sha256 start after operation entry.2) operations entries) fun _ _ => False := by
  unfold outcomes
  generalize writes.zip moveHashes = values at hcommitted
  induction hprepared generalizing values with
  | nil => exact Attempt.triple_pure fun _ _ => .nil
  | @cons operation item operations items hprepared _ ih =>
    cases hcommitted with
    | @cons _ value _ values hvalue hvalues =>
      rw [zip_cons_cons, mapM_cons]
      refine Attempt.triple_bind (triple_outcome hprepared hvalue (hafter item mem_cons_self))
        fun entry ledger hentry => ?_
      refine Attempt.triple_bind
        (ih (fun other hother => hafter other (mem_cons_of_mem _ hother)) values hvalues)
        (fun entries => Attempt.triple_pure fun _ hentries => ?_) ledger trivial
      exact .cons hentry hentries

/-! ## The report -/

/-- The paths that an error reports as changed. -/
def RemoteError.changedPaths (error : RemoteError) : List Json :=
  match (error.details.getD []).lookup "changedPaths" with
  | some (.arr paths) => paths
  | _ => []

theorem changedPaths_commitError (changed : List AbsolutePath) (cause : RemoteError) :
    (commitError changed cause).changedPaths =
      changed.eraseDups.map fun path => .str (toString path) := by
  unfold commitError
  dsimp only
  split_ifs with hempty
  · rw [isEmpty_iff.mp hempty]
    rfl
  · rfl

/-! ## The request -/

/-- The mutations of a response go with the operations, if they are asked for. -/
def SnapshotsAll (sha256 : Bytes → String) (before after : Files AbsolutePath)
    (params : ApplyPatchParams η) (mutations : List SnapshotRecord) : Prop :=
  if params.captureSnapshot then
    List.Forall₂ (Snapshots sha256 before after) params.operations mutations
  else mutations = []

theorem snapshotsAll_response {params : ApplyPatchParams η} {before after : Files AbsolutePath}
    {entries : List (PatchedFile × SnapshotRecord)}
    (h : List.Forall₂ (fun operation entry => Snapshots sha256 before after operation entry.2)
      params.operations entries) :
    SnapshotsAll sha256 before after params (response params.captureSnapshot entries).mutations := by
  unfold SnapshotsAll response
  split_ifs
  · exact forall₂_map_right_iff.mpr h
  · rfl

/-- How a request ends, by how its preparation ends. -/
inductive Transaction (sha256 : Bytes → String)
    (applyUpdateHunks : String → List η → String → Except String AppliedUpdate)
    (params : ApplyPatchParams η) (before : Workspace AbsolutePath μ) :
    Except RemoteError (List (CommitItem μ)) →
      Workspace AbsolutePath μ × Except RemoteError PatchResponse → Prop
  /-- Nothing is changed. -/
  | refused {error : RemoteError} {after : Workspace AbsolutePath μ}
      (hfiles : after.files = before.files) (hledger : SameContents before.ledger after.ledger) :
      Transaction sha256 applyUpdateHunks params before (.error error) (after, .error error)
  /-- The files are those of the operations one by one. -/
  | committed {items : List (CommitItem μ)} {after : Workspace AbsolutePath μ}
      {response : PatchResponse}
      (hfiles : executeAll applyUpdateHunks params.operations before.files = some after.files)
      (hmutations : SnapshotsAll sha256 before.files after.files params response.mutations) :
      Transaction sha256 applyUpdateHunks params before (.ok items) (after, .ok response)
  /-- The paths that differ are reported. -/
  | stopped {items : List (CommitItem μ)} {after : Workspace AbsolutePath μ} {error : RemoteError}
      (changed : List AbsolutePath)
      (hreport : error.changedPaths = changed.map fun path => .str (toString path))
      (hcomplete : ∀ path, after.files path ≠ before.files path → path ∈ changed)
      (hsound : ∀ path ∈ changed, after.files path ≠ before.files path ∨
        Rewritten applyUpdateHunks before.files params.operations path)
      (hledger : SameContents before.ledger after.ledger) :
      Transaction sha256 applyUpdateHunks params before (.ok items) (after, .error error)

end Transaction

/-- A request that fails before the commit changes nothing.  Otherwise its
commit succeeds, with the files of the operations one by one, or fails, with a
report of the paths that it has changed. -/
theorem apply_patch_transaction (sha256 : Bytes → String) (env : Environment μ)
    (applyUpdateHunks : String → List η → String → Except String AppliedUpdate)
    (responseId : String) (responseLimitBytes : Nat) (params : ApplyPatchParams η)
    (before : Workspace AbsolutePath μ) :
    Transaction sha256 applyUpdateHunks params before
      ((prepare sha256 env applyUpdateHunks responseId responseLimitBytes params
        before.files).finish before.ledger).1
      (applyPatch sha256 env applyUpdateHunks responseId responseLimitBytes params before) := by
  have hprepare := @keeps_prepare μ η sha256 env before.files before.ledger applyUpdateHunks params
    responseId responseLimitBytes before.ledger fun _ _ => rfl
  unfold applyPatch
  rcases hfinish : (prepare sha256 env applyUpdateHunks responseId responseLimitBytes params
      before.files).finish before.ledger with ⟨error | items, ledger⟩
  · rw [hfinish] at hprepare
    exact .refused rfl hprepare
  rw [hfinish] at hprepare
  obtain ⟨hsame, hitems, hnodup⟩ := hprepare
  have hdisjoint := owns_disjoint hnodup
  have hstart : Reported before.files
      (Rewritten applyUpdateHunks before.files params.operations) ⟨before.files, []⟩ :=
    ⟨fun path hdiffers => absurd rfl hdiffers, fun path hpath => by cases hpath⟩
  have hcommit := @triple_commitOperations μ η before.files env sha256 applyUpdateHunks
    params.operations items hitems hnodup ⟨before.files, []⟩ ⟨rfl, hstart⟩
  rcases hcommitted : (commitOperations sha256 env items).finish ⟨before.files, []⟩ with
    ⟨cause | ⟨writes, moveHashes⟩, progress⟩
  · rw [hcommitted] at hcommit
    dsimp only
    rw [hcommitted]
    exact .stopped progress.changedPaths.eraseDups (changedPaths_commitError _ _)
      (fun path hdiffers => List.mem_eraseDups.mpr (hcommit.complete path hdiffers))
      (fun path hpath => hcommit.sound path (List.mem_eraseDups.mp hpath)) hsame
  rw [hcommitted] at hcommit
  obtain ⟨hfiles, hvalues⟩ := hcommit
  have hafter : ∀ item ∈ items, ∀ path ∈ owns item.operation,
      progress.files path = commitEffect item.operation before.files path := by
    intro item hitem path hpath
    rw [hfiles]
    exact Footprint.foldl_at (fun item _ => localOn_commitEffect item.operation) hdisjoint hitem
      hpath before.files
  have houtcomes := @triple_outcomes μ η before.files sha256 applyUpdateHunks params.operations
    items writes moveHashes params.chatId progress.files hitems hvalues hafter ledger trivial
  rcases hentries : (outcomes sha256 params.chatId items writes moveHashes).finish ledger with
    ⟨error | entries, recorded⟩
  · rw [hentries] at houtcomes
    exact houtcomes.elim
  · rw [hentries] at houtcomes
    dsimp only
    rw [hcommitted]
    dsimp only
    rw [hentries]
    refine .committed ?_ (snapshotsAll_response houtcomes)
    rw [executeAll_prepared hitems hdisjoint fun _ _ _ _ => rfl]
    exact congrArg some hfiles.symm

end MangoStudio.Filesystem
