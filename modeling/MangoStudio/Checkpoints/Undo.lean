import MangoStudio.Checkpoints.Recording
import MangoStudio.Checkpoints.Retry

/-!
# Undoing a message

The revert of a message on the files and the directories that its mutations left.

A file that was moved onto a path where the message had a row of its own covers
that row.  Later mutations of the file find the covered row and amend it, and
the row of the move keeps the hash of the moved file.  The revert then expects
the moved file, and a second move onto the path leaves the first one without a
way back.  `revert_undoes_iff` says exactly when this does no harm, for a message
whose paths do not lie in each other.

A mutation makes the directories that its path lies in, and no mutation and no
revert removes one.  So a file whose path has become a directory has no way back;
`Unnested` excludes that, and the replay is then the one without directories
(`replayAmong_rows`).
-/

namespace MangoStudio.Checkpoints

open Filesystem

variable {π μ : Type} [DecidableEq π]

/-- The files that a list of mutations leaves. -/
def written (start : Files π) (made : List (Mutation π × Nat)) : Files π :=
  made.foldl (fun files next => next.1.apply files) start

theorem files_run (sha256 : Bytes → String) (context : MutationContext) (start : Files π)
    (db : Database π) (made : List (Mutation π × Nat)) :
    (Run.run (Turn.step sha256 context) ⟨start, db⟩ made).files = written start made := by
  induction made using List.reverseRecOn with
  | nil => rfl
  | append_singleton made next ih =>
    rw [Run.run_concat, written, List.foldl_concat, ← written, ← ih]
    rfl

/-- The mutations can be taken back: no file was moved onto a path that another
moved file still covers, and a covered path has the file that was moved there.
Or the mutations came back to where they started, and a covered path tells. -/
def Restorable (start : Files π) (made : List (Mutation π × Nat)) : Prop :=
  (∀ path, (CellLog.course (changesAt made path)).2 = false ∧
    ∀ value, (CellLog.course (changesAt made path)).1 = .covered value →
      written start made path = some value) ∨
  written start made = start ∧ ∃ path value,
    (CellLog.course (changesAt made path)).1 = .covered value ∧
      written start made path ≠ some value

/-! ## Directories -/

/-- The directories that are made for the file that a mutation writes. -/
def Mutation.directories (above : π → List π) : Mutation π → List π
  | .create path _ | .edit path _ => above path
  | .delete _ => []
  | .move _ target _ => above target

def directoriesAfter (tree : Directories π) (dirs : List π) (made : List (Mutation π × Nat)) :
    List π :=
  dirs ++ made.flatMap fun next => next.1.directories tree.above

/-- The paths that a message changes do not lie in each other, and at the start none of them is
a directory or lies in a file. -/
structure Unnested (tree : Directories π) (dirs : List π) (start : Files π)
    (made : List (Mutation π × Nat)) : Prop where
  apart : ∀ path other, changesAt made path ≠ [] → changesAt made other ≠ [] →
    other ∉ tree.above path
  noDirectory : ∀ path, changesAt made path ≠ [] → path ∉ dirs
  noFile : ∀ path, changesAt made path ≠ [] → ∀ parent ∈ tree.above path, start parent = none

section

variable {tree : Directories π} {dirs : List π} {start : Files π} {made : List (Mutation π × Nat)}

theorem Unnested.not_mem_directoriesAfter (h : Unnested tree dirs start made) {path : π}
    (hpath : changesAt made path ≠ []) : path ∉ directoriesAfter tree dirs made := by
  rw [directoriesAfter, List.mem_append, List.mem_flatMap]
  rintro (hdir | ⟨next, hnext, hmem⟩)
  · exact h.noDirectory path hpath hdir
  · obtain ⟨own, hown, habove⟩ : ∃ own, next.1.changeAt own ≠ none ∧ path ∈ tree.above own := by
      obtain ⟨mutation, now⟩ := next
      cases mutation with
      | create own content | edit own content => exact ⟨own, by simp [Mutation.changeAt], hmem⟩
      | delete own => exact absurd hmem List.not_mem_nil
      | move source target content =>
        refine ⟨target, ?_, hmem⟩
        by_cases hsource : source = target <;> simp [Mutation.changeAt, hsource]
    exact h.apart own path (fun hnone => hown (List.filterMap_eq_nil_iff.mp hnone next hnext)) hpath
      habove

variable {blobs : Table String Bytes} {row : FileCheckpoint π}

omit [DecidableEq π] in
theorem operation_paths {path : π} (h : path ∈ (row.operation blobs).paths) :
    path = row.path ∨ row.movedTo = some path := by
  unfold FileCheckpoint.operation at h
  split at h
  · exact .inl (List.mem_singleton.mp h)
  · rename_i movedTo _ hmovedTo
    rcases List.mem_cons.mp h with hpath | hmoved
    · exact .inl hpath
    · exact .inr (hmovedTo.trans (congrArg some (List.mem_singleton.mp hmoved).symm))
  · exact .inl (List.mem_singleton.mp h)

omit [DecidableEq π] in
theorem madeFor_operation {path : π} (h : path ∈ tree.madeFor (row.operation blobs)) :
    path ∈ tree.above row.path := by
  unfold FileCheckpoint.operation at h
  split at h
  · exact absurd h List.not_mem_nil
  · exact h
  · exact h

/-- On paths that do not lie in each other, no directory and no file is in the way of the
replay. -/
theorem replayAmong_rows [ToString π] (sha256 : Bytes → String) (stamp : Nat → μ) (chatId : String)
    {named : π → Prop} (happart : ∀ path other, named path → named other → other ∉ tree.above path)
    {rows : List (FileCheckpoint π)} {workspace : Workspace π μ}
    (hrows : ∀ row ∈ rows, ∀ path, path = row.path ∨ row.movedTo = some path → named path)
    (hdirs : ∀ path, named path → path ∉ dirs)
    (hfiles : ∀ path, named path → ∀ parent ∈ tree.above path, workspace.files parent = none) :
    replayAmong sha256 stamp chatId tree dirs workspace
        (rows.map (FileCheckpoint.operation blobs)) =
      replay sha256 stamp chatId workspace (rows.map (FileCheckpoint.operation blobs)) := by
  induction rows generalizing dirs workspace with
  | nil => rfl
  | cons row rows ih =>
    obtain ⟨hrow, hlater⟩ := List.forall_mem_cons.mp hrows
    have hfree : ¬ (row.operation blobs).paths.any (tree.blocks dirs workspace.files) = true := by
      rw [List.any_eq_true]
      rintro ⟨path, hpath, hblocks⟩
      have hnamed := hrow path (operation_paths hpath)
      rw [Directories.blocks, Bool.or_eq_true, List.contains_iff_mem, List.any_eq_true] at hblocks
      rcases hblocks with hdir | ⟨parent, hparent, hfile⟩
      · exact hdirs path hnamed hdir
      · rw [hfiles path hnamed parent hparent] at hfile
        cases hfile
    have hmade : ∀ path, named path → path ∉ tree.madeFor (row.operation blobs) ++ dirs := by
      intro path hpath hmem
      rcases List.mem_append.mp hmem with hmade | hdir
      · exact happart row.path path (hrow _ (.inl rfl)) hpath (madeFor_operation hmade)
      · exact hdirs path hpath hdir
    have hspec := replayOperation_spec sha256 stamp chatId blobs workspace row
    rw [List.map_cons, replayAmong, replay, if_neg hfree]
    cases hreverted : revertRow blobs workspace.files row with
    | none =>
      rw [hreverted] at hspec
      obtain ⟨after, error, herror⟩ := hspec
      rw [herror]
    | some files =>
      rw [hreverted] at hspec
      obtain ⟨after, hok, rfl⟩ := hspec
      rw [hok]
      refine ih hlater hmade fun path hpath parent hparent => ?_
      have hother : ∀ path', path' = row.path ∨ row.movedTo = some path' → path' ≠ parent := by
        rintro path' hpath' rfl
        exact happart path path' hpath (hrow path' hpath') hparent
      have hframe := undo_revertRow hreverted parent []
      rw [rowEntries, if_neg (fun hmoved => hother parent (.inr hmoved) rfl),
        if_neg (hother row.path (.inl rfl))] at hframe
      exact (Option.some.inj hframe).symm.trans (hfiles path hpath parent hparent)

end

section

variable {sha256 : Bytes → String} {context : MutationContext} {start : Files π}
  {made : List (Mutation π × Nat)} {turn : Turn π}

theorem Recorded.listActive (h : Recorded sha256 context start made turn) :
    listActiveCheckpointsForMessage turn.db.rows context.chatId context.messageId =
      messageRows turn.db.rows context := by
  apply List.filter_congr
  intro row hrow
  by_cases hof : row.isOf context.chatId context.messageId = true
  · have hactive := (h.kept row (List.mem_filter.mpr ⟨hrow, hof⟩)).active
    rw [hof, hactive.1, hactive.2]
    rfl
  · rw [Bool.not_eq_true] at hof
    rw [hof]
    rfl

omit [DecidableEq π] in
theorem checkpointEnvironmentId_of_forall {rows : List (FileCheckpoint π)} {environmentId : String}
    (h : ∀ row ∈ rows, row.environmentId = environmentId) :
    checkpointEnvironmentId rows = .ok () := by
  have hlength : ((rows.map FileCheckpoint.environmentId).eraseDups).length ≤ 1 := by
    cases rows <;> grind [List.filter_eq_nil_iff]
  rw [checkpointEnvironmentId]
  exact if_neg (by omega)

section

variable (h : Recorded sha256 context start made turn)

include h

theorem Recorded.covered_iff (hmark : Function.Injective (mark sha256)) :
    (∀ entry ∈ expectedPaths (messageRows turn.db.rows context),
        matchesAfter sha256 turn.files entry = true) ↔
      ∀ path value, (CellLog.course (changesAt made path)).1 = .covered value →
        turn.files path = some value := by
  constructor
  · intro hall path value hcovered
    have hne : messageLog turn.db context path ≠ [] := by
      intro hnil
      have hshape := (h.tracked path).shape
      rw [hcovered, hnil] at hshape
      obtain ⟨older, hlog, -⟩ := hshape
      cases hlog
    obtain ⟨entry, hentry, rfl⟩ := exists_mem_expectedPaths hne
    exact ((h.tracked _).matches_iff hmark).mp
      ((matchesAfter_iff turn.files hentry).mp (hall entry hentry)) value hcovered
  · intro hcovered entry hentry
    rw [matchesAfter_iff turn.files hentry]
    exact ((h.tracked _).matches_iff hmark).mpr (hcovered entry.path)

theorem Recorded.matchesReverted_of_start (hstart : turn.files = start)
    {entry : SnapshotExpectedPath π}
    (hentry : entry ∈ expectedPaths (messageRows turn.db.rows context)) :
    matchesReverted sha256 turn.files entry = true := by
  rw [matchesReverted_iff turn.files (fun row hrow => (h.kept row hrow).captured) hentry,
    (h.tracked entry.path).oldest (pathLog_ne_nil _ hentry), hstart]
  rfl

theorem Recorded.replay_iff
    (hcovered : ∀ path value, (CellLog.course (changesAt made path)).1 = .covered value →
      turn.files path = some value) :
    revertRows turn.db.blobs (messageRows turn.db.rows context).reverse turn.files = some start ↔
      ∀ path, (CellLog.course (changesAt made path)).2 = false := by
  rw [revertRows_iff fun row hrow => (h.kept row (List.mem_reverse.mp hrow)).distinct]
  constructor
  · intro hundo path
    by_contra hbroken
    rw [Bool.not_eq_false] at hbroken
    have hlost := (h.tracked path).lost hbroken (turn.files path)
    rw [messageLog, pathLog, hundo path] at hlost
    cases hlost
  · intro hunbroken path
    exact (h.tracked path).undo_eq (hunbroken path) (hcovered path)

end

theorem Recorded.changed (h : Recorded sha256 context start made turn) {row : FileCheckpoint π}
    (hrow : row ∈ messageRows turn.db.rows context) {path : π}
    (hpath : path = row.path ∨ row.movedTo = some path) : changesAt made path ≠ [] := by
  intro hnone
  have hentries := List.flatMap_eq_nil_iff.mp (h.untouched path hnone) row
    (List.mem_reverse.mpr hrow)
  rw [rowEntries, List.append_eq_nil_iff] at hentries
  rcases hpath with hpath | hmoved
  · rw [if_pos hpath.symm] at hentries
    cases hentries.2
  · rw [if_pos hmoved] at hentries
    cases hentries.1

variable [ToString π] {stamp : Nat → μ} {workspace after : Workspace π μ}

theorem Recorded.replayAmong_eq (h : Recorded sha256 context start made turn)
    {tree : Directories π} {dirs : List π} (hunnested : Unnested tree dirs start made)
    (hworkspace : workspace.files = turn.files) :
    replayAmong sha256 stamp context.chatId tree (directoriesAfter tree dirs made) workspace
        ((messageRows turn.db.rows context).reverse.map (FileCheckpoint.operation turn.db.blobs)) =
      replay sha256 stamp context.chatId workspace
        ((messageRows turn.db.rows context).reverse.map
          (FileCheckpoint.operation turn.db.blobs)) := by
  refine replayAmong_rows sha256 stamp context.chatId hunnested.apart
    (fun row hrow path => h.changed (List.mem_reverse.mp hrow))
    (fun path hpath => hunnested.not_mem_directoriesAfter hpath) fun path hpath parent hparent => ?_
  have hnone : changesAt made parent = [] := by
    by_contra hchanged
    exact hunnested.apart path parent hpath hchanged hparent
  rw [hworkspace, (h.tracked parent).fresh (h.untouched parent hnone)]
  exact hunnested.noFile path hpath parent hparent

theorem Recorded.revert_iff (h : Recorded sha256 context start made turn)
    {tree : Directories π} {dirs : List π} (hunnested : Unnested tree dirs start made)
    (hworkspace : workspace.files = turn.files) (now : Nat) (files : Files π) :
    (∃ db after n, revertMessageFileCheckpoints sha256 stamp tree
        (directoriesAfter tree dirs made) turn.db workspace context.chatId
        context.messageId now = (db, after, .ok n) ∧ after.files = files) ↔
      ∃ after n, revertSnapshots sha256 stamp context.chatId
        (expectedPaths (messageRows turn.db.rows context))
        ((messageRows turn.db.rows context).reverse.map (FileCheckpoint.operation turn.db.blobs))
        workspace = (after, .ok n) ∧ after.files = files := by
  simp only [revertMessageFileCheckpoints, revertSnapshotsAmong, revertSnapshots, h.listActive,
    buildRevertOperations_of_captured fun row hrow => (h.kept row hrow).captured,
    checkpointEnvironmentId_of_forall fun row hrow => (h.kept row hrow).environment,
    h.replayAmong_eq hunnested hworkspace]
  cases hrows : messageRows turn.db.rows context with
  | nil =>
    constructor
    · rintro ⟨db, after, n, hresult, hfiles⟩
      obtain ⟨-, hresult⟩ := Prod.mk.inj hresult
      obtain ⟨rfl, -⟩ := Prod.mk.inj hresult
      exact ⟨workspace, 0, rfl, hfiles⟩
    · rintro ⟨after, n, hresult, hfiles⟩
      obtain ⟨rfl, -⟩ := Prod.mk.inj hresult
      exact ⟨turn.db, workspace, 0, rfl, hfiles⟩
  | cons row rows =>
    simp only [List.isEmpty_cons, Bool.false_eq_true, if_false]
    generalize revertBy sha256 _ (expectedPaths (row :: rows)) _ workspace = result
    obtain ⟨after, error | n⟩ := result
    · grind
    · constructor
      · rintro ⟨_, _, _, hresult, hfiles⟩
        cases hresult
        exact ⟨after, n, rfl, hfiles⟩
      · rintro ⟨_, _, hresult, hfiles⟩
        cases hresult
        exact ⟨_, after, n, rfl, hfiles⟩

end

theorem revert_undoes_iff [ToString π] (sha256 : Bytes → String) (stamp : Nat → μ)
    (hinjective : Function.Injective sha256) (habsent : ∀ bytes, sha256 bytes ≠ absentHash)
    (context : MutationContext) (db : Database π) (hsound : db.Sound sha256)
    (hnew : messageRows db.rows context = []) (start : Files π) (made : List (Mutation π × Nat))
    (hpossible : Run.Along (Turn.step sha256 context)
      (fun turn next => next.1.Possible turn.files) ⟨start, db⟩ made)
    (tree : Directories π) (dirs : List π) (hunnested : Unnested tree dirs start made)
    (workspace : Workspace π μ) (hworkspace : workspace.files = written start made) (now : Nat) :
    (∃ reverted after n,
      revertMessageFileCheckpoints sha256 stamp tree (directoriesAfter tree dirs made)
          (Run.run (Turn.step sha256 context) ⟨start, db⟩ made).db workspace context.chatId
          context.messageId now = (reverted, after, .ok n) ∧
        after.files = start) ↔ Restorable start made := by
  have hmark := mark_injective hinjective habsent
  have hrec := recorded_run hinjective hsound hnew hpossible
  have hfiles := files_run sha256 context start db made
  generalize Run.run (Turn.step sha256 context) ⟨start, db⟩ made = turn at hrec hfiles
  rw [← hfiles] at hworkspace
  rw [hrec.revert_iff hunnested hworkspace, Restorable, ← hfiles]
  have hdecision := decision sha256 workspace.files (expectedPaths (messageRows turn.db.rows context))
  generalize hresult : alreadyReverted sha256 workspace.files
    (expectedPaths (messageRows turn.db.rows context)) = result at hdecision
  rw [hworkspace] at hdecision
  constructor
  · intro ⟨after, n, hrevert, hafter⟩
    obtain ⟨-, ⟨hreverted, rfl⟩ | ⟨hpending, hreplay⟩⟩ := revertSnapshots_ok hrevert
    · -- the files are back already
      obtain rfl := hresult.symm.trans hreverted
      cases hdecision
      grind [Recorded.covered_iff]
    · obtain rfl := hresult.symm.trans hpending
      cases hdecision with
      | pending hall =>
        have hcovered := (hrec.covered_iff hmark).mp hall
        have hrows := undo_of_replay hreplay
        grind [Recorded.replay_iff]
  · intro hrestorable
    rcases hrestorable with hgood | ⟨hstart, path, value, hcovered, hother⟩
    · have hcovered := fun path => (hgood path).2
      have hall := (hrec.covered_iff hmark).mpr hcovered
      have hrows := (hrec.replay_iff hcovered).mpr fun path => (hgood path).1
      cases hdecision with
      | conflict path hconflict =>
        grind
      | reverted _ hsome =>
        obtain ⟨entry, hentry, hnot⟩ := hsome
        rw [hall entry hentry] at hnot
        cases hnot
      | pending _ =>
        have hspec := replay_spec sha256 stamp context.chatId turn.db.blobs
          (messageRows turn.db.rows context).reverse workspace
        rw [hworkspace, hrows] at hspec
        obtain ⟨after, hreplay, hafter⟩ := hspec
        exact ⟨after, _, revertSnapshots_of_pending hresult hreplay, hafter⟩
    · have hall : ∀ entry ∈ expectedPaths (messageRows turn.db.rows context),
          matchesReverted sha256 turn.files entry = true :=
        fun entry hentry => hrec.matchesReverted_of_start hstart hentry
      cases hdecision with
      | conflict path hconflict =>
        grind
      | reverted _ _ =>
        exact ⟨workspace, _, revertSnapshots_of_reverted hresult, hworkspace.trans hstart⟩
      | pending hafter =>
        exact absurd ((hrec.covered_iff hmark).mp hafter path value hcovered) hother

/-! Two files, and a message that overwrites one with the other. -/

def sampleContext : MutationContext := ⟨"chat", "message", "local"⟩

def sampleStart (path : String) : Option Bytes :=
  if path = "/src/a" then some [97] else if path = "/src/b" then some [98] else none

def sampleTree : Directories String where
  above path := if path = "/src/a/b" then ["/src", "/src/a"] else ["/src"]
  refusal _ := ioError "Is a directory (os error 21)"

def sampleOverwrite : List (Mutation String × Nat) :=
  [(.delete "/src/b", 0), (.move "/src/a" "/src/b" [97], 1)]

/-- The revert of the mutations on what they leave. -/
def sampleRevert (made : List (Mutation String × Nat)) :
    Database String × Workspace String Nat × Except RevertError Nat :=
  revertMessageFileCheckpoints sampleHash id sampleTree (directoriesAfter sampleTree ["/src"] made)
    (Run.run (Turn.step sampleHash sampleContext) ⟨sampleStart, {}⟩ made).db
    { files := written sampleStart made } "chat" "message" 3

theorem changesAt_sampleOverwrite {path : String} (h : changesAt sampleOverwrite path ≠ []) :
    path = "/src/a" ∨ path = "/src/b" := by
  by_contra hneither
  obtain ⟨ha, hb⟩ := not_or.mp hneither
  exact h (by simp [changesAt, sampleOverwrite, Mutation.changeAt, Ne.symm ha, Ne.symm hb])

theorem revert_undoes_overwrite :
    ∃ reverted after n, sampleRevert sampleOverwrite = (reverted, after, .ok n) ∧
      after.files = sampleStart := by
  refine (revert_undoes_iff sampleHash id sampleHash_injective sampleHash_ne_absentHash
    sampleContext {} ⟨List.nodup_nil, fun row hrow => absurd hrow List.not_mem_nil, ?_⟩ rfl
    sampleStart sampleOverwrite ?_ sampleTree ["/src"] ⟨?_, ?_, ?_⟩ _ rfl 3).mpr (.inl ?_)
  · intro key bytes hlookup
    cases hlookup
  · exact ⟨Option.some_ne_none [98], ⟨Option.some_ne_none [97], rfl⟩, trivial⟩
  · intro path other hpath hother
    rcases changesAt_sampleOverwrite hpath with rfl | rfl <;>
      rcases changesAt_sampleOverwrite hother with rfl | rfl <;> decide
  · intro path hpath
    rcases changesAt_sampleOverwrite hpath with rfl | rfl <;> decide
  · intro path hpath parent hparent
    rcases changesAt_sampleOverwrite hpath with rfl | rfl <;>
      obtain rfl := List.mem_singleton.mp hparent <;> rfl
  · intro path
    by_cases hnone : changesAt sampleOverwrite path = []
    · rw [hnone]
      exact ⟨rfl, fun value hcovered => (by cases hcovered)⟩
    · rcases changesAt_sampleOverwrite hnone with rfl | rfl
      · exact ⟨rfl, fun value hcovered => (by cases hcovered)⟩
      · refine ⟨rfl, ?_⟩
        intro value hcovered
        exact congrArg some (CellLog.Place.covered.inj hcovered)

/-- A directory is in the way of a file that was deleted and has become the directory of another
one. -/
example : (sampleRevert [(.delete "/src/a", 0), (.create "/src/a/b" [99], 1)]).2.2 matches
    .error (.runtime _) := by decide

/-- An edit of the moved file goes to the row of the file it replaced, and the
message can no longer be reverted. -/
theorem overwrite_then_edit_conflicts :
    Run.Along (Turn.step sampleHash sampleContext) (fun turn next => next.1.Possible turn.files)
        ⟨sampleStart, {}⟩ (sampleOverwrite ++ [(.edit "/src/b" [99], 2)]) ∧
      sampleRevert (sampleOverwrite ++ [(.edit "/src/b" [99], 2)]) =
        ((Run.run (Turn.step sampleHash sampleContext) ⟨sampleStart, {}⟩
            (sampleOverwrite ++ [(.edit "/src/b" [99], 2)])).db,
          { files := written sampleStart (sampleOverwrite ++ [(.edit "/src/b" [99], 2)]) },
          .error (.conflict "/src/b")) := by
  exact ⟨⟨Option.some_ne_none [98], ⟨Option.some_ne_none [97], rfl⟩, Option.some_ne_none [97],
    trivial⟩, rfl⟩

end MangoStudio.Checkpoints
