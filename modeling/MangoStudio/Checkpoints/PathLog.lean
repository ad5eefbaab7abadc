import MangoStudio.Checkpoints.Rows
import MangoStudio.Lib.CellLog

/-!
# The rows of a message, path by path

The rows of `MangoStudio.Checkpoints.Rows` say something about two paths at
most, and everything that is done with them can be read one path at a time.
`pathLog` is the part of a manifest that is about one path, as an undo log of
`MangoStudio.Lib.CellLog`: a row that starts at the path is a change in place or
a departure, and a row that moves to the path is an arrival.

* `get_finalState` and `get_revertedState`: the two folds that make up the
  expected states are the head and the origin of the logs.
* `replay_spec` and `revertRows_iff`: the replay of the operations succeeds and
  leaves some files if and only if every path's log leads there.
* `matchesAfter_iff` and `matchesReverted_iff`: what the runtime compares, path
  by path.
-/

namespace MangoStudio.Checkpoints

open OrderedMap CellLog Function List Option FileCheckpoint

open Filesystem

variable {π μ : Type} [DecidableEq π]

/-! ## Logs -/

/-- The hash of what is at a path, as the rows write it. -/
def mark (sha256 : Bytes → String) (content : Option Bytes) : String :=
  (content.map sha256).getD absentHash

/-- The content before the row's mutation. -/
def FileCheckpoint.before (blobs : Table String Bytes) (row : FileCheckpoint π) : Option Bytes :=
  row.blobKey.bind blobs.lookup

/-- What a row says about the path it starts at. -/
def FileCheckpoint.start (blobs : Table String Bytes) (row : FileCheckpoint π) :
    CellLog.Entry Bytes String :=
  match row.op with
  | .create => .own none (row.afterHash.getD absentHash)
  | .edit | .delete => .own (some ((row.before blobs).getD [])) (row.afterHash.getD absentHash)
  | .move => .out ((row.before blobs).getD [])

/-- What a row says about a path. -/
def rowEntries (blobs : Table String Bytes) (path : π) (row : FileCheckpoint π) :
    List (CellLog.Entry Bytes String) :=
  (if row.movedTo = some path then [.arrive (row.afterHash.getD absentHash)] else []) ++
    if row.path = path then [row.start blobs] else []

/-- What the rows, by ascending id, say about a path, newest first. -/
def pathLog (blobs : Table String Bytes) (rows : List (FileCheckpoint π)) (path : π) :
    List (CellLog.Entry Bytes String) :=
  rows.reverse.flatMap (rowEntries blobs path)

variable (sha256 : Bytes → String) (blobs : Table String Bytes) (rows : List (FileCheckpoint π))
  (row : FileCheckpoint π) (path : π)

theorem pathLog_concat :
    pathLog blobs (rows ++ [row]) path = rowEntries blobs path row ++ pathLog blobs rows path := by
  rw [pathLog, reverse_concat, flatMap_cons, pathLog]

theorem pathLog_cons :
    pathLog blobs (row :: rows) path = pathLog blobs rows path ++ rowEntries blobs path row := by
  rw [pathLog, reverse_cons, flatMap_append, flatMap_singleton, pathLog]

/-! ## The expected states -/

theorem finalStateByPath_concat :
    finalStateByPath (rows ++ [row]) =
      match row.movedTo with
      | some movedTo =>
        set (set (finalStateByPath rows) row.path absentHash) movedTo
          (row.afterHash.getD absentHash)
      | none => set (finalStateByPath rows) row.path (row.afterHash.getD absentHash) := by
  unfold finalStateByPath
  exact foldl_concat ..

theorem get_finalState :
    get (finalStateByPath rows) path =
      expected (mark sha256) (pathLog blobs rows path) := by
  induction rows using reverseRecOn with
  | nil => rfl
  | append_singleton rows row ih =>
    rw [finalStateByPath_concat, pathLog_concat, rowEntries]
    cases hmoved : row.movedTo with
    | none =>
      rw [get_set, ih, if_neg (some_ne_none path).symm, nil_append]
      by_cases hpath : row.path = path
      · rw [if_pos hpath.symm, if_pos hpath, singleton_append, start]
        have hop : row.op ≠ .move := fun hmove => by simpa [hmoved] using row.moves.mp hmove
        cases hrow : row.op with
        | move => exact absurd hrow hop
        | create | edit | delete => rfl
      · rw [if_neg (Ne.symm hpath), if_neg hpath, nil_append]
    | some movedTo =>
      have hop : row.op = .move := row.moves.mpr (by rw [hmoved]; rfl)
      rw [get_set, get_set, ih]
      by_cases hmovedTo : path = movedTo
      · rw [if_pos hmovedTo, if_pos (by rw [hmovedTo])]
        rfl
      · rw [if_neg hmovedTo, if_neg (fun h => hmovedTo (Option.some.inj h).symm), nil_append]
        by_cases hpath : row.path = path
        · rw [if_pos hpath.symm, if_pos hpath, singleton_append, start, hop]
          rfl
        · rw [if_neg (Ne.symm hpath), if_neg hpath, nil_append]

theorem nodup_finalState : ((finalStateByPath rows).map Prod.fst).Nodup := by
  induction rows using reverseRecOn with
  | nil => exact nodup_nil
  | append_singleton rows row ih =>
    rw [finalStateByPath_concat]
    cases row.movedTo with
    | none => exact nodup_keys_set ih _ _
    | some movedTo => exact nodup_keys_set (nodup_keys_set ih _ _) _ _

/-- The content before the mutation was stored, with its hash. -/
def Captured (sha256 : Bytes → String) (blobs : Table String Bytes) (row : FileCheckpoint π) :
    Prop :=
  row.op ≠ .create → ∃ bytes, row.before blobs = some bytes ∧ row.beforeHash = some (sha256 bytes)

variable {sha256 blobs rows row}

omit [DecidableEq π] in
theorem mark_before_start (hcaptured : Captured sha256 blobs row) :
    mark sha256 (row.start blobs).before =
      if row.op = .create then absentHash else row.beforeHash.getD absentHash := by
  unfold start
  cases hop : row.op with
  | create => rfl
  | edit | delete | move =>
    obtain ⟨bytes, hbytes, hhash⟩ := hcaptured (by rw [hop]; decide)
    rw [if_neg (by decide), hbytes, hhash]
    rfl

theorem get_revertedState (hcaptured : ∀ row ∈ rows, Captured sha256 blobs row) :
    get (revertedStateByPath rows) path =
      (origin (pathLog blobs rows path)).map (mark sha256) := by
  induction rows with
  | nil => rfl
  | cons row rows ih =>
    have ih := ih fun other hother => hcaptured other (mem_cons_of_mem _ hother)
    have hmark := mark_before_start (hcaptured row mem_cons_self)
    have hfold : revertedStateByPath (row :: rows) =
        set
          (match row.movedTo with
          | some movedTo => set (revertedStateByPath rows) movedTo absentHash
          | none => revertedStateByPath rows)
          row.path (if row.op = .create then absentHash else row.beforeHash.getD absentHash) := by
      unfold revertedStateByPath
      rw [reverse_cons]
      exact foldl_concat ..
    rw [hfold, get_set, pathLog_cons, rowEntries, ← hmark]
    by_cases hpath : row.path = path
    · rw [if_pos hpath.symm, if_pos hpath, ← append_assoc, origin, map_append,
        map_singleton, getLast?_concat, map_some]
    · rw [if_neg (Ne.symm hpath), if_neg hpath, append_nil]
      cases hmoved : row.movedTo with
      | none => rw [if_neg (some_ne_none path).symm, append_nil, ih]
      | some movedTo =>
        rw [get_set, ih]
        by_cases hmovedTo : path = movedTo
        · rw [if_pos hmovedTo, if_pos (by rw [hmovedTo]), origin, map_append,
            map_singleton, getLast?_concat, map_some]
          rfl
        · rw [if_neg hmovedTo, if_neg (fun h => hmovedTo (Option.some.inj h).symm),
            append_nil]

/-! ## The replay -/

/-- The operation that takes a captured row back. -/
def FileCheckpoint.operation (blobs : Table String Bytes) (row : FileCheckpoint π) :
    SnapshotRevertOperation π :=
  let content := Base64.encode ((row.before blobs).getD [])
  match row.op, row.movedTo with
  | .create, _ => .create row.path
  | .move, some movedTo => .move row.path movedTo content
  | _, _ => .restore row.path content

section Replay

variable [ToString π]

omit [DecidableEq π] in
theorem revertOperation_of_captured (hcaptured : Captured sha256 blobs row) :
    revertOperation blobs row = .ok (row.operation blobs) := by
  have hblob : row.op ≠ .create →
      readRequiredBlob blobs row = .ok (Base64.encode ((row.before blobs).getD [])) := by
    intro hop
    obtain ⟨bytes, hbytes, -⟩ := hcaptured hop
    rw [hbytes, readRequiredBlob]
    obtain ⟨key, hkey, hlookup⟩ := bind_eq_some_iff.mp hbytes
    simp [hkey, hlookup]
  unfold revertOperation operation
  cases hop : row.op with
  | create => rfl
  | edit | delete => simp only [hblob (by rw [hop]; decide), pure, Except.pure, bind, Except.bind]
  | move =>
    obtain ⟨movedTo, hmovedTo⟩ := isSome_iff_exists.mp (row.moves.mp hop)
    simp only [hmovedTo, hblob (by rw [hop]; decide), pure, Except.pure, bind, Except.bind]

omit [DecidableEq π] in
theorem buildRevertOperations_of_captured
    (hcaptured : ∀ row ∈ rows, Captured sha256 blobs row) :
    buildRevertOperations blobs rows =
      .ok (rows.reverse.map (operation blobs)) := by
  have hall : ∀ list : List (FileCheckpoint π), (∀ row ∈ list, Captured sha256 blobs row) →
      list.mapM (revertOperation blobs) = .ok (list.map (operation blobs)) := by
    intro list
    induction list with
    | nil => exact fun _ => rfl
    | cons row list ih =>
      intro hlist
      rw [mapM_cons, revertOperation_of_captured (hlist row mem_cons_self),
        ih fun other hother => hlist other (mem_cons_of_mem _ hother)]
      rfl
  exact hall _ fun row hrow => hcaptured row (mem_reverse.mp hrow)

/-- What the operation of a row does to the files. -/
def revertRow (blobs : Table String Bytes) (files : Files π) (row : FileCheckpoint π) :
    Option (Files π) :=
  let content := (row.before blobs).getD []
  match row.op, row.movedTo with
  | .create, _ => some (Function.update files row.path none)
  | .move, some movedTo =>
    if (files movedTo).isSome ∧ files row.path = none then
      some (Function.update (Function.update files movedTo none) row.path (some content))
    else none
  | _, _ => some (Function.update files row.path (some content))

omit [ToString π] in
theorem files_restoreBytes (sha256 : Bytes → String) (stamp : Nat → μ) (chatId : String)
    (workspace : Workspace π μ) (path : π) (bytes : Bytes) :
    ∃ after, restoreBytes sha256 stamp chatId workspace path (Base64.encode bytes) =
        (after, .ok ()) ∧
      after.files = update workspace.files path (some bytes) := by
  refine ⟨_, rfl, ?_⟩
  show update workspace.files path (some (decodeNodeBase64 (Base64.encode bytes))) = _
  rw [decodeNodeBase64_encode]

variable (sha256 : Bytes → String) (stamp : Nat → μ) (chatId : String)
  (blobs : Table String Bytes)

theorem replayOperation_spec (workspace : Workspace π μ) (row : FileCheckpoint π) :
    match revertRow blobs workspace.files row with
    | some files => ∃ after, replayOperation sha256 stamp chatId workspace (row.operation blobs) =
        (after, .ok ()) ∧ after.files = files
    | none => ∃ after error, replayOperation sha256 stamp chatId workspace (row.operation blobs) =
        (after, .error error) := by
  unfold revertRow operation
  cases hop : row.op with
  | create =>
    simp only [replayOperation, removeCreatedFile, deleteFile]
    cases hfile : workspace.files row.path with
    | none =>
      have hsame : update workspace.files row.path none = workspace.files := by
        rw [← hfile, update_eq_self]
      exact ⟨_, rfl, hsame.symm⟩
    | some bytes => exact ⟨_, rfl, rfl⟩
  | edit | delete =>
    simp only [replayOperation]
    exact files_restoreBytes sha256 stamp chatId workspace row.path _
  | move =>
    obtain ⟨movedTo, hmovedTo⟩ := isSome_iff_exists.mp (row.moves.mp hop)
    simp only [hmovedTo, replayOperation, assertRegular, moveNoOverwrite]
    cases hsource : workspace.files movedTo with
    | none =>
      simp only [isSome_none, Bool.false_eq_true, false_and, if_false]
      exact ⟨_, _, rfl⟩
    | some moved =>
      simp only [isSome_some, true_and]
      cases htarget : workspace.files row.path with
      | some other =>
        rw [if_neg (some_ne_none other)]
        exact ⟨_, _, rfl⟩
      | none =>
        rw [if_pos rfl]
        obtain ⟨after, hafter, hfiles⟩ := files_restoreBytes sha256 stamp chatId
          { workspace with
            files := update (update workspace.files movedTo none) row.path
              (some moved)
            ledger := workspace.ledger.rekey chatId movedTo row.path } row.path
          ((row.before blobs).getD [])
        refine ⟨after, hafter, ?_⟩
        rw [hfiles, update_idem]

/-- The same for a list of rows, newest first. -/
def revertRows (blobs : Table String Bytes) : List (FileCheckpoint π) → Files π → Option (Files π)
  | [], files => some files
  | row :: rest, files => (revertRow blobs files row).bind (revertRows blobs rest)

theorem replay_spec (rows : List (FileCheckpoint π)) (workspace : Workspace π μ) :
    match revertRows blobs rows workspace.files with
    | some files => ∃ after, replay sha256 stamp chatId workspace
        (rows.map (operation blobs)) = (after, .ok ()) ∧ after.files = files
    | none => ∃ after error, replay sha256 stamp chatId workspace
        (rows.map (operation blobs)) = (after, .error error) := by
  induction rows generalizing workspace with
  | nil => exact ⟨workspace, rfl, rfl⟩
  | cons row rows ih =>
    have hstep := replayOperation_spec sha256 stamp chatId blobs workspace row
    rw [revertRows, map_cons, replay]
    cases hrow : revertRow blobs workspace.files row with
    | none =>
      rw [hrow] at hstep
      obtain ⟨after, error, herror⟩ := hstep
      rw [herror]
      exact ⟨after, error, rfl⟩
    | some files =>
      rw [hrow] at hstep
      obtain ⟨next, hok, hfiles⟩ := hstep
      rw [hok, bind_some, ← hfiles]
      exact ih next

/-! ## Path by path -/

end Replay

section Paths

variable {blobs : Table String Bytes} {files after : Files π} {row : FileCheckpoint π}

theorem undo_plain {content : Option Bytes} (hmoved : row.movedTo = none)
    (hstart : ∃ mark, row.start blobs = .own content mark) (path : π)
    (older : List (CellLog.Entry Bytes String)) :
    undo (rowEntries blobs path row ++ older) (files path) =
      undo older (update files row.path content path) := by
  obtain ⟨mark, hmark⟩ := hstart
  rw [rowEntries, hmoved, if_neg (some_ne_none path).symm, nil_append]
  by_cases hpath : row.path = path
  · rw [if_pos hpath, singleton_append, hmark, ← hpath, update_self]
    rfl
  · rw [if_neg hpath, nil_append, update_of_ne (Ne.symm hpath)]

omit [DecidableEq π] in
theorem movedTo_eq_none (hop : row.op ≠ .move) : row.movedTo = none := by
  cases hmoved : row.movedTo with
  | none => rfl
  | some movedTo => exact absurd (row.moves.mpr (by rw [hmoved]; rfl)) hop

theorem undo_revertRow (h : revertRow blobs files row = some after) (path : π)
    (older : List (CellLog.Entry Bytes String)) :
    undo (rowEntries blobs path row ++ older) (files path) =
      undo older (after path) := by
  unfold revertRow at h
  cases hop : row.op with
  | create | edit | delete =>
    simp only [hop, Option.some.injEq] at h
    rw [← h]
    exact undo_plain (movedTo_eq_none (by rw [hop]; decide))
      ⟨_, by rw [start, hop]⟩ path older
  | move =>
    obtain ⟨movedTo, hmovedTo⟩ := isSome_iff_exists.mp (row.moves.mp hop)
    simp only [hop, hmovedTo] at h
    split_ifs at h with hends
    obtain rfl := Option.some.inj h
    obtain ⟨moved, hmoved⟩ := isSome_iff_exists.mp hends.1
    have hne : movedTo ≠ row.path := by
      intro heq
      rw [heq, hends.2] at hmoved
      cases hmoved
    rw [rowEntries, hmovedTo, start, hop]
    by_cases hpath : row.path = path
    · subst hpath
      rw [if_neg (fun heq => hne (Option.some.inj heq)), if_pos rfl, hends.2,
        update_self]
      rfl
    · by_cases harrive : movedTo = path
      · subst harrive
        rw [if_pos rfl, if_neg hpath, hmoved, update_of_ne hne, update_self]
        rfl
      · rw [if_neg (fun heq => harrive (Option.some.inj heq)), if_neg hpath,
          update_of_ne (Ne.symm hpath), update_of_ne (Ne.symm harrive)]
        rfl

theorem undo_stuck (h : revertRow blobs files row = none) (hne : row.movedTo ≠ some row.path) :
    ∃ path, ∀ older, undo (rowEntries blobs path row ++ older) (files path) = none := by
  unfold revertRow at h
  cases hop : row.op with
  | create | edit | delete => simp [hop] at h
  | move =>
    obtain ⟨movedTo, hmovedTo⟩ := isSome_iff_exists.mp (row.moves.mp hop)
    simp only [hop, hmovedTo] at h
    split_ifs at h with hends
    rw [hmovedTo, ne_eq, Option.some.injEq] at hne
    by_cases hsource : (files movedTo).isSome
    · -- the path is taken
      refine ⟨row.path, fun older => ?_⟩
      obtain ⟨other, hother⟩ := ne_none_iff_exists'.mp fun hfree => hends ⟨hsource, hfree⟩
      rw [rowEntries, hmovedTo, if_neg (fun heq => hne (Option.some.inj heq)), if_pos rfl,
        start, hop, hother]
      rfl
    · -- the moved file is gone
      refine ⟨movedTo, fun older => ?_⟩
      rw [rowEntries, hmovedTo, if_pos rfl, if_neg (Ne.symm hne),
        not_isSome_iff_eq_none.mp hsource]
      rfl

theorem undo_revertRows {rows : List (FileCheckpoint π)} {files after : Files π}
    (h : revertRows blobs rows files = some after) (path : π) :
    undo (rows.flatMap (rowEntries blobs path)) (files path) = some (after path) := by
  induction rows generalizing files with
  | nil =>
    obtain rfl := Option.some.inj h
    rfl
  | cons row rows ih =>
    obtain ⟨next, hrow, hrest⟩ := bind_eq_some_iff.mp h
    rw [flatMap_cons, undo_revertRow hrow]
    exact ih hrest

theorem revertRows_iff {rows : List (FileCheckpoint π)} {files after : Files π}
    (hne : ∀ row ∈ rows, row.movedTo ≠ some row.path) :
    revertRows blobs rows files = some after ↔
      ∀ path, undo (rows.flatMap (rowEntries blobs path)) (files path) =
        some (after path) := by
  constructor
  · exact fun h path => undo_revertRows h path
  · intro h
    induction rows generalizing files with
    | nil =>
      have hsame : files = after := funext fun path => Option.some.inj (h path)
      rw [revertRows, hsame]
    | cons row rows ih =>
      rw [revertRows]
      cases hrow : revertRow blobs files row with
      | none =>
        obtain ⟨path, hstuck⟩ := undo_stuck hrow (hne row mem_cons_self)
        have hpath := h path
        rw [flatMap_cons, hstuck] at hpath
        cases hpath
      | some next =>
        refine ih (fun other hother => hne other (mem_cons_of_mem _ hother)) fun path => ?_
        rw [← undo_revertRow hrow path, ← flatMap_cons]
        exact h path

end Paths

/-! ## What the runtime compares -/

theorem mark_injective {sha256 : Bytes → String} (hinjective : Function.Injective sha256)
    (habsent : ∀ bytes, sha256 bytes ≠ absentHash) : Function.Injective (mark sha256) := by
  intro first second heq
  cases first with
  | none =>
    cases second with
    | none => rfl
    | some bytes => exact absurd heq.symm (habsent bytes)
  | some bytes =>
    cases second with
    | none => exact absurd heq (habsent bytes)
    | some other => rw [hinjective heq]

/-- An injective hash to evaluate the model with. -/
def sampleHash (bytes : Bytes) : String := "#" ++ Base64.encode bytes

theorem sampleHash_injective : Function.Injective sampleHash := by
  intro first second heq
  have hencode : Base64.encode first = Base64.encode second :=
    String.append_right_inj "#" |>.mp heq
  rw [← decodeNodeBase64_encode first, hencode, decodeNodeBase64_encode]

theorem sampleHash_ne_absentHash (bytes : Bytes) : sampleHash bytes ≠ absentHash := by
  intro heq
  have hlist := congrArg String.toList heq
  rw [sampleHash, String.toList_append] at hlist
  have hhead := congrArg head? hlist
  cases hhead

section Compare

variable {sha256 : Bytes → String} {blobs : Table String Bytes} {rows : List (FileCheckpoint π)}
  {entry : SnapshotExpectedPath π}

theorem expected_of_mem (blobs : Table String Bytes) (hentry : entry ∈ expectedPaths rows) :
    expected (mark sha256) (pathLog blobs rows entry.path) = some entry.afterHash := by
  obtain ⟨⟨path, afterHash⟩, hmem, rfl⟩ := mem_map.mp hentry
  rw [← get_finalState]
  exact (mem_iff_get (nodup_finalState rows)).mp hmem

theorem pathLog_ne_nil (blobs : Table String Bytes) (hentry : entry ∈ expectedPaths rows) :
    pathLog blobs rows entry.path ≠ [] := by
  intro hnil
  have hexpected : expected (mark fun _ => "") (pathLog blobs rows entry.path) = _ :=
    expected_of_mem blobs hentry
  rw [hnil] at hexpected
  cases hexpected

theorem exists_mem_expectedPaths {path : π} (hne : pathLog blobs rows path ≠ []) :
    ∃ entry ∈ expectedPaths rows, entry.path = path := by
  have hsome : ∃ afterHash, expected (mark fun _ => "") (pathLog blobs rows path) =
      some afterHash := by
    cases hlog : pathLog blobs rows path with
    | nil => exact absurd hlog hne
    | cons head older => cases head <;> exact ⟨_, rfl⟩
  obtain ⟨afterHash, hafter⟩ := hsome
  rw [← get_finalState] at hafter
  have hmem := (mem_iff_get (nodup_finalState rows)).mpr hafter
  exact ⟨_, mem_map_of_mem hmem, rfl⟩

theorem matchesAfter_iff (files : Files π) (hentry : entry ∈ expectedPaths rows) :
    matchesAfter sha256 files entry = true ↔
      CellLog.Matches (mark sha256) (pathLog blobs rows entry.path) (files entry.path) := by
  have hexpected : expected (mark sha256) (pathLog blobs rows entry.path) = _ :=
    expected_of_mem blobs hentry
  rw [matchesAfter, beq_iff_eq]
  constructor
  · intro hobserved other hother
    rw [hexpected, Option.some.injEq] at hother
    rw [← hother, ← hobserved]
    rfl
  · intro hmatches
    exact (hmatches _ hexpected).symm

theorem matchesReverted_iff (files : Files π)
    (hcaptured : ∀ row ∈ rows, Captured sha256 blobs row) (hentry : entry ∈ expectedPaths rows) :
    matchesReverted sha256 files entry = true ↔
      (origin (pathLog blobs rows entry.path)).map (mark sha256) =
        some (mark sha256 (files entry.path)) := by
  obtain ⟨state, -, hstate⟩ := mem_map.mp hentry
  have hreverted : entry.revertedHash =
      (origin (pathLog blobs rows entry.path)).map (mark sha256) := by
    rw [← hstate, get_revertedState _ hcaptured]
  rw [matchesReverted, hreverted, Option.any_eq_true]
  constructor
  · intro ⟨hash, horigin, hobserved⟩
    rw [horigin, ← beq_iff_eq.mp hobserved]
    rfl
  · intro horigin
    exact ⟨_, horigin, beq_iff_eq.mpr rfl⟩

end Compare

end MangoStudio.Checkpoints
