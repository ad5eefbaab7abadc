import MangoStudio.Checkpoints.Retention
import MangoStudio.Lib.Run

/-!
# Blobs and rows

Whether the rows of the table have their blobs, and the blobs their rows, while
the processes of `MangoStudio.Checkpoints.Retention` take turns.

* `Effect` says what one turn can do to the database, and what becomes of the
  key that the process holds for its row and of the keys that it has yet to
  release.  Every turn is one of these (`Process.turn_effect`).
* `Intact` is the invariant: rows and insertions have their blobs, and a blob
  that a process wrote has a row, an insertion or a deletion that will get to
  it.
* Two turns can break it, and `Hub.Orderly` is what they need.  A blob is
  unlinked after a look at the rows that may be out of date.  And the rows of a
  message are deleted after their keys were read, with all the rows that came
  in between.
-/

namespace MangoStudio.Checkpoints

open Filesystem List

variable {π : Type}

/-! ## What a process stands for -/

/-- The keys that a deletion will look at, now that their rows are gone. -/
def Deletion.pending : Deletion → List String
  | .select _ | .delete _ _ => []
  | .clearSources keys => keys
  | .check key rest | .unlink key rest => key :: rest

/-- The deletion that a process is at, and its chat. -/
def Process.deleting : Process π → Option (String × Deletion)
  | .insertion context _ (.retain (.drop next _ _))
  | .insertion context _ (.retain (.trim next _)) => some (context.chatId, next)
  | .deletion chatId next => some (chatId, next)
  | _ => none

def Process.pending (process : Process π) : List String :=
  process.deleting.elim [] fun deleting => deleting.2.pending

/-- The key of the row that a process is about to insert. -/
def Process.held (sha256 : Bytes → String) : Process π → List String
  | .insertion _ _ (.insertRow content) => (content.map sha256).toList
  | _ => []

/-- A turn that deletes rows knows all their keys, and one that unlinks a blob
does so while nobody has a use for it. -/
def Hub.Orderly (sha256 : Bytes → String) (hub : Hub π) : HubEvent π → Prop
  | .turn i _ => ∀ process, hub.processes[i]? = some process →
    match process.deleting with
    | some (chatId, .delete messageId keys) =>
      ∀ row ∈ hub.db.rows, row.isOf chatId messageId = true →
        ∀ key, row.blobKey = some key → key ∈ keys
    | some (_, .unlink key _) =>
      (∀ row ∈ hub.db.rows, row.blobKey ≠ some key) ∧
        ∀ other ∈ hub.processes, key ∉ other.held sha256
    | _ => True
  | _ => True

/-! ## What a turn does -/

section Effects

variable (sha256 : Bytes → String) (db : Database π) (process : Process π)

inductive Effect : Database π → Process π → Prop
  /-- Nothing but a change of plans. -/
  | quiet {next : Process π} (hheld : process.held sha256 = []) (hnext : next.held sha256 = [])
      (hpending : next.pending = process.pending) (hwrites : process.writes sha256 = []) :
      Effect db next
  | found {next : Process π} (key : String) (hkey : key ∈ db.blobs)
      (hheld : process.held sha256 = []) (hnext : next.held sha256 = [key])
      (hpending : next.pending = process.pending) (hwrites : process.writes sha256 = []) :
      Effect db next
  | wrote {next : Process π} (key : String) (bytes : Bytes) (hheld : process.held sha256 = [])
      (hnext : next.held sha256 = [key]) (hpending : next.pending = process.pending)
      (hwrites : process.writes sha256 = [key]) :
      Effect { db with blobs := db.blobs.insert key bytes } next
  | inserted {next : Process π} (row : FileCheckpoint π)
      (hheld : process.held sha256 = row.blobKey.toList) (hnext : next.held sha256 = [])
      (hpending : next.pending = process.pending) (hwrites : process.writes sha256 = []) :
      Effect { db with rows := db.rows ++ [row], nextId := db.nextId + 1 } next
  | deleted {next : Process π} (chatId messageId : String) (keys : List String)
      (hdeleting : process.deleting = some (chatId, .delete messageId keys))
      (hheld : process.held sha256 = []) (hnext : next.held sha256 = [])
      (hpending : next.pending = keys) (hwrites : process.writes sha256 = []) :
      Effect { db with rows := db.rows.filter fun row => !row.isOf chatId messageId } next
  /-- A key that still has a row is not released. -/
  | spared {next : Process π} (key : String) (hrow : isBlobKeyReferenced db.rows key = true)
      (hheld : process.held sha256 = []) (hnext : next.held sha256 = [])
      (hpending : process.pending = key :: next.pending) (hwrites : process.writes sha256 = []) :
      Effect db next
  | unlinked {next : Process π} (chatId key : String) (rest : List String)
      (hdeleting : process.deleting = some (chatId, .unlink key rest))
      (hheld : process.held sha256 = []) (hnext : next.held sha256 = [])
      (hpending : next.pending = rest) (hwrites : process.writes sha256 = []) :
      Effect { db with blobs := db.blobs.erase key } next

variable {sha256 db process}

theorem pending_releaseCheckpointBlobs (keys : List String) :
    (releaseCheckpointBlobs keys).elim [] Deletion.pending = keys := by
  cases keys with
  | nil | cons => rfl

theorem deletion_effect {chatId : String} {deletion : Deletion} {next : Process π}
    {after : Database π} {left : Option Deletion}
    (hturn : deleteMessageCheckpoints db chatId deletion = (after, left))
    (hdeleting : process.deleting = some (chatId, deletion)) (hheld : process.held sha256 = [])
    (hwrites : process.writes sha256 = []) (hnext : next.held sha256 = [])
    (hpending : next.pending = left.elim [] Deletion.pending) :
    Effect sha256 db process after next := by
  have hprocess : process.pending = deletion.pending := by
    rw [Process.pending, hdeleting]
    rfl
  cases deletion with
  | select messageId =>
    obtain ⟨rfl, rfl⟩ := Prod.mk.inj hturn
    exact .quiet hheld hnext (by rw [hpending, hprocess]; rfl) hwrites
  | delete messageId keys =>
    obtain ⟨rfl, rfl⟩ := Prod.mk.inj hturn
    exact .deleted chatId messageId keys hdeleting hheld hnext hpending hwrites
  | clearSources keys =>
    obtain ⟨rfl, rfl⟩ := Prod.mk.inj hturn
    refine .quiet hheld hnext ?_ hwrites
    rw [hpending, hprocess]
    exact pending_releaseCheckpointBlobs keys
  | check key rest =>
    rw [deleteMessageCheckpoints] at hturn
    split_ifs at hturn with hrow
    · obtain ⟨rfl, rfl⟩ := Prod.mk.inj hturn
      refine .spared key hrow hheld hnext ?_ hwrites
      rw [hprocess, hpending, pending_releaseCheckpointBlobs]
      rfl
    · obtain ⟨rfl, rfl⟩ := Prod.mk.inj hturn
      exact .quiet hheld hnext (by rw [hpending, hprocess]; rfl) hwrites
  | unlink key rest =>
    obtain ⟨rfl, rfl⟩ := Prod.mk.inj hturn
    refine .unlinked chatId key rest hdeleting hheld hnext ?_ hwrites
    rw [hpending]
    exact pending_releaseCheckpointBlobs rest

theorem pending_nextDrop (context : MutationContext) (mutation : RuntimeMutationSnapshot π)
    (byAge toDrop : List String) :
    (Process.insertion context mutation (.retain (nextDrop byAge toDrop))).pending = [] := by
  cases toDrop with
  | nil | cons => rfl

theorem pending_nextTrim {context : MutationContext} {mutation : RuntimeMutationSnapshot π}
    {totalBytes : Nat} {byAge : List String} {retention : Retention}
    (h : nextTrim totalBytes byAge = some retention) :
    (Process.insertion context mutation (.retain retention)).pending = [] := by
  cases byAge with
  | nil => cases h
  | cons messageId byAge =>
    rw [nextTrim] at h
    split_ifs at h
    obtain rfl := Option.some.inj h
    rfl

theorem retention_effect (context : MutationContext) (mutation : RuntimeMutationSnapshot π)
    (retention : Retention) (now : Nat) :
    Effect sha256 db (.insertion context mutation (.retain retention))
      (Process.turn sha256 db now (.insertion context mutation (.retain retention))).1
      (Process.turn sha256 db now (.insertion context mutation (.retain retention))).2 := by
  rw [Process.turn]
  cases retention with
  | list => exact .quiet rfl rfl (pending_nextDrop context mutation _ _) rfl
  | drop deletion toDrop byAge =>
    rw [enforceChatRetention]
    cases hturn : deleteMessageCheckpoints db context.chatId deletion with
    | mk after left =>
      cases left with
      | some next => exact deletion_effect hturn rfl rfl rfl rfl rfl
      | none =>
        exact deletion_effect hturn rfl rfl rfl rfl (pending_nextDrop context mutation _ _)
  | sum byAge => exact .quiet rfl rfl rfl rfl
  | weigh keys byAge =>
    rw [enforceChatRetention]
    cases hnext : nextTrim (keys.map (checkpointBlobSize db.blobs)).sum byAge with
    | some next => exact .quiet rfl rfl (pending_nextTrim hnext) rfl
    | none => exact .quiet rfl rfl rfl rfl
  | trim deletion byAge =>
    rw [enforceChatRetention]
    cases hturn : deleteMessageCheckpoints db context.chatId deletion with
    | mk after left =>
      cases left with
      | some | none => exact deletion_effect hturn rfl rfl rfl rfl rfl

theorem Process.turn_effect (process : Process π) (now : Nat) :
    Effect sha256 db process (process.turn sha256 db now).1 (process.turn sha256 db now).2 := by
  cases process with
  | done => exact .quiet rfl rfl rfl rfl
  | deletion chatId next =>
    rw [Process.turn]
    cases hturn : deleteMessageCheckpoints db chatId next with
    | mk after left =>
      cases left with
      | some | none => exact deletion_effect hturn rfl rfl rfl rfl rfl
  | insertion context mutation next =>
    cases next with
    | look bytes =>
      rw [Process.turn]
      split_ifs with hstored
      · exact .found (sha256 bytes) (AList.lookup_isSome.mp hstored) rfl rfl rfl rfl
      · exact .quiet rfl rfl rfl rfl
    | mkdir bytes => exact .quiet rfl rfl rfl rfl
    | write bytes => exact .wrote (sha256 bytes) bytes rfl rfl rfl rfl
    | insertRow content => exact .inserted _ rfl rfl rfl rfl
    | retain retention => exact retention_effect context mutation retention now

end Effects

/-! ## The invariant -/

structure Intact (sha256 : Bytes → String) (hub : Hub π) : Prop where
  rows : ∀ row ∈ hub.db.rows, ∀ key, row.blobKey = some key → key ∈ hub.db.blobs
  held : ∀ process ∈ hub.processes, ∀ key ∈ process.held sha256, key ∈ hub.db.blobs
  needed : ∀ key ∈ hub.written, key ∈ hub.db.blobs →
    (∃ row ∈ hub.db.rows, row.blobKey = some key) ∨
      ∃ process ∈ hub.processes, key ∈ process.held sha256 ∨ key ∈ process.pending

section Invariant

variable {sha256 : Bytes → String} {hub : Hub π}

theorem Intact.spawn (h : Intact sha256 hub) {process : Process π}
    (hheld : process.held sha256 = []) :
    Intact sha256 { hub with processes := hub.processes ++ [process] } := by
  refine ⟨h.rows, ?_, ?_⟩
  all_goals grind [mem_singleton, mem_append_left, cases Intact]

theorem mem_set_of_mem {processes : List (Process π)} {i : Nat} {process other : Process π}
    (hprocess : processes[i]? = some process) (hother : other ∈ processes) (next : Process π) :
    other = process ∨ other ∈ processes.set i next := by
  obtain ⟨j, hj⟩ := mem_iff_getElem?.mp hother
  by_cases hij : i = j
  · subst hij
    exact .inl (Option.some.inj (hj.symm.trans hprocess))
  · right
    apply mem_iff_getElem?.mpr
    exact ⟨j, by rw [List.getElem?_set_ne hij]; exact hj⟩

variable {i : Nat} {process next : Process π} {after : Database π}

theorem Intact.update (h : Intact sha256 hub) (hprocess : hub.processes[i]? = some process)
    (hrows : ∀ row ∈ after.rows, ∀ key, row.blobKey = some key → key ∈ after.blobs)
    (hheld : ∀ other ∈ hub.processes, ∀ key ∈ other.held sha256, key ∈ after.blobs)
    (hnext : ∀ key ∈ next.held sha256, key ∈ after.blobs)
    (hfresh : ∀ key ∈ after.blobs, key ∈ hub.db.blobs ∨ key ∈ next.held sha256)
    (hwrites : ∀ key ∈ process.writes sha256, key ∈ next.held sha256)
    (hgone : ∀ row ∈ hub.db.rows, ∀ key, row.blobKey = some key →
      (∃ row ∈ after.rows, row.blobKey = some key) ∨ key ∈ next.pending)
    (hgiven : ∀ key ∈ after.blobs, key ∈ process.held sha256 ∨ key ∈ process.pending →
      (∃ row ∈ after.rows, row.blobKey = some key) ∨
        key ∈ next.held sha256 ∨ key ∈ next.pending) :
    Intact sha256
      ⟨after, hub.processes.set i next, hub.written ++ process.writes sha256⟩ := by
  have hlt : i < hub.processes.length := (List.getElem?_eq_some_iff.mp hprocess).1
  have hmem : next ∈ hub.processes.set i next := mem_set hlt next
  refine ⟨hrows, ?_, ?_⟩
  all_goals grind [mem_or_eq_of_mem_set, mem_set_of_mem, cases Intact]

theorem Intact.turn (h : Intact sha256 hub) (hprocess : hub.processes[i]? = some process)
    {now : Nat} (horderly : hub.Orderly sha256 (.turn i now))
    (heffect : Effect sha256 hub.db process after next) :
    Intact sha256
      ⟨after, hub.processes.set i next, hub.written ++ process.writes sha256⟩ := by
  have horderly := horderly process hprocess
  cases heffect with
  | quiet hheld hnext hpending hwrites =>
    grind [Intact.update, cases Intact]
  | found key hstored hheld hnext hpending hwrites =>
    grind [Intact.update, mem_singleton, cases Intact]
  | wrote key bytes hheld hnext hpending hwrites =>
    grind [AList.mem_insert, Intact.update, mem_singleton, mem_singleton_self,
      cases Intact]
  | inserted row hheld hnext hpending hwrites =>
    grind [mem_iff_getElem?, Intact.update, mem_singleton, mem_singleton_self, mem_append_left, mem_append_right, cases Intact]
  | deleted chatId messageId keys hdeleting hheld hnext hpending hwrites =>
    rw [hdeleting] at horderly
    refine h.update hprocess (fun row hrow key hkey => h.rows row (mem_filter.mp hrow).1 key
      hkey) h.held ?_ (fun key hkey => .inl hkey) ?_ ?_ ?_
    · rw [hnext]
      exact fun key hkey => absurd hkey not_mem_nil
    · rw [hwrites]
      exact fun key hkey => absurd hkey not_mem_nil
    · grind
    · have hnone : process.pending = [] := by
        rw [Process.pending, hdeleting]
        rfl
      rw [hheld, hnone]
      intro key _ huse
      rcases huse with hnil | hnil
      · cases hnil
      · cases hnil
  | spared key hrow hheld hnext hpending hwrites =>
    refine h.update hprocess h.rows h.held ?_ (fun key hkey => .inl hkey) ?_ ?_ ?_
    · rw [hnext]
      exact fun key hkey => absurd hkey not_mem_nil
    · rw [hwrites]
      exact fun key hkey => absurd hkey not_mem_nil
    · exact fun row hrow key hkey => .inl ⟨row, hrow, hkey⟩
    · rw [hheld, hpending]
      intro other _ huse
      rcases huse with hnil | huse
      · cases hnil
      rcases mem_cons.mp huse with rfl | hrest
      · obtain ⟨row, hmem, hkey⟩ := any_eq_true.mp hrow
        exact .inl ⟨row, hmem, beq_iff_eq.mp hkey⟩
      · exact .inr (.inr hrest)
  | unlinked chatId key rest hdeleting hheld hnext hpending hwrites =>
    rw [hdeleting] at horderly
    obtain ⟨hunreferenced, hunheld⟩ := horderly
    refine h.update hprocess ?_ ?_ ?_ ?_ ?_ ?_ ?_
    · grind [AList.mem_erase, cases Intact]
    · grind [AList.mem_erase, cases Intact]
    · rw [hnext]
      exact fun key hkey => absurd hkey not_mem_nil
    · exact fun other hother => .inl (AList.mem_erase.mp hother).2
    · rw [hwrites]
      exact fun key hkey => absurd hkey not_mem_nil
    · exact fun row hrow key hkey => .inl ⟨row, hrow, hkey⟩
    · have hprocess : process.pending = key :: rest := by
        rw [Process.pending, hdeleting]
        rfl
      grind [AList.mem_erase]

theorem Intact.step (h : Intact sha256 hub) {event : HubEvent π}
    (horderly : hub.Orderly sha256 event) : Intact sha256 (hub.step sha256 event) := by
  cases event with
  | insert context mutation =>
    rw [Hub.step]
    refine h.spawn ?_
    rw [startInsertion]
    cases (decodeRuntimeSnapshot sha256 mutation.before).bytes with
    | some | none => rfl
  | delete chatId messageId => exact h.spawn rfl
  | turn i now =>
    rw [Hub.step]
    grind [Intact.turn, Process.turn_effect]

end Invariant

theorem orderly_blobs_referenced (sha256 : Bytes → String) (db : Database π)
    (hstart : ∀ row ∈ db.rows, ∀ key, row.blobKey = some key → key ∈ db.blobs)
    (events : List (HubEvent π))
    (horderly : Run.Along (Hub.step sha256) (Hub.Orderly sha256) ⟨db, [], []⟩ events) :
    (∀ row ∈ (Run.run (Hub.step sha256) ⟨db, [], []⟩ events).db.rows, ∀ key,
      row.blobKey = some key →
        key ∈ (Run.run (Hub.step sha256) ⟨db, [], []⟩ events).db.blobs) ∧
    ((Run.run (Hub.step sha256) ⟨db, [], []⟩ events).Quiet →
      ∀ key ∈ (Run.run (Hub.step sha256) ⟨db, [], []⟩ events).written,
        key ∈ (Run.run (Hub.step sha256) ⟨db, [], []⟩ events).db.blobs →
          ∃ row ∈ (Run.run (Hub.step sha256) ⟨db, [], []⟩ events).db.rows,
            row.blobKey = some key) := by
  have hinitial : Intact sha256 (⟨db, [], []⟩ : Hub π) :=
    ⟨hstart, fun process hprocess => absurd hprocess List.not_mem_nil,
      fun key hkey => absurd hkey List.not_mem_nil⟩
  have hintact : Intact sha256 (Run.run (Hub.step sha256) ⟨db, [], []⟩ events) :=
    Run.run_invariant_along (fun _ _ _ h horderly => h.step horderly) hinitial horderly
  refine ⟨hintact.rows, ?_⟩
  intro hquiet key hwritten hblob
  rcases hintact.needed key hwritten hblob with hrow | ⟨process, hprocess, huse⟩
  · exact hrow
  · rw [hquiet process hprocess] at huse
    rcases huse with hheld | hpending
    · cases hheld
    · cases hpending

/-! A file that two chats edit. -/

def sampleEdit (path : String) : RuntimeMutationSnapshot String where
  path := path
  op := .edit
  before := beforeJson sampleHash (some [97])
  afterHash := sampleHash [98]
  moves := by simp

def sampleTurns (process turns : Nat) : List (HubEvent String) :=
  List.replicate turns (.turn process 0)

/-- An insertion from start to end, and then the deletion of its message. -/
def sampleOrderly : List (HubEvent String) :=
  .insert ⟨"chat", "message", "local"⟩ (sampleEdit "/src/a") :: sampleTurns 0 7 ++
    .delete "chat" "message" :: sampleTurns 1 5

theorem orderly_blobs_referenced_delete :
    (Run.run (Hub.step sampleHash) ⟨{}, [], []⟩ sampleOrderly).Quiet ∧
      (Run.run (Hub.step sampleHash) ⟨{}, [], []⟩ sampleOrderly).written = [sampleHash [97]] ∧
      ∀ key ∈ (Run.run (Hub.step sampleHash) ⟨{}, [], []⟩ sampleOrderly).written,
        key ∈ (Run.run (Hub.step sampleHash) ⟨{}, [], []⟩ sampleOrderly).db.blobs →
          ∃ row ∈ (Run.run (Hub.step sampleHash) ⟨{}, [], []⟩ sampleOrderly).db.rows,
            row.blobKey = some key := by
  have hquiet : (Run.run (Hub.step sampleHash) ⟨{}, [], []⟩ sampleOrderly).Quiet := by
    intro process hprocess
    have hmem : process ∈ [Process.done, Process.done] := hprocess
    simpa using hmem
  refine ⟨hquiet, rfl, (orderly_blobs_referenced sampleHash {}
    (fun row hrow => absurd hrow List.not_mem_nil) sampleOrderly ?_).2 hquiet⟩
  have hturn : ∀ {hub : Hub String} {i : Nat} {process : Process String},
      hub.processes[i]? = some process → (∀ chatId messageId keys, process.deleting ≠
        some (chatId, .delete messageId keys)) → (∀ chatId key rest, process.deleting ≠
        some (chatId, .unlink key rest)) → hub.Orderly sampleHash (.turn i 0) := by
    intro hub i process hprocess hdelete hunlink other hother
    obtain rfl := Option.some.inj (hprocess.symm.trans hother)
    split
    · exact absurd ‹_› (hdelete _ _ _)
    · exact absurd ‹_› (hunlink _ _ _)
    · trivial
  refine ⟨trivial, ?_, ?_, ?_, ?_, ?_, ?_, ?_, trivial, ?_, ?_, ?_, ?_, ?_, trivial⟩
  case refine_9 =>
    intro process hprocess
    obtain rfl := Option.some.inj hprocess
    intro row hrow _ key hkey
    obtain rfl := List.mem_singleton.mp hrow
    obtain rfl := Option.some.inj hkey
    exact List.mem_singleton_self _
  case refine_12 =>
    intro process hprocess
    obtain rfl := Option.some.inj hprocess
    refine ⟨fun row hrow => absurd hrow List.not_mem_nil, ?_⟩
    intro other hother
    have hmem : other ∈ [Process.done, .deletion "chat" (.unlink (sampleHash [97]) [])] := hother
    rcases List.mem_cons.mp hmem with rfl | hmem
    · exact List.not_mem_nil
    · obtain rfl := List.mem_singleton.mp hmem
      exact List.not_mem_nil
  all_goals exact hturn rfl (by intros; rintro ⟨⟩) (by intros; rintro ⟨⟩)

/-- The content of `/src/a` as another chat has it. -/
def sampleShared : Database String where
  rows :=
    [{ id := 0, chatId := "other", messageId := "message", environmentId := "local"
       path := "/src/a", op := .edit, beforeHash := some (sampleHash [97])
       afterHash := some (sampleHash [98]), movedTo := none, blobKey := some (sampleHash [97])
       createdAt := 0, moves := by simp }]
  nextId := 1
  blobs := AList.insert (sampleHash [97]) [97] ∅

/-- An insertion finds the blob of the other chat, which is deleted before the
row is inserted. -/
def sampleRace : List (HubEvent String) :=
  .insert ⟨"chat", "message", "local"⟩ (sampleEdit "/src/a") :: .delete "other" "message" ::
    sampleTurns 0 1 ++ sampleTurns 1 5 ++ sampleTurns 0 4

theorem shared_blob_unlinked :
    (∀ row ∈ sampleShared.rows, ∀ key, row.blobKey = some key → key ∈ sampleShared.blobs) ∧
    (Run.run (Hub.step sampleHash) ⟨sampleShared, [], []⟩ sampleRace).Quiet ∧
    ∃ row ∈ (Run.run (Hub.step sampleHash) ⟨sampleShared, [], []⟩ sampleRace).db.rows,
      row.blobKey = some (sampleHash [97]) ∧
        sampleHash [97] ∉
          (Run.run (Hub.step sampleHash) ⟨sampleShared, [], []⟩ sampleRace).db.blobs := by
  refine ⟨?_, ?_, _, List.mem_singleton_self _, rfl, ?_⟩
  · intro row hrow key hkey
    obtain rfl := List.mem_singleton.mp hrow
    obtain rfl := Option.some.inj hkey
    exact (AList.mem_insert _).mpr (.inl rfl)
  · intro process hprocess
    have hmem : process ∈ [Process.done, Process.done] := hprocess
    simpa using hmem
  · exact AList.lookup_eq_none.mp rfl

end MangoStudio.Checkpoints
