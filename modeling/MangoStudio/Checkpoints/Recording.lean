import MangoStudio.Checkpoints.PathLog
import MangoStudio.Lib.Run

/-!
# Recording a message

The mutations of an assistant message, each recorded in order, and what the
manifest then says about every path.

* `amend_pathLog`: the row that a mutation finds is the entry that the log of
  its path amends.  The row may be covered by the row of a later move to the
  path, and is found all the same.
* `messageLog_persist`: a recorded mutation changes the log of every path as
  `CellLog.record` says.
* `Recorded` is the invariant of a message: each path's log is tracked from the
  file that was there at the start (`recorded_run`).
-/

namespace MangoStudio.Checkpoints

open Filesystem List Option Function FileCheckpoint

variable {π μ : Type} [DecidableEq π]

/-! ## Mutations -/

/-- A mutation that succeeded.  An overwrite is an edit, and a move leaves its
content at the target, rewritten or not. -/
inductive Mutation (π : Type) where
  | create (path : π) (content : Bytes)
  | edit (path : π) (content : Bytes)
  | delete (path : π)
  | move (path target : π) (content : Bytes)

/-- The content before a mutation as the runtime reports it. -/
def beforeJson (sha256 : Bytes → String) : Option Bytes → RuntimeBeforeSnapshot
  | none => { isPresent := false }
  | some bytes =>
    { isPresent := true, contentBase64 := some (Base64.encode bytes), hash := some (sha256 bytes) }

namespace Mutation

def apply (files : Files π) : Mutation π → Files π
  | .create path content | .edit path content => Function.update files path (some content)
  | .delete path => Function.update files path none
  | .move path target content =>
    Function.update (Function.update files path none) target (some content)

/-- What the runtime makes sure of before it changes anything. -/
def Possible (files : Files π) : Mutation π → Prop
  | .create path _ => files path = none
  | .edit path _ | .delete path => files path ≠ none
  | .move path target _ => files path ≠ none ∧ files target = none

/-- What the runtime reports. -/
def snapshot (sha256 : Bytes → String) (files : Files π) :
    Mutation π → RuntimeMutationSnapshot π
  | .create path content =>
    { path, op := .create, before := beforeJson sha256 none, afterHash := sha256 content
      moves := by simp }
  | .edit path content =>
    { path, op := .edit, before := beforeJson sha256 (files path), afterHash := sha256 content
      moves := by simp }
  | .delete path =>
    { path, op := .delete, before := beforeJson sha256 (files path), afterHash := absentHash
      moves := by simp }
  | .move path target content =>
    { path, op := .move, before := beforeJson sha256 (files path), afterHash := sha256 content
      movedTo := some target, moves := by simp }

/-- What a mutation is for one path. -/
def changeAt (path : π) : Mutation π → Option (CellLog.Change Bytes)
  | .create own content | .edit own content =>
    if own = path then some (.own (some content)) else none
  | .delete own => if own = path then some (.own none) else none
  | .move source target content =>
    if source = path then some .out
    else if target = path then some (.arrive content)
    else none

end Mutation

/-! ## Rows and entries -/

/-- The rows of a message. -/
def messageRows (rows : List (FileCheckpoint π)) (context : MutationContext) :
    List (FileCheckpoint π) :=
  rows.filter fun row => row.isOf context.chatId context.messageId

/-- The latest row that starts at a path. -/
def latestAt (rows : List (FileCheckpoint π)) (path : π) : Option (FileCheckpoint π) :=
  (rows.filter fun row => row.path = path).getLast?

theorem findCheckpointRow_eq (rows : List (FileCheckpoint π)) (context : MutationContext)
    (path : π) :
    findCheckpointRow rows context.chatId context.messageId path =
      (latestAt (messageRows rows context) path).filter fun row => row.movedTo.isNone := by
  have hfilter : (rows.filter fun row => row.isOf context.chatId context.messageId &&
      decide (row.path = path)) =
      (messageRows rows context).filter fun row => row.path = path := by
    rw [messageRows, List.filter_filter]
    congr 1
    funext row
    rw [Bool.and_comm]
  rw [findCheckpointRow, hfilter, latestAt]
  cases ((messageRows rows context).filter fun row => row.path = path).getLast? with
  | none | some => rfl

theorem latestAt_concat (rows : List (FileCheckpoint π)) (row : FileCheckpoint π) (path : π) :
    latestAt (rows ++ [row]) path = if row.path = path then some row else latestAt rows path := by
  rw [latestAt, filter_append, latestAt]
  grind

variable {rows : List (FileCheckpoint π)} {row : FileCheckpoint π}

theorem mem_of_latestAt {path : π}
    (h : latestAt rows path = some row) : row ∈ rows ∧ row.path = path := by
  have hmem := mem_filter.mp (mem_of_getLast? h)
  exact ⟨hmem.1, by simpa using hmem.2⟩

omit [DecidableEq π] in
theorem updateCheckpointAfterHash_concat (rows : List (FileCheckpoint π)) (row : FileCheckpoint π)
    (id : Nat) (afterHash : Option String) :
    updateCheckpointAfterHash (rows ++ [row]) id afterHash =
      updateCheckpointAfterHash rows id afterHash ++
        [if row.id = id then { row with afterHash } else row] := by
  rw [updateCheckpointAfterHash, map_append, map_singleton, updateCheckpointAfterHash]

omit [DecidableEq π] in
theorem updateCheckpointAfterHash_of_ne {id : Nat} (hne : ∀ row ∈ rows, row.id ≠ id)
    (afterHash : Option String) :
    updateCheckpointAfterHash rows id afterHash = rows := by
  rw [updateCheckpointAfterHash]
  conv_rhs => rw [← map_id rows]
  apply map_congr_left
  intro row hrow
  rw [if_neg (hne row hrow)]
  rfl

theorem amend_pathLog (hids : (rows.map FileCheckpoint.id).Nodup)
    (hne : ∀ row ∈ rows, row.movedTo ≠ some row.path) (blobs : Table String Bytes) (path : π)
    (hash : String) :
    CellLog.amend hash (pathLog blobs rows path) =
      ((latestAt rows path).filter fun row => row.movedTo.isNone).map fun row =>
        pathLog blobs (updateCheckpointAfterHash rows row.id (some hash)) path := by
  induction rows using reverseRecOn with
  | nil => rfl
  | append_singleton rows row ih =>
    rw [map_append, map_singleton, nodup_append] at hids
    have hfresh : ∀ other ∈ rows, other.id ≠ row.id := fun other hother =>
      hids.2.2 _ (List.mem_map_of_mem hother) _ (mem_singleton_self _)
    have ih := ih hids.1 fun other hother => hne other (mem_append_left _ hother)
    have hself := hne row (mem_append_right _ (mem_singleton_self _))
    rw [latestAt_concat, pathLog_concat, rowEntries]
    by_cases hpath : row.path = path
    · rw [if_pos hpath, if_pos hpath, if_neg (by rw [← hpath]; exact hself), nil_append,
        List.singleton_append]
      cases hop : row.op with
      | move =>
        obtain ⟨movedTo, hmovedTo⟩ := isSome_iff_exists.mp (row.moves.mp hop)
        rw [start, hop, filter_some, hmovedTo]
        rfl
      | create | edit | delete =>
        have hmoved : row.movedTo = none := movedTo_eq_none (by rw [hop]; decide)
        rw [start, hop, filter_some, hmoved, isNone_none, if_pos rfl,
          map_some, updateCheckpointAfterHash_concat,
          updateCheckpointAfterHash_of_ne hfresh, if_pos rfl, pathLog_concat, rowEntries]
        simp [hmoved, hpath, start, before, hop, CellLog.amend]
    · rw [if_neg hpath, if_neg hpath, append_nil]
      have hlatest : ((latestAt rows path).filter fun row => row.movedTo.isNone).map (fun found =>
          pathLog blobs (updateCheckpointAfterHash (rows ++ [row]) found.id (some hash)) path) =
          ((latestAt rows path).filter fun row => row.movedTo.isNone).map fun found =>
            rowEntries blobs path row ++
              pathLog blobs (updateCheckpointAfterHash rows found.id (some hash)) path := by
        apply Option.map_congr
        intro found hfound
        have hmem := (mem_of_latestAt (mem_filter_iff.mp hfound).1).1
        rw [updateCheckpointAfterHash_concat, if_neg (hfresh found hmem).symm, pathLog_concat]
      rw [hlatest, rowEntries, if_neg hpath, append_nil]
      by_cases hmoved : row.movedTo = some path
      · rw [if_pos hmoved, List.singleton_append, CellLog.amend, ih, Option.map_map]
        rfl
      · rw [if_neg hmoved, nil_append, ih]
        rfl

theorem pathLog_update_of_ne (hids : (rows.map FileCheckpoint.id).Nodup)
    (hrow : row ∈ rows) (hmoved : row.movedTo = none) {path : π} (hpath : row.path ≠ path)
    (blobs : Table String Bytes) (afterHash : Option String) :
    pathLog blobs (updateCheckpointAfterHash rows row.id afterHash) path =
      pathLog blobs rows path := by
  rw [pathLog, updateCheckpointAfterHash, ← map_reverse, flatMap_map, pathLog]
  apply flatMap_congr
  intro other hother
  by_cases hid : other.id = row.id
  · obtain rfl := inj_on_of_nodup_map hids (mem_reverse.mp hother) hrow hid
    rw [if_pos rfl, rowEntries, rowEntries]
    simp [hmoved, hpath]
  · rw [if_neg hid]

/-! ## Recording -/

section Record

variable {sha256 : Bytes → String}

theorem decodeRuntimeSnapshot_beforeJson (sha256 : Bytes → String) (content : Option Bytes) :
    decodeRuntimeSnapshot sha256 (beforeJson sha256 content) =
      .ok content (content.map sha256) := by
  cases content with
  | none => rfl
  | some bytes =>
    simp [decodeRuntimeSnapshot, beforeJson, decodeNodeBase64_encode]

/-- The blobs are stored under their hashes. -/
def Addressed (sha256 : Bytes → String) (blobs : Table String Bytes) : Prop :=
  ∀ key bytes, blobs.lookup key = some bytes → sha256 bytes = key

/-- The blobs after the content of a mutation is stored. -/
def storeContent (sha256 : Bytes → String) (blobs : Table String Bytes) (content : Option Bytes) :
    Table String Bytes :=
  content.elim blobs (storeCheckpointBlob sha256 blobs)

variable {blobs : Table String Bytes}

theorem lookup_storeContent_of_some {key : String} {bytes : Bytes}
    (h : blobs.lookup key = some bytes) (content : Option Bytes) :
    (storeContent sha256 blobs content).lookup key = some bytes := by
  cases content with
  | none => exact h
  | some other =>
    show (storeCheckpointBlob sha256 blobs other).lookup key = some bytes
    rw [storeCheckpointBlob]
    grind [AList.lookup_insert_ne]

theorem lookup_storeContent_self (hinjective : Function.Injective sha256)
    (haddressed : Addressed sha256 blobs) (bytes : Bytes) :
    (storeContent sha256 blobs (some bytes)).lookup (sha256 bytes) = some bytes := by
  show (storeCheckpointBlob sha256 blobs bytes).lookup (sha256 bytes) = some bytes
  rw [storeCheckpointBlob]
  split_ifs with hstored
  · obtain ⟨stored, hlookup⟩ := isSome_iff_exists.mp hstored
    rw [hlookup, hinjective (haddressed _ _ hlookup)]
  · exact AList.lookup_insert blobs

theorem Addressed.storeContent (h : Addressed sha256 blobs)
    (content : Option Bytes) : Addressed sha256 (storeContent sha256 blobs content) := by
  cases content with
  | none => exact h
  | some other =>
    intro key bytes hlookup
    change (storeCheckpointBlob sha256 blobs other).lookup key = some bytes at hlookup
    rw [storeCheckpointBlob] at hlookup
    split_ifs at hlookup with hstored
    · exact h key bytes hlookup
    · by_cases hkey : key = sha256 other
      · rw [hkey, AList.lookup_insert, some.injEq] at hlookup
        rw [hkey, hlookup]
      · rw [AList.lookup_insert_ne hkey] at hlookup
        exact h key bytes hlookup

/-- The row of a mutation that finds none. -/
def newRow (sha256 : Bytes → String) (db : Database π) (context : MutationContext)
    (mutation : RuntimeMutationSnapshot π) (content : Option Bytes) (now : Nat) :
    FileCheckpoint π where
  id := db.nextId
  chatId := context.chatId
  messageId := context.messageId
  environmentId := context.environmentId
  path := mutation.path
  op := mutation.op
  beforeHash := content.map sha256
  afterHash := some mutation.afterHash
  movedTo := mutation.movedTo
  blobKey := content.map sha256
  createdAt := now
  moves := mutation.moves

variable {db : Database π} {context : MutationContext} {mutation : RuntimeMutationSnapshot π}
  {content : Option Bytes}

theorem persistRuntimeMutation_new (hbefore : mutation.before = beforeJson sha256 content)
    (hnone : mutation.op = .move ∨
      findCheckpointRow db.rows context.chatId context.messageId mutation.path = none)
    (now : Nat) :
    persistRuntimeMutation sha256 db context mutation now =
      { rows := db.rows ++ [newRow sha256 db context mutation content now]
        nextId := db.nextId + 1
        blobs := storeContent sha256 db.blobs content } := by
  have hexisting : (if mutation.op = .move then none
      else findCheckpointRow db.rows context.chatId context.messageId mutation.path) = none := by
    rcases hnone with hmove | hfind
    · rw [if_pos hmove]
    · rw [hfind, ite_self]
  simp only [persistRuntimeMutation, hexisting, hbefore, decodeRuntimeSnapshot_beforeJson]
  rfl

theorem persistRuntimeMutation_found (hop : mutation.op ≠ .move)
    (hfind : findCheckpointRow db.rows context.chatId context.messageId mutation.path = some row)
    (now : Nat) :
    persistRuntimeMutation sha256 db context mutation now =
      { db with rows := updateCheckpointAfterHash db.rows row.id (some mutation.afterHash) } := by
  simp [persistRuntimeMutation, if_neg hop, hfind]

omit [DecidableEq π] in
theorem messageRows_concat (rows : List (FileCheckpoint π))
    (hrow : row.isOf context.chatId context.messageId = true) :
    messageRows (rows ++ [row]) context = messageRows rows context ++ [row] := by
  have hself : [row].filter (fun row => row.isOf context.chatId context.messageId) = [row] :=
    filter_cons_of_pos hrow
  rw [messageRows, filter_append, hself, messageRows]

omit [DecidableEq π] in
theorem messageRows_update (rows : List (FileCheckpoint π)) (id : Nat) (hash : Option String) :
    messageRows (updateCheckpointAfterHash rows id hash) context =
      updateCheckpointAfterHash (messageRows rows context) id hash := by
  rw [messageRows, updateCheckpointAfterHash, List.filter_map, updateCheckpointAfterHash,
    messageRows]
  congr 2
  funext row
  show isOf (if row.id = id then _ else _) _ _ = _
  split_ifs <;> rfl

omit [DecidableEq π] in
theorem newRow_isOf (now : Nat) :
    (newRow sha256 db context mutation content now).isOf context.chatId context.messageId =
      true := by
  simp [newRow, isOf]

theorem pathLog_storeContent {rows : List (FileCheckpoint π)}
    (hcaptured : ∀ row ∈ rows, Captured sha256 blobs row) (content : Option Bytes) (path : π) :
    pathLog (storeContent sha256 blobs content) rows path = pathLog blobs rows path := by
  rw [pathLog, pathLog]
  apply flatMap_congr
  intro row hrow
  have hstart : row.start (storeContent sha256 blobs content) = row.start blobs := by
    rw [start, start]
    by_cases hop : row.op = .create
    · rw [hop]
    · obtain ⟨bytes, hbytes, -⟩ := hcaptured row (mem_reverse.mp hrow) hop
      obtain ⟨key, hkey, hlookup⟩ := bind_eq_some_iff.mp hbytes
      have hsame : row.before (storeContent sha256 blobs content) = some bytes := by
        rw [before, hkey, bind_some]
        exact lookup_storeContent_of_some hlookup content
      rw [hsame, hbytes]
  rw [rowEntries, rowEntries, hstart]

omit [DecidableEq π] in
theorem before_newRow (hinjective : Function.Injective sha256)
    (haddressed : Addressed sha256 db.blobs) (now : Nat) :
    (newRow sha256 db context mutation content now).before
      (storeContent sha256 db.blobs content) = content := by
  cases content with
  | none => rfl
  | some bytes => exact lookup_storeContent_self hinjective haddressed bytes

end Record

/-! ## The message -/

/-- The files and the manifest while a message goes on. -/
structure Turn (π : Type) where
  files : Files π
  db : Database π

section Message

variable (sha256 : Bytes → String) (context : MutationContext)

/-- A mutation and its record. -/
def Turn.step (turn : Turn π) (made : Mutation π × Nat) : Turn π where
  files := made.1.apply turn.files
  db := persistRuntimeMutation sha256 turn.db context (made.1.snapshot sha256 turn.files) made.2

/-- What a table is at all times: ids identify rows, and hashes blobs. -/
structure Database.Sound (db : Database π) : Prop where
  ids : (db.rows.map FileCheckpoint.id).Nodup
  below : ∀ row ∈ db.rows, row.id < db.nextId
  addressed : Addressed sha256 db.blobs

/-- What a row of the message is at all times. -/
structure Kept (blobs : Table String Bytes) (row : FileCheckpoint π) : Prop where
  active : row.revertedAt = none ∧ row.afterHash.isSome
  environment : row.environmentId = context.environmentId
  captured : Captured sha256 blobs row
  distinct : row.movedTo ≠ some row.path

/-- A report about a path that had some content. -/
structure RuntimeMutationSnapshot.Faithful (mutation : RuntimeMutationSnapshot π)
    (content : Option Bytes) : Prop where
  before : mutation.before = beforeJson sha256 content
  created : mutation.op = .create ↔ content = none
  distinct : mutation.movedTo ≠ some mutation.path

end Message

/-- What the rows of a message say about a path. -/
abbrev messageLog (db : Database π) (context : MutationContext) (path : π) :
    List (CellLog.Entry Bytes String) :=
  pathLog db.blobs (messageRows db.rows context) path

/-- The entry that a mutation makes at the path where it starts. -/
def RuntimeMutationSnapshot.entry (mutation : RuntimeMutationSnapshot π) (content : Option Bytes) :
    CellLog.Entry Bytes String :=
  if mutation.op = .move then .out (content.getD []) else .own content mutation.afterHash

/-- The log of a path after a mutation that may change it. -/
def recordAt (sha256 : Bytes → String) (log : List (CellLog.Entry Bytes String))
    (cell : Option Bytes) (change : Option (CellLog.Change Bytes)) :
    List (CellLog.Entry Bytes String) :=
  change.elim log (CellLog.record (mark sha256) log cell)

section Step

variable {sha256 : Bytes → String} {context : MutationContext} {db : Database π}
  {mutation : RuntimeMutationSnapshot π} {content : Option Bytes}

theorem Database.Sound.persist (h : db.Sound sha256) (hreport : mutation.Faithful sha256 content)
    (now : Nat) : (persistRuntimeMutation sha256 db context mutation now).Sound sha256 := by
  by_cases hnone : mutation.op = .move ∨
      findCheckpointRow db.rows context.chatId context.messageId mutation.path = none
  · rw [persistRuntimeMutation_new hreport.before hnone]
    refine ⟨?_, ?_, h.addressed.storeContent content⟩
    · rw [map_append, map_singleton, nodup_append]
      refine ⟨h.ids, nodup_singleton _, ?_⟩
      intro id hid other hother heq
      obtain ⟨row, hrow, rfl⟩ := mem_map.mp hid
      obtain rfl := mem_singleton.mp hother
      have hlt : row.id < db.nextId := h.below row hrow
      have heq : row.id = db.nextId := heq
      omega
    · intro row hrow
      show row.id < db.nextId + 1
      rcases mem_append.mp hrow with hold | hnew
      · have hlt := h.below row hold
        omega
      · rw [mem_singleton.mp hnew]
        exact Nat.lt_succ_self _
  · obtain ⟨hop, hfind⟩ := not_or.mp hnone
    obtain ⟨row, hrow⟩ := ne_none_iff_exists'.mp hfind
    rw [persistRuntimeMutation_found hop hrow]
    have hids : ∀ list : List (FileCheckpoint π), (updateCheckpointAfterHash list row.id
        (some mutation.afterHash)).map FileCheckpoint.id = list.map FileCheckpoint.id := by
      intro list
      rw [updateCheckpointAfterHash, List.map_map]
      grind [map_congr_left]
    refine ⟨by rw [hids]; exact h.ids, ?_, h.addressed⟩
    grind [List.mem_map_of_mem, cases Database.Sound]

omit [DecidableEq π] in
theorem Captured.storeContent {blobs : Table String Bytes}
    (h : Captured sha256 blobs row) (content : Option Bytes) :
    Captured sha256 (storeContent sha256 blobs content) row := by
  intro hop
  obtain ⟨bytes, hbytes, hhash⟩ := h hop
  obtain ⟨key, hkey, hlookup⟩ := bind_eq_some_iff.mp hbytes
  refine ⟨bytes, ?_, hhash⟩
  rw [before, hkey, bind_some]
  exact lookup_storeContent_of_some hlookup content

theorem Kept.persist (hinjective : Function.Injective sha256) (hsound : db.Sound sha256)
    (h : ∀ row ∈ messageRows db.rows context, Kept sha256 context db.blobs row)
    (hreport : mutation.Faithful sha256 content) (now : Nat) :
    ∀ row ∈ messageRows (persistRuntimeMutation sha256 db context mutation now).rows context,
      Kept sha256 context (persistRuntimeMutation sha256 db context mutation now).blobs row := by
  by_cases hnone : mutation.op = .move ∨
      findCheckpointRow db.rows context.chatId context.messageId mutation.path = none
  · rw [persistRuntimeMutation_new hreport.before hnone, messageRows_concat _ (newRow_isOf now)]
    intro row hrow
    rcases mem_append.mp hrow with hold | hnew
    · have hkept := h row hold
      exact ⟨hkept.active, hkept.environment, hkept.captured.storeContent content,
        hkept.distinct⟩
    · rw [mem_singleton.mp hnew]
      refine ⟨⟨rfl, rfl⟩, rfl, ?_, hreport.distinct⟩
      intro hop
      obtain ⟨bytes, rfl⟩ := ne_none_iff_exists'.mp fun hcontent =>
        hop (hreport.created.mpr hcontent)
      exact ⟨bytes, before_newRow hinjective hsound.addressed now, rfl⟩
  · obtain ⟨hop, hfind⟩ := not_or.mp hnone
    obtain ⟨found, hfound⟩ := ne_none_iff_exists'.mp hfind
    rw [persistRuntimeMutation_found hop hfound, messageRows_update]
    intro row hrow
    obtain ⟨before, hbefore, rfl⟩ := mem_map.mp hrow
    have hkept := h before hbefore
    split_ifs
    · exact ⟨⟨hkept.active.1, rfl⟩, hkept.environment, hkept.captured, hkept.distinct⟩
    · exact hkept

section Logs

variable {files : Files π} (hinjective : Function.Injective sha256) (hsound : db.Sound sha256)
  (hkept : ∀ row ∈ messageRows db.rows context, Kept sha256 context db.blobs row)
  (hreport : mutation.Faithful sha256 (files mutation.path))

include hsound in
omit [DecidableEq π] in
theorem nodup_ids_messageRows :
    ((messageRows db.rows context).map FileCheckpoint.id).Nodup :=
  hsound.ids.sublist (filter_sublist.map _)

include hinjective hsound hreport

omit [DecidableEq π] in
theorem start_newRow (now : Nat) :
    (newRow sha256 db context mutation (files mutation.path) now).start
        (storeContent sha256 db.blobs (files mutation.path)) =
      mutation.entry (files mutation.path) := by
  have hsame : (newRow sha256 db context mutation (files mutation.path) now).op = mutation.op := rfl
  rw [start, before_newRow hinjective hsound.addressed now, RuntimeMutationSnapshot.entry, hsame]
  cases hop : mutation.op with
  | move => rfl
  | create =>
    rw [hreport.created.mp hop]
    rfl
  | edit | delete =>
    obtain ⟨bytes, hbytes⟩ := ne_none_iff_exists'.mp fun hcontent => by
      simpa [hop] using hreport.created.mpr hcontent
    rw [hbytes]
    rfl

include hkept

theorem messageLog_new (hnone : mutation.op = .move ∨
      findCheckpointRow db.rows context.chatId context.messageId mutation.path = none)
    (now : Nat) (path : π) :
    messageLog (persistRuntimeMutation sha256 db context mutation now) context path =
      (if mutation.movedTo = some path then [.arrive mutation.afterHash] else []) ++
        (if mutation.path = path then [mutation.entry (files mutation.path)] else []) ++
        messageLog db context path := by
  rw [messageLog, persistRuntimeMutation_new hreport.before hnone,
    messageRows_concat _ (newRow_isOf now), pathLog_concat, rowEntries,
    start_newRow hinjective hsound hreport,
    pathLog_storeContent fun row hrow => (hkept row hrow).captured]
  rfl

theorem messageLog_own {value : Option Bytes} (hop : mutation.op ≠ .move)
    (hafter : mutation.afterHash = mark sha256 value) (now : Nat) (path : π) :
    messageLog (persistRuntimeMutation sha256 db context mutation now) context path =
      recordAt sha256 (messageLog db context path) (files path)
        (if mutation.path = path then some (.own value) else none) := by
  have hamend := amend_pathLog (nodup_ids_messageRows hsound)
    (fun row hrow => (hkept row hrow).distinct) db.blobs mutation.path (mark sha256 value)
  rw [← findCheckpointRow_eq] at hamend
  have hmoved : mutation.movedTo = none :=
    not_isSome_iff_eq_none.mp fun hsome => hop (mutation.moves.mpr hsome)
  cases hfind : findCheckpointRow db.rows context.chatId context.messageId mutation.path with
  | none =>
    rw [messageLog_new hinjective hsound hkept hreport (.inr hfind), hmoved,
      if_neg (some_ne_none path).symm, nil_append]
    split_ifs with hpath
    · subst hpath
      rw [RuntimeMutationSnapshot.entry, if_neg hop, hafter, recordAt, elim_some, CellLog.record,
        hamend, hfind]
      rfl
    · rfl
  | some row =>
    rw [messageLog, persistRuntimeMutation_found hop hfind, messageRows_update]
    split_ifs with hpath
    · rw [← hpath, recordAt, elim_some, CellLog.record, hamend, hfind, hafter]
      rfl
    · grind [findCheckpointRow_eq, filter_eq_some_iff, mem_of_latestAt, pathLog_update_of_ne,
        nodup_ids_messageRows, isNone_iff_eq_none, recordAt]

theorem messageLog_move {target : π} {value : Bytes} (hmoved : mutation.movedTo = some target)
    (hfull : files mutation.path ≠ none) (hafter : mutation.afterHash = mark sha256 (some value))
    (now : Nat) (path : π) :
    messageLog (persistRuntimeMutation sha256 db context mutation now) context path =
      recordAt sha256 (messageLog db context path) (files path)
        (if mutation.path = path then some .out
        else if target = path then some (.arrive value) else none) := by
  have hop : mutation.op = .move := mutation.moves.mpr (by rw [hmoved]; rfl)
  obtain ⟨bytes, hbytes⟩ := ne_none_iff_exists'.mp hfull
  rw [messageLog_new hinjective hsound hkept hreport (.inl hop), hmoved,
    RuntimeMutationSnapshot.entry, if_pos hop, hbytes, hafter]
  by_cases hpath : mutation.path = path
  · have hne : ¬some target = some path := by
      rw [← hmoved, ← hpath]
      exact hreport.distinct
    rw [if_neg hne, if_pos hpath, if_pos hpath, ← hpath, hbytes]
    rfl
  · rw [if_neg hpath, if_neg hpath, append_nil]
    by_cases htarget : target = path
    · rw [if_pos (by rw [htarget]), if_pos htarget]
      rfl
    · rw [if_neg (fun heq => htarget (some.inj heq)), if_neg htarget]
      rfl

end Logs

end Step

/-! ## The invariant of a message -/

/-- The changes that a list of mutations makes at a path. -/
def changesAt (made : List (Mutation π × Nat)) (path : π) : List (CellLog.Change Bytes) :=
  made.filterMap fun mutation => mutation.1.changeAt path

structure Recorded (sha256 : Bytes → String) (context : MutationContext) (start : Files π)
    (made : List (Mutation π × Nat)) (turn : Turn π) : Prop where
  sound : turn.db.Sound sha256
  kept : ∀ row ∈ messageRows turn.db.rows context, Kept sha256 context turn.db.blobs row
  tracked : ∀ path, CellLog.Tracked (mark sha256) (start path) (turn.files path)
    (messageLog turn.db context path) (CellLog.course (changesAt made path))
  untouched : ∀ path, changesAt made path = [] → messageLog turn.db context path = []

section Run

variable {sha256 : Bytes → String} {context : MutationContext} {files : Files π}
  {mutation : Mutation π}

omit [DecidableEq π] in
theorem Mutation.snapshot_faithful (sha256 : Bytes → String) (hpossible : mutation.Possible files) :
    (mutation.snapshot sha256 files).Faithful sha256
      (files (mutation.snapshot sha256 files).path) := by
  cases mutation with
  | create path content =>
    have habsent : files path = none := hpossible
    refine ⟨?_, iff_of_true rfl habsent, (some_ne_none _).symm⟩
    show beforeJson sha256 none = beforeJson sha256 (files path)
    rw [habsent]
  | edit path content | delete path =>
    exact ⟨rfl, iff_of_false (by simp [snapshot]) hpossible, (some_ne_none _).symm⟩
  | move path target content =>
    refine ⟨rfl, iff_of_false (by simp [snapshot]) hpossible.1, ?_⟩
    intro heq
    have htarget : target = path := some.inj heq
    exact hpossible.1 (htarget ▸ hpossible.2)

theorem Mutation.changeAt_spec (hpossible : mutation.Possible files) (path : π) :
    match mutation.changeAt path with
    | none => mutation.apply files path = files path
    | some change => change.Possible (files path) ∧ mutation.apply files path = change.apply := by
  cases mutation with
  | create own content | edit own content | delete own =>
    rw [changeAt, apply]
    split_ifs with hpath
    · rw [← hpath]
      exact ⟨trivial, update_self ..⟩
    · exact update_of_ne (Ne.symm hpath) ..
  | move source target content =>
    rw [changeAt, apply]
    have hne : source ≠ target := fun heq => hpossible.1 (heq ▸ hpossible.2)
    split_ifs with hsource htarget
    · rw [← hsource]
      refine ⟨hpossible.1, ?_⟩
      rw [update_of_ne hne, update_self]
      rfl
    · rw [← htarget]
      exact ⟨hpossible.2, update_self ..⟩
    · grind

theorem messageLog_persist (hinjective : Function.Injective sha256) {db : Database π}
    (hsound : db.Sound sha256)
    (hkept : ∀ row ∈ messageRows db.rows context, Kept sha256 context db.blobs row)
    (hpossible : mutation.Possible files) (now : Nat) (path : π) :
    messageLog (persistRuntimeMutation sha256 db context (mutation.snapshot sha256 files) now)
        context path =
      recordAt sha256 (messageLog db context path) (files path) (mutation.changeAt path) := by
  have hreport := Mutation.snapshot_faithful sha256 hpossible
  cases mutation with
  | create own content | edit own content | delete own =>
    refine messageLog_own hinjective hsound hkept hreport (by simp [Mutation.snapshot]) ?_ now path
    rfl
  | move source target content =>
    refine messageLog_move hinjective hsound hkept hreport rfl hpossible.1 ?_ now path
    rfl

variable {start : Files π} {made : List (Mutation π × Nat)} {turn : Turn π}

theorem Recorded.step (hinjective : Function.Injective sha256)
    (h : Recorded sha256 context start made turn) {next : Mutation π × Nat}
    (hpossible : next.1.Possible turn.files) :
    Recorded sha256 context start (made ++ [next]) (turn.step sha256 context next) := by
  have hreport := Mutation.snapshot_faithful sha256 hpossible
  have hlog := messageLog_persist hinjective h.sound h.kept hpossible next.2
  refine ⟨h.sound.persist hreport next.2, Kept.persist hinjective h.sound h.kept hreport next.2,
    fun path => ?_, fun path hnone => ?_⟩
  · have hchange := Mutation.changeAt_spec hpossible path
    rw [Turn.step, hlog, changesAt, filterMap_append]
    cases hnext : next.1.changeAt path with
    | none =>
      rw [hnext] at hchange
      simp only [hnext, filterMap_cons, filterMap_nil, append_nil, hchange]
      exact h.tracked path
    | some change =>
      rw [hnext] at hchange
      simp only [hnext, filterMap_cons, filterMap_nil, hchange.2, CellLog.course_concat]
      exact (h.tracked path).record hchange.1
  · rw [changesAt, filterMap_append, append_eq_nil_iff] at hnone
    have hnext : next.1.changeAt path = none := filterMap_eq_nil_iff.mp hnone.2 next mem_cons_self
    rw [Turn.step, hlog, hnext]
    exact h.untouched path hnone.1

theorem recorded_run (hinjective : Function.Injective sha256) {db : Database π}
    (hsound : db.Sound sha256) (hnew : messageRows db.rows context = [])
    (hpossible : Run.Along (Turn.step sha256 context)
      (fun turn next => next.1.Possible turn.files) ⟨start, db⟩ made) :
    Recorded sha256 context start made (Run.run (Turn.step sha256 context) ⟨start, db⟩ made) := by
  induction made using reverseRecOn with
  | nil =>
    refine ⟨hsound, ?_, fun path => ?_, fun path _ => ?_⟩
    · show ∀ row ∈ messageRows db.rows context, _
      rw [hnew]
      exact fun row hrow => absurd hrow not_mem_nil
    · show CellLog.Tracked _ _ _ (messageLog db context path) _
      rw [messageLog, hnew]
      exact CellLog.Tracked.initial _ _
    · show messageLog db context path = []
      rw [messageLog, hnew]
      rfl
  | append_singleton made next ih =>
    obtain ⟨hbefore, hnext, -⟩ := Run.along_append.mp hpossible
    rw [Run.run_concat]
    exact (ih hbefore).step hinjective hnext

end Run

end MangoStudio.Checkpoints
