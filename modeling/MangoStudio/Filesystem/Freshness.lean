import Mathlib.Data.List.MinMax
import MangoStudio.Lib.Table
import MangoStudio.Protocol.Frame

/-!
# The freshness ledger

`Ledger` of `crates/mangostudio-runtime/src/filesystem/freshness.rs`: what each
chat has seen of each file.  A read or an edit stores a snapshot, which says
whether the chat saw the whole content and how far the line numbers that it saw
still hold.  The number of snapshots is bounded, and the least recently used
one is evicted first.

* Paths are any type with a decidable equality that can be displayed, and the
  modification times any type with a comparison.  The comparison need not be
  reflexive, since an unavailable time is `NaN`.
* The two eviction loops remove one entry in each round, so they get the number
  of entries as fuel.
* The last section says what each operation does to the snapshots, with the
  clock of the eviction left out.  `snapshot_store` is the only place where an
  eviction shows: a snapshot that is still there is the one that was there.
-/

namespace MangoStudio.Filesystem

open Option AList

open Protocol (OpenObject Codes.internal)

/-! ## Errors -/

/-- The runtime's error of a failed request. -/
structure RemoteError where
  code : String
  message : String
  details : Option OpenObject := none

namespace RemoteError

/-- Sets one detail key. -/
def withDetail (error : RemoteError) (key : String) (value : Json) : RemoteError :=
  let details := (error.details.getD []).filter fun member => member.1 != key
  { error with details := some (details ++ [(key, value)]) }

end RemoteError

section Errors

variable {π : Type} [ToString π]

def serviceError (kind message : String) (path : π) : RemoteError :=
  (RemoteError.mk Codes.internal message none).withDetail "kind" (.str kind)
    |>.withDetail "resolvedPath" (.str (toString path))

def fileNotReadError (path : π) : RemoteError :=
  serviceError "file_not_read"
    ("You must read \"" ++ toString path ++ "\" with read_file before modifying it.") path

def partialReadError (path : π) (coveredThroughLine : Nat) : RemoteError :=
  let observed :=
    if coveredThroughLine > 0 then
      "only lines 1-" ++ toString coveredThroughLine ++ " have been read"
    else "it has not been read from line 1"
  (serviceError "partial_read"
    ("Cannot modify \"" ++ toString path ++ "\": " ++ observed ++ " in this chat. " ++
      "A safe mutation requires a complete view of the current file, so read the remaining " ++
      "lines with read_file (startLine/maxLines) first.") path).withDetail
    "coveredThroughLine" (.nat coveredThroughLine)

def staleFileError (path : π) : RemoteError :=
  serviceError "stale_file"
    ("\"" ++ toString path ++ "\" changed on disk since it was last read (content hash " ++
      "mismatch). Re-read the file and retry with the current content.") path

def staleLineNumbersError (path : π) (validThroughLine : Nat) : RemoteError :=
  let remaining :=
    if validThroughLine > 0 then
      "only lines 1-" ++ toString validThroughLine ++ " still match the last read"
    else "no line numbers still match the last read"
  (serviceError "stale_line_numbers"
    ("Line numbers for \"" ++ toString path ++ "\" are stale: an earlier edit in this chat " ++
      "changed the file's line count, so " ++ remaining ++ ". Re-read the file with read_file " ++
      "to get the current numbering before replacing this range.") path).withDetail
    "validThroughLine" (.nat validThroughLine)

def unobservedLineNumbersError (path : π) : RemoteError :=
  serviceError "unobserved_line_numbers"
    ("Line numbers for \"" ++ toString path ++ "\" were never observed: the last read was a " ++
      "byte view (hex or base64), which does not assign line numbers. Re-read the file as text " ++
      "with read_file first, then retry replacing this range.") path

end Errors

/-! ## Snapshots -/

def maxEntriesPerChat : Nat := 256

def maxEntriesGlobal : Nat := 10000

/-- The sentinel for all lines. -/
def allLinesValid : Nat := 9007199254740991

/-- The largest `u64`. -/
def maxU64 : Nat := 2 ^ 64 - 1

def saturatingAdd (a b : Nat) : Nat := min (a + b) maxU64

/-- A numbered slice shown to the caller, from its first to its last line. -/
structure ObservedLineRange where
  startLine : Nat
  endLine : Nat
  totalLines : Nat
  deriving DecidableEq

/-- The part of a file that one read made visible. -/
inductive ReadObservation where
  | wholeFile
  | window (range : ObservedLineRange)
  | byteView
  deriving DecidableEq

/-- How far the numbering of a previous text view still holds. -/
inductive LineNumbers where
  | unobserved
  | validThrough (line : Nat)
  deriving DecidableEq

/-- The identity of observed bytes. -/
structure ContentDigest where
  sha256 : String
  size : Nat
  deriving DecidableEq

/-- What a chat knows of one file. -/
structure FileSnapshot (μ : Type) where
  sha256 : String
  size : Nat
  mtimeMs : μ
  /-- The highest line of a contiguous view from line one. -/
  coveredThroughLine : Nat
  /-- Whether the caller saw the complete content. -/
  complete : Bool
  lineNumbers : LineNumbers

/-- A snapshot with the time of its last use. -/
structure FreshnessEntry (μ : Type) extends FileSnapshot μ where
  lruTick : Nat

structure Ledger (π μ : Type) where
  entriesByChat : Table String (Table π (FreshnessEntry μ)) := ∅
  nextLruTick : Nat := 0

namespace Ledger

variable {π μ : Type} [DecidableEq π]

/-- The number of snapshots of all chats. -/
def len (ledger : Ledger π μ) : Nat :=
  (ledger.entriesByChat.entries.map fun chat => Table.size chat.2).sum

def entry (ledger : Ledger π μ) (chatId : String) (path : π) : Option (FreshnessEntry μ) :=
  (ledger.entriesByChat.lookup chatId).bind fun entries => entries.lookup path

/-- Removes a chat's snapshot, and the chat with its last one. -/
def forget (ledger : Ledger π μ) (chatId : String) (path : π) : Ledger π μ :=
  match ledger.entriesByChat.lookup chatId with
  | none => ledger
  | some entries =>
    let entries := entries.erase path
    { ledger with
      entriesByChat :=
        if entries.keys.isEmpty then ledger.entriesByChat.erase chatId
        else ledger.entriesByChat.insert chatId entries }

/-! ### The clock -/

/-- `entry.lru_tick = tick` through `get_mut`. -/
def setTick (ledger : Ledger π μ) (chatId : String) (path : π) (tick : Nat) : Ledger π μ :=
  match ledger.entriesByChat.lookup chatId with
  | none => ledger
  | some entries =>
    match entries.lookup path with
    | none => ledger
    | some entry =>
      { ledger with
        entriesByChat :=
          ledger.entriesByChat.insert chatId (entries.insert path { entry with lruTick := tick }) }

/-- Every entry with its chat and its path. -/
def locations (ledger : Ledger π μ) : List (String × π × Nat) :=
  ledger.entriesByChat.entries.flatMap fun chat =>
    chat.2.entries.map fun entry => (chat.1, entry.1, entry.2.lruTick)

def renumberLru (ledger : Ledger π μ) : Ledger π μ :=
  let sorted := ledger.locations.mergeSort fun a b => a.2.2 ≤ b.2.2
  let renumbered := sorted.zipIdx.foldl
    (fun ledger location => ledger.setTick location.1.1 location.1.2.1 (location.2 + 1)) ledger
  { renumbered with nextLruTick := renumbered.len }

def nextTick (ledger : Ledger π μ) : Ledger π μ × Nat :=
  let ledger := if ledger.nextLruTick = maxU64 then ledger.renumberLru else ledger
  let tick := ledger.nextLruTick + 1
  ({ ledger with nextLruTick := tick }, tick)

def touch (ledger : Ledger π μ) (chatId : String) (path : π) : Ledger π μ :=
  let ticked := ledger.nextTick
  ticked.1.setTick chatId path ticked.2

/-! ### Eviction -/

/-- Removes the least recently used snapshots of a chat that has too many. -/
def evictChat (ledger : Ledger π μ) (chatId : String) : Nat → Ledger π μ
  | 0 => ledger
  | fuel + 1 =>
    match ledger.entriesByChat.lookup chatId with
    | none => ledger
    | some entries =>
      if Table.size entries > maxEntriesPerChat then
        match entries.entries.argmin fun entry => entry.2.lruTick with
        | some oldest => evictChat (ledger.forget chatId oldest.1) chatId fuel
        | none => ledger
      else ledger

/-- The same over all chats. -/
def evictGlobal (ledger : Ledger π μ) : Nat → Ledger π μ
  | 0 => ledger
  | fuel + 1 =>
    if ledger.len > maxEntriesGlobal then
      match ledger.locations.argmin fun location => location.2.2 with
      | some oldest => evictGlobal (ledger.forget oldest.1 oldest.2.1) fuel
      | none => ledger
    else ledger

def store (ledger : Ledger π μ) (chatId : String) (path : π) (snapshot : FileSnapshot μ) :
    Ledger π μ :=
  let ticked := ledger.nextTick
  let entries := (ticked.1.entriesByChat.lookup chatId).getD ∅
  let stored : Ledger π μ :=
    { ticked.1 with
      entriesByChat :=
        ticked.1.entriesByChat.insert chatId
          (entries.insert path { snapshot with lruTick := ticked.2 }) }
  let evicted := stored.evictChat chatId stored.len
  evicted.evictGlobal evicted.len

/-! ### Records -/

def extendCoverage (ledger : Ledger π μ) (chatId : String) (path : π) (sha256 : String)
    (observed : ObservedLineRange) : Nat :=
  let carried :=
    ((ledger.entry chatId path).filter fun entry => entry.sha256 == sha256).elim 0
      fun entry => entry.coveredThroughLine
  if observed.startLine > saturatingAdd carried 1 then carried
  else max carried observed.endLine

def lineNumbersForObservation (ledger : Ledger π μ) (chatId : String) (path : π)
    (sha256 : String) : ReadObservation → LineNumbers
  | .byteView => .unobserved
  | .wholeFile => .validThrough allLinesValid
  | .window range =>
    let previous : Option (FreshnessEntry μ) := ledger.entry chatId path
    let sameBytes := previous.any fun entry => entry.sha256 == sha256
    let carried := ((previous.filter fun _ => sameBytes).bind fun entry =>
      match entry.lineNumbers with
      | .validThrough throughLine => some throughLine
      | .unobserved => none).getD 0
    if range.startLine > saturatingAdd carried 1 then
      match (previous.map fun entry => entry.lineNumbers : Option LineNumbers) with
      | some .unobserved => if sameBytes then .unobserved else .validThrough carried
      | _ => .validThrough carried
    else
      let throughLine := max carried range.endLine
      if throughLine ≥ range.totalLines then .validThrough allLinesValid
      else .validThrough throughLine

/-- The snapshot that a read stores. -/
def readSnapshot (ledger : Ledger π μ) (chatId : String) (path : π) (digest : ContentDigest)
    (observedMtimeMs : μ) (observation : ReadObservation) : FileSnapshot μ :=
  let coveredThroughLine :=
    match observation with
    | .window range => ledger.extendCoverage chatId path digest.sha256 range
    | .wholeFile | .byteView => allLinesValid
  let lineNumbers := ledger.lineNumbersForObservation chatId path digest.sha256 observation
  let complete :=
    match observation with
    | .window range => decide (coveredThroughLine ≥ range.totalLines)
    | .wholeFile | .byteView => true
  { sha256 := digest.sha256, size := digest.size, mtimeMs := observedMtimeMs
    coveredThroughLine, complete, lineNumbers }

def recordReadDigest (ledger : Ledger π μ) (chatId : String) (path : π) (digest : ContentDigest)
    (observedMtimeMs : μ) (observation : ReadObservation) : Ledger π μ :=
  ledger.store chatId path
    (ledger.readSnapshot chatId path digest observedMtimeMs observation)

/-- The snapshot that an edit stores. -/
def editSnapshot (ledger : Ledger π μ) (chatId : String) (path : π) (digest : ContentDigest)
    (observedMtimeMs : μ) (lineNumbersValidThroughLine : Nat) : FileSnapshot μ :=
  let previousValidThrough :=
    match (ledger.entry chatId path).map fun entry => entry.lineNumbers with
    | some (.validThrough throughLine) => throughLine
    | some .unobserved | none => allLinesValid
  { sha256 := digest.sha256, size := digest.size, mtimeMs := observedMtimeMs
    coveredThroughLine := allLinesValid, complete := true
    lineNumbers := .validThrough (min previousValidThrough lineNumbersValidThroughLine) }

def recordEditDigest (ledger : Ledger π μ) (chatId : String) (path : π) (digest : ContentDigest)
    (observedMtimeMs : μ) (lineNumbersValidThroughLine : Nat) : Ledger π μ :=
  ledger.store chatId path
    (ledger.editSnapshot chatId path digest observedMtimeMs lineNumbersValidThroughLine)

/-- Moves a snapshot after a rename. -/
def rekey (ledger : Ledger π μ) (chatId : String) (source target : π) : Ledger π μ :=
  if source = target then ledger.touch chatId source
  else
    let forgotten := ledger.forget chatId target
    match ledger.entry chatId source with
    | none => forgotten
    | some entry => (forgotten.forget chatId source).store chatId target entry.toFileSnapshot

/-! ### Assertions -/

variable [ToString π]

def completeEntry (ledger : Ledger π μ) (chatId : String) (path : π) :
    Except RemoteError (FreshnessEntry μ) :=
  match ledger.entry chatId path with
  | none => .error (fileNotReadError path)
  | some entry =>
    if !entry.complete then .error (partialReadError path entry.coveredThroughLine)
    else .ok entry

def assertDigest (ledger : Ledger π μ) (chatId : String) (path : π) (digest : ContentDigest) :
    Ledger π μ × Except RemoteError Unit :=
  match ledger.completeEntry chatId path with
  | .error error => (ledger, .error error)
  | .ok entry =>
    if entry.size != digest.size || entry.sha256 != digest.sha256 then
      (ledger, .error (staleFileError path))
    else (ledger.touch chatId path, .ok ())

def matchesMetadata [BEq μ] (ledger : Ledger π μ) (chatId : String) (path : π) (size : Nat)
    (mtimeMs : μ) : Ledger π μ × Except RemoteError Bool :=
  match ledger.completeEntry chatId path with
  | .error error => (ledger, .error error)
  | .ok entry =>
    if entry.size != size || entry.mtimeMs != mtimeMs then (ledger, .ok false)
    else (ledger.touch chatId path, .ok true)

def assertLineNumbers (ledger : Ledger π μ) (chatId : String) (path : π) (endLine : Nat) :
    Except RemoteError Unit :=
  match ledger.entry chatId path with
  | none => .ok ()
  | some entry =>
    match entry.lineNumbers with
    | .unobserved => .error (unobservedLineNumbersError path)
    | .validThrough validThroughLine =>
      if endLine > validThroughLine then .error (staleLineNumbersError path validThroughLine)
      else .ok ()

end Ledger

/-! ## What the operations do to the snapshots -/

namespace Ledger

variable {π μ : Type} [DecidableEq π] {ledger : Ledger π μ} {chatId : String} {path : π}

/-- What the ledger knows, without the clock. -/
def snapshot (ledger : Ledger π μ) (chatId : String) (path : π) : Option (FileSnapshot μ) :=
  (ledger.entry chatId path).map FreshnessEntry.toFileSnapshot

section

variable (ledger : Ledger π μ) (chatId : String) (path : π) (otherChat : String) (other : π)

theorem entry_insert (entries : Table π (FreshnessEntry μ)) :
    ({ ledger with entriesByChat := ledger.entriesByChat.insert chatId entries }).entry
        otherChat other =
      if otherChat = chatId then entries.lookup other else ledger.entry otherChat other := by
  grind [entry, lookup_insert, lookup_insert_ne]

theorem entry_forget :
    (ledger.forget chatId path).entry otherChat other =
      if otherChat = chatId ∧ other = path then none else ledger.entry otherChat other := by
  unfold forget
  cases hchat : ledger.entriesByChat.lookup chatId with
  | none =>
    split_ifs with hsame
    · rw [entry, hsame.1, hchat, bind_none]
    · rfl
  | some entries =>
    have hentry : ∀ other, ledger.entry chatId other = entries.lookup other := by
      intro other
      rw [entry, hchat, bind_some]
    have herase : (entries.erase path).lookup other =
        if other = path then none else entries.lookup other := by
      split_ifs with hpath
      · rw [hpath, lookup_erase]
      · exact lookup_erase_ne hpath
    by_cases hother : otherChat = chatId
    · subst hother
      simp only [true_and, hentry, ← herase]
      split_ifs with hempty
      · -- the chat goes with its last entry
        rw [entry, lookup_erase, bind_none]
        grind [lookup_eq_none, mem_keys]
      · rw [entry_insert, if_pos rfl]
    · rw [if_neg (fun h => hother h.1)]
      dsimp only
      split_ifs
      · rw [entry, lookup_erase_ne hother, entry]
      · rw [entry_insert, if_neg hother]

theorem snapshot_forget :
    (ledger.forget chatId path).snapshot otherChat other =
      if otherChat = chatId ∧ other = path then none else ledger.snapshot otherChat other := by
  rw [snapshot, entry_forget]
  split_ifs <;> rfl

/-! ### The clock does not show -/

@[simp] theorem snapshot_setTick (tick : Nat) :
    (ledger.setTick chatId path tick).snapshot otherChat other =
      ledger.snapshot otherChat other := by
  unfold setTick
  split
  · rfl
  · rename_i entries hchat
    split
    · rfl
    · rename_i found hfound
      rw [snapshot, entry_insert]
      split_ifs with hother
      · subst hother
        by_cases hpath : other = path
        · subst hpath
          rw [lookup_insert, snapshot, entry, hchat, bind_some, hfound]
          rfl
        · rw [lookup_insert_ne hpath, snapshot, entry, hchat, bind_some]
      · rfl

@[simp] theorem snapshot_renumberLru :
    ledger.renumberLru.snapshot otherChat other = ledger.snapshot otherChat other := by
  have hfold : ∀ (locations : List ((String × π × Nat) × Nat)) (ledger : Ledger π μ),
      (locations.foldl (fun ledger location =>
        ledger.setTick location.1.1 location.1.2.1 (location.2 + 1)) ledger).snapshot
          otherChat other = ledger.snapshot otherChat other := by
    intro locations
    induction locations <;> grind [snapshot_setTick]
  exact hfold _ ledger

@[simp] theorem snapshot_nextTick :
    ledger.nextTick.1.snapshot otherChat other = ledger.snapshot otherChat other := by
  unfold nextTick
  by_cases hlast : ledger.nextLruTick = maxU64
  · simp only [if_pos hlast]
    exact snapshot_renumberLru ledger otherChat other
  · simp only [if_neg hlast]
    rfl

@[simp] theorem snapshot_touch :
    (ledger.touch chatId path).snapshot otherChat other = ledger.snapshot otherChat other := by
  rw [touch, snapshot_setTick, snapshot_nextTick]

end

/-! ### Eviction only removes -/

variable {otherChat : String} {found : FreshnessEntry μ} {other : π}

theorem entry_of_forget (h : (ledger.forget chatId path).entry otherChat other = some found) :
    ledger.entry otherChat other = some found := by
  rw [entry_forget] at h
  split_ifs at h
  exact h

theorem entry_of_evictChat (fuel : Nat)
    (h : (ledger.evictChat chatId fuel).entry otherChat other = some found) :
    ledger.entry otherChat other = some found := by
  induction fuel generalizing ledger <;> grind [evictChat, entry_of_forget]

theorem entry_of_evictGlobal (fuel : Nat)
    (h : (ledger.evictGlobal fuel).entry otherChat other = some found) :
    ledger.entry otherChat other = some found := by
  induction fuel generalizing ledger <;> grind [evictGlobal, entry_of_forget]

theorem snapshot_store {stored found : FileSnapshot μ}
    (h : (ledger.store chatId path stored).snapshot otherChat other = some found) :
    if otherChat = chatId ∧ other = path then found = stored
    else ledger.snapshot otherChat other = some found := by
  obtain ⟨entry', hentry, rfl⟩ := map_eq_some_iff.mp h
  have hentry := entry_of_evictChat _ (entry_of_evictGlobal _ hentry)
  have hticked := snapshot_nextTick ledger otherChat other
  rw [entry_insert] at hentry
  split_ifs at hentry with hchat
  · subst hchat
    by_cases hpath : other = path
    · subst hpath
      rw [lookup_insert] at hentry
      rw [if_pos ⟨rfl, rfl⟩, ← some.inj hentry]
    · rw [if_neg (fun h => hpath h.2), ← hticked, snapshot, entry]
      rw [lookup_insert_ne hpath] at hentry
      cases hentries : ledger.nextTick.1.entriesByChat.lookup otherChat with
      | none =>
        rw [hentries] at hentry
        cases hentry
      | some entries =>
        rw [hentries, getD_some] at hentry
        rw [bind_some, hentry]
        rfl
  · rw [if_neg (fun h => hchat h.1), ← hticked, snapshot, hentry]
    rfl

theorem snapshot_rekey {source target : π} {found : FileSnapshot μ}
    (h : (ledger.rekey chatId source target).snapshot otherChat other = some found) :
    if otherChat = chatId ∧ other = target then ledger.snapshot chatId source = some found
    else (source = target ∨ ¬ (otherChat = chatId ∧ other = source)) ∧
      ledger.snapshot otherChat other = some found := by
  unfold rekey at h
  split_ifs at h with hsame
  · grind [snapshot_touch]
  · cases hentry : ledger.entry chatId source with
    | none =>
      simp only [hentry] at h
      rw [snapshot_forget] at h
      split_ifs at h with hother
      rw [if_neg hother]
      refine ⟨.inr ?_, h⟩
      intro ⟨hchat, hpath⟩
      rw [snapshot, hchat, hpath, hentry] at h
      cases h
    | some moved =>
      simp only [hentry] at h
      have hstored := snapshot_store h
      split_ifs at hstored with hother
      · rw [if_pos hother, hstored, snapshot, hentry]
        rfl
      · grind [snapshot_forget]

section Assertions

variable [ToString π]

theorem snapshot_assertDigest (ledger : Ledger π μ) (chatId : String) (path : π)
    (digest : ContentDigest) (otherChat : String) (other : π) :
    (ledger.assertDigest chatId path digest).1.snapshot otherChat other =
      ledger.snapshot otherChat other := by
  unfold assertDigest
  split
  · rfl
  · split_ifs
    · rfl
    · exact snapshot_touch _ _ _ _ _

theorem snapshot_matchesMetadata [BEq μ] (ledger : Ledger π μ) (chatId : String) (path : π)
    (size : Nat) (mtimeMs : μ) (otherChat : String) (other : π) :
    (ledger.matchesMetadata chatId path size mtimeMs).1.snapshot otherChat other =
      ledger.snapshot otherChat other := by
  unfold matchesMetadata
  split
  · rfl
  · split_ifs
    · rfl
    · exact snapshot_touch _ _ _ _ _

end Assertions

/-! ### What is carried over -/

variable {range : ObservedLineRange} {sha256 : String}

theorem le_extendCoverage {n : Nat} (hpos : 1 ≤ n)
    (hn : n ≤ ledger.extendCoverage chatId path sha256 range) :
    (∃ previous, ledger.snapshot chatId path = some previous ∧ previous.sha256 = sha256 ∧
        n ≤ previous.coveredThroughLine) ∨
      range.startLine ≤ n ∧ n ≤ range.endLine := by
  unfold extendCoverage at hn
  generalize hcarried : ((ledger.entry chatId path).filter fun entry => entry.sha256 == sha256).elim
    0 (fun entry => entry.coveredThroughLine) = carried at hn
  by_cases hn' : n ≤ carried
  · left
    cases hfilter : (ledger.entry chatId path).filter fun entry => entry.sha256 == sha256 with
    | none =>
      rw [hfilter, elim_none] at hcarried
      omega
    | some found =>
      rw [hfilter, elim_some] at hcarried
      obtain ⟨hentry, hsha⟩ := filter_eq_some_iff.mp hfilter
      refine ⟨found.toFileSnapshot, ?_, by simpa using hsha, by omega⟩
      rw [snapshot, hentry, map_some]
  · right
    have hle : saturatingAdd carried 1 ≤ carried + 1 := Nat.min_le_left _ _
    dsimp only at hn
    split_ifs at hn with hgap
    · omega
    · omega

theorem le_lineNumbersForObservation {line n : Nat}
    (h : ledger.lineNumbersForObservation chatId path sha256 (.window range) = .validThrough line)
    (hpos : 1 ≤ n) (hn : n ≤ line) (htotal : n ≤ range.totalLines) :
    (∃ previous valid, ledger.snapshot chatId path = some previous ∧ previous.sha256 = sha256 ∧
        previous.lineNumbers = .validThrough valid ∧ n ≤ valid) ∨
      range.startLine ≤ n ∧ n ≤ range.endLine := by
  simp only [lineNumbersForObservation] at h
  generalize hcarried : ((((ledger.entry chatId path).filter fun _ =>
    (ledger.entry chatId path).any fun entry => entry.sha256 == sha256).bind fun entry =>
      match entry.lineNumbers with
      | .validThrough throughLine => some throughLine
      | .unobserved => none).getD 0) = carried at h
  by_cases hn' : n ≤ carried
  · left
    cases hentry : ledger.entry chatId path with
    | none =>
      rw [hentry] at hcarried
      simp only [filter_none, bind_none, getD_none] at hcarried
      omega
    | some found =>
      rw [hentry, any_some, filter_some] at hcarried
      by_cases hsha : found.sha256 = sha256
      · rw [if_pos (beq_iff_eq.mpr hsha), bind_some] at hcarried
        cases hnumbers : found.lineNumbers with
        | unobserved =>
          rw [hnumbers, getD_none] at hcarried
          omega
        | validThrough valid =>
          rw [hnumbers, getD_some] at hcarried
          refine ⟨found.toFileSnapshot, valid, ?_, hsha, hnumbers, by omega⟩
          rw [snapshot, hentry, map_some]
      · grind
  · right
    have hle : saturatingAdd carried 1 ≤ carried + 1 := Nat.min_le_left _ _
    grind

theorem lineNumbersForObservation_window_unobserved
    (h : ledger.lineNumbersForObservation chatId path sha256 (.window range) = .unobserved) :
    ∃ previous, ledger.snapshot chatId path = some previous ∧
      previous.lineNumbers = .unobserved := by
  simp only [lineNumbersForObservation] at h
  split_ifs at h
  all_goals
    split at h
    · rename_i hnumbers
      obtain ⟨found, hentry, hunobserved⟩ := map_eq_some_iff.mp hnumbers
      exact ⟨found.toFileSnapshot, by rw [snapshot, hentry, map_some], hunobserved⟩
    · cases h

theorem lineNumbers_editSnapshot {digest : ContentDigest} {mtimeMs : μ} {valid frontier : Nat}
    {previous : FileSnapshot μ} (hprevious : ledger.snapshot chatId path = some previous)
    (hnumbers : previous.lineNumbers = .validThrough valid) :
    (ledger.editSnapshot chatId path digest mtimeMs frontier).lineNumbers =
      .validThrough (min valid frontier) := by
  obtain ⟨entry, hentry, rfl⟩ := map_eq_some_iff.mp hprevious
  simp [editSnapshot, hentry, hnumbers]

end Ledger

end MangoStudio.Filesystem
