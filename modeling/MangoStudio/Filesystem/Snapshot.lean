import Mathlib.Data.List.Dedup
import MangoStudio.Filesystem.Files
import MangoStudio.Lib.Base64

/-!
# Reverting snapshots

`snapshot.revert` of `crates/mangostudio-runtime/src/filesystem/snapshot.rs`: a
request has the paths of a message with their expected state and the operations
that take its mutations back, newest first.  The request is refused if a path
is in neither of its two states, recognised as done if the paths are in their
reverted state, and replayed otherwise.

The model starts behind the path locks, with the policy, the cancellation and
the size of the response checked.  SHA-256 is a parameter.  The clock `stamp`
gives the modification time of each write, which goes to the ledger only.
-/

namespace MangoStudio.Filesystem

open List

open Protocol (Codes.internal)

variable {π μ : Type} [DecidableEq π] [ToString π]

/-! ## Content on the wire -/

/-- The low bytes of the UTF-16 code units of a character. -/
def utf16LowBytes (c : Char) : List UInt8 :=
  if c.toNat < 0x10000 then [UInt8.ofNat c.toNat]
  else
    let rest := c.toNat - 0x10000
    [UInt8.ofNat (0xD800 + rest / 0x400), UInt8.ofNat (0xDC00 + rest % 0x400)]

/-- The values up to the first padding marker. -/
def scanSextets : List UInt8 → List UInt8
  | [] => []
  | byte :: rest =>
    if byte = 61 then []
    else
      match Base64.value byte with
      | some value => value :: scanSextets rest
      | none => scanSextets rest

def decodeNodeBase64 (content : String) : Bytes :=
  Base64.join (scanSextets (content.toList.flatMap utf16LowBytes))

/-- A character outside both alphabets and the padding, as are the low bytes of
its code units. -/
def Noise (c : Char) : Prop :=
  ¬ Base64.Symbol c ∧ ∀ byte ∈ utf16LowBytes c, ¬ Base64.Symbol (Char.ofNat byte.toNat)

instance (c : Char) : Decidable (Noise c) :=
  inferInstanceAs (Decidable (_ ∧ ∀ byte ∈ utf16LowBytes c, _))

theorem scanSextets_append (bytes : List UInt8) {left right : List UInt8}
    (h : scanSextets left = scanSextets right) :
    scanSextets (bytes ++ left) = scanSextets (bytes ++ right) := by
  induction bytes with
  | nil => exact h
  | cons byte bytes ih => simp only [cons_append, scanSextets, ih]

theorem scanSextets_noise {bytes rest : List UInt8}
    (h : ∀ byte ∈ bytes, ¬ Base64.Symbol (Char.ofNat byte.toNat)) :
    scanSextets (bytes ++ rest) = scanSextets rest := by
  induction bytes with
  | nil => rfl
  | cons byte bytes ih =>
    obtain ⟨hpad, hvalue⟩ := Base64.value_of_not_symbol (h byte mem_cons_self)
    rw [cons_append, scanSextets, if_neg hpad, hvalue]
    exact ih fun other hother => h other (mem_cons_of_mem _ hother)

theorem scanSextets_filter (content : List Char) :
    scanSextets (content.flatMap utf16LowBytes) =
      scanSextets ((content.filter fun c => ¬ Noise c).flatMap utf16LowBytes) := by
  induction content with
  | nil => rfl
  | cons c content ih =>
    by_cases hnoise : Noise c
    · rw [flatMap_cons, scanSextets_noise hnoise.2, ih, filter_cons_of_neg (by simpa)]
    · rw [filter_cons_of_pos (by simpa), flatMap_cons, flatMap_cons]
      exact scanSextets_append _ ih

theorem scanSextets_characters (alphabet : Base64.Alphabet) {values : List UInt8}
    (hvalues : ∀ value ∈ values, value < 64) (count : Nat) :
    scanSextets ((values.map alphabet.character ++ replicate count '=').flatMap
      utf16LowBytes) = values := by
  induction values with
  | nil => cases count <;> rfl
  | cons value values ih =>
    obtain ⟨hascii, hvalue⟩ := Base64.value_character alphabet (hvalues value mem_cons_self)
    have hbytes : utf16LowBytes (alphabet.character value) =
        [UInt8.ofNat (alphabet.character value).toNat] := by
      rw [utf16LowBytes, if_pos (by omega)]
    have hne : UInt8.ofNat (alphabet.character value).toNat ≠ 61 := by
      intro heq
      rw [heq] at hvalue
      cases hvalue
    rw [map_cons, cons_append, flatMap_cons, hbytes, singleton_append,
      scanSextets, if_neg hne, hvalue]
    exact congrArg _ (ih fun other hother => hvalues other (mem_cons_of_mem _ hother))

theorem scanSextets_text (alphabet : Base64.Alphabet) (padded : Bool) (bytes : Bytes) :
    scanSextets ((Base64.text alphabet padded bytes).flatMap utf16LowBytes) =
      Base64.sextets bytes := by
  have hscan := scanSextets_characters alphabet
    (fun value hvalue => Base64.lt_of_mem_sextets hvalue : ∀ value ∈ Base64.sextets bytes, _)
  cases padded with
  | false => exact hscan 0
  | true => exact hscan _

theorem decodeNodeBase64_encode (bytes : Bytes) :
    decodeNodeBase64 (Base64.encode bytes) = bytes := by
  rw [decodeNodeBase64, Base64.encode, String.toList_ofList]
  exact (congrArg _ (scanSextets_text .standard true bytes)).trans (Base64.join_sextets bytes)

/-- Either alphabet, with or without padding, and with characters of neither put
in anywhere. -/
theorem decodeNodeBase64_noisy (alphabet : Base64.Alphabet) (padded : Bool) (bytes : Bytes)
    (content : String)
    (hcontent : content.toList.filter (fun c => ¬ Noise c) = Base64.text alphabet padded bytes) :
    decodeNodeBase64 content = bytes := by
  rw [decodeNodeBase64, scanSextets_filter, hcontent, scanSextets_text, Base64.join_sextets]

theorem decodeNodeBase64_noisy_lines :
    decodeNodeBase64 (String.ofList ['_', 'w', '\r', '\n', '=', '\n', '=']) = [255] :=
  decodeNodeBase64_noisy .urlSafe true [255] _ (by rw [String.toList_ofList]; decide +kernel)

/-! ## The request -/

def absentHash : String := "absent"

structure SnapshotExpectedPath (π : Type) where
  path : π
  afterHash : String
  revertedHash : Option String

inductive SnapshotRevertOperation (π : Type) where
  | create (path : π)
  | restore (path : π) (contentBase64 : String)
  | move (path movedTo : π) (contentBase64 : String)

namespace SnapshotRevertOperation

def path : SnapshotRevertOperation π → π
  | .create path => path
  | .restore path _ => path
  | .move path _ _ => path

def paths : SnapshotRevertOperation π → List π
  | .create path | .restore path _ => [path]
  | .move path movedTo _ => [path, movedTo]

end SnapshotRevertOperation

def snapshotConflict (path : π) : RemoteError :=
  (RemoteError.mk Codes.internal
    ("Cannot revert \"" ++ toString path ++
      "\": the file changed on disk since this assistant message completed.") none).withDetail
    "kind" (.str "snapshot_conflict") |>.withDetail "resolvedPath" (.str (toString path))

/-! ## The decision -/

/-- The observed state of a path as the request writes it. -/
def observedHash (sha256 : Bytes → String) (files : Files π) (path : π) : String :=
  (hashFileIfPresent sha256 files path).getD absentHash

section Decision

variable (sha256 : Bytes → String) (files : Files π)

def matchesAfter (entry : SnapshotExpectedPath π) : Bool :=
  observedHash sha256 files entry.path == entry.afterHash

def matchesReverted (entry : SnapshotExpectedPath π) : Bool :=
  entry.revertedHash.any fun hash => observedHash sha256 files entry.path == hash

/-- The loop over the expected paths, with the first path that still has to be
reverted and the first one that is reverted. -/
def scanExpected : List (SnapshotExpectedPath π) → Option π → Option π →
    Except RemoteError (Option π × Option π)
  | [], pending, reverted => .ok (pending, reverted)
  | entry :: rest, pending, reverted =>
    let isAfter := matchesAfter sha256 files entry
    let isReverted := matchesReverted sha256 files entry
    if !isAfter && !isReverted then .error (snapshotConflict entry.path)
    else if isAfter && !isReverted then
      scanExpected rest (pending.or (some entry.path)) reverted
    else if isReverted && !isAfter then
      scanExpected rest pending (reverted.or (some entry.path))
    else scanExpected rest pending reverted

def alreadyReverted (expected : List (SnapshotExpectedPath π)) : Except RemoteError Bool :=
  match scanExpected sha256 files expected none none with
  | .error error => .error error
  | .ok (some _, some path) => .error (snapshotConflict path)
  | .ok (_, reverted) => .ok reverted.isSome

omit [DecidableEq π] in
theorem scanExpected_spec (expected : List (SnapshotExpectedPath π)) (pending reverted : Option π) :
    (∃ entry ∈ expected, matchesAfter sha256 files entry = false ∧
        matchesReverted sha256 files entry = false ∧
        scanExpected sha256 files expected pending reverted = .error (snapshotConflict entry.path)) ∨
      (∀ entry ∈ expected, matchesAfter sha256 files entry = true ∨
        matchesReverted sha256 files entry = true) ∧
      ∃ pending' reverted', scanExpected sha256 files expected pending reverted =
          .ok (pending', reverted') ∧
        (pending'.isSome ↔ pending.isSome ∨ ∃ entry ∈ expected,
          matchesAfter sha256 files entry = true ∧ matchesReverted sha256 files entry = false) ∧
        (reverted'.isSome ↔ reverted.isSome ∨ ∃ entry ∈ expected,
          matchesReverted sha256 files entry = true ∧ matchesAfter sha256 files entry = false) := by
  induction expected generalizing pending reverted with
  | nil => exact .inr ⟨by simp, pending, reverted, rfl, by simp, by simp⟩
  | cons entry rest ih =>
    cases hafter : matchesAfter sha256 files entry <;>
      cases hreverted : matchesReverted sha256 files entry
    · exact .inl ⟨entry, mem_cons_self, hafter, hreverted, by
        simp [scanExpected, hafter, hreverted]⟩
    · have hstep : scanExpected sha256 files (entry :: rest) pending reverted =
          scanExpected sha256 files rest pending (reverted.or (some entry.path)) := by
        simp [scanExpected, hafter, hreverted]
      rw [hstep]
      rcases ih pending (reverted.or (some entry.path)) with
        ⟨other, hmem, hneither⟩ | ⟨heither, pending', reverted', hok, hpending', hreverted'⟩
      all_goals grind
    · have hstep : scanExpected sha256 files (entry :: rest) pending reverted =
          scanExpected sha256 files rest (pending.or (some entry.path)) reverted := by
        simp [scanExpected, hafter, hreverted]
      rw [hstep]
      rcases ih (pending.or (some entry.path)) reverted with
        ⟨other, hmem, hneither⟩ | ⟨heither, pending', reverted', hok, hpending', hreverted'⟩
      all_goals grind
    · have hstep : scanExpected sha256 files (entry :: rest) pending reverted =
          scanExpected sha256 files rest pending reverted := by
        simp [scanExpected, hafter, hreverted]
      rw [hstep]
      rcases ih pending reverted with
        ⟨other, hmem, hneither⟩ | ⟨heither, pending', reverted', hok, hpending', hreverted'⟩
      all_goals grind

/-- The three outcomes of the decision. -/
inductive Decision (expected : List (SnapshotExpectedPath π)) : Except RemoteError Bool → Prop where
  /-- A path is in neither state, or two paths disagree. -/
  | conflict (path : π)
      (hconflict : (∃ entry ∈ expected, matchesAfter sha256 files entry = false ∧
          matchesReverted sha256 files entry = false) ∨
        (∃ entry ∈ expected, matchesAfter sha256 files entry = true ∧
          matchesReverted sha256 files entry = false) ∧
        ∃ entry ∈ expected, matchesReverted sha256 files entry = true ∧
          matchesAfter sha256 files entry = false) :
      Decision expected (.error (snapshotConflict path))
  /-- Every path is reverted, and one shows it. -/
  | reverted (hall : ∀ entry ∈ expected, matchesReverted sha256 files entry = true)
      (hsome : ∃ entry ∈ expected, matchesAfter sha256 files entry = false) :
      Decision expected (.ok true)
  /-- Every path is as the message left it. -/
  | pending (hall : ∀ entry ∈ expected, matchesAfter sha256 files entry = true) :
      Decision expected (.ok false)

omit [DecidableEq π] in
theorem decision (expected : List (SnapshotExpectedPath π)) :
    Decision sha256 files expected (alreadyReverted sha256 files expected) := by
  unfold alreadyReverted
  rcases scanExpected_spec sha256 files expected none none with
    ⟨entry, hmem, hafter, hreverted, herror⟩ | ⟨heither, pending, reverted, hok, hpending, hreverted⟩
  · rw [herror]
    exact .conflict entry.path (.inl ⟨entry, hmem, hafter, hreverted⟩)
  · rw [hok]
    simp only [Option.isSome_none, Bool.false_eq_true, false_or] at hpending hreverted
    cases reverted with
    | none =>
      have hnone : ¬ ∃ entry ∈ expected, matchesReverted sha256 files entry = true ∧
          matchesAfter sha256 files entry = false := by
        rw [← hreverted]
        simp
      have hall : ∀ entry ∈ expected, matchesAfter sha256 files entry = true := by
        grind
      cases pending with
      | none | some => exact .pending hall
    | some path =>
      obtain ⟨entry, hmem, hrev, hafter⟩ := hreverted.mp rfl
      cases pending with
      | none =>
        refine .reverted ?_ ⟨entry, hmem, hafter⟩
        grind
      | some first => exact .conflict path (.inr ⟨hpending.mp rfl, entry, hmem, hrev, hafter⟩)

variable {sha256 files}

end Decision

/-! ## The replay -/

section Replay

variable (sha256 : Bytes → String) (stamp : Nat → μ) (chatId : String)

def removeCreatedFile (files : Files π) (path : π) : Except RemoteError (Files π) :=
  match deleteFile files path with
  | .ok files => .ok files
  | .error error => if isNotFound error then .ok files else .error error

def restoreBytes (workspace : Workspace π μ) (path : π) (contentBase64 : String) :
    Workspace π μ × Except RemoteError Unit :=
  let bytes := decodeNodeBase64 contentBase64
  match writeAtomic workspace.files path bytes false with
  | .error error => (workspace, .error error)
  | .ok files =>
    let ledger := workspace.ledger.recordReadDigest chatId path ⟨sha256 bytes, bytes.length⟩
      (stamp workspace.writes) .wholeFile
    ({ files, ledger, writes := workspace.writes + 1 }, .ok ())

def replayOperation (workspace : Workspace π μ) :
    SnapshotRevertOperation π → Workspace π μ × Except RemoteError Unit
  | .create path =>
    match removeCreatedFile workspace.files path with
    | .error error => (workspace, .error error)
    | .ok files =>
      ({ workspace with files, ledger := workspace.ledger.forget chatId path }, .ok ())
  | .restore path contentBase64 => restoreBytes sha256 stamp chatId workspace path contentBase64
  | .move path movedTo contentBase64 =>
    match assertRegular workspace.files movedTo with
    | .error error => (workspace, .error error)
    | .ok _ =>
      match moveNoOverwrite workspace.files movedTo path with
      | .error error => (workspace, .error error)
      | .ok (files, _) =>
        restoreBytes sha256 stamp chatId
          { workspace with files, ledger := workspace.ledger.rekey chatId movedTo path } path
          contentBase64

/-- The operations one by one.  One that fails leaves what the others did. -/
def replay (workspace : Workspace π μ) :
    List (SnapshotRevertOperation π) → Workspace π μ × Except RemoteError Unit
  | [] => (workspace, .ok ())
  | operation :: rest =>
    match replayOperation sha256 stamp chatId workspace operation with
    | (workspace, .error error) => (workspace, .error error)
    | (workspace, .ok ()) => replay workspace rest

/-- The request, with the number of paths that it reverts, and its replay. -/
def revertBy (replayed : Workspace π μ × Except RemoteError Unit)
    (expected : List (SnapshotExpectedPath π)) (operations : List (SnapshotRevertOperation π))
    (workspace : Workspace π μ) : Workspace π μ × Except RemoteError Nat :=
  match alreadyReverted sha256 workspace.files expected with
  | .error error => (workspace, .error error)
  | .ok reverted =>
    let revertedFiles := (operations.map SnapshotRevertOperation.path).dedup.length
    if reverted then (workspace, .ok revertedFiles)
    else
      match replayed with
      | (workspace, .error error) => (workspace, .error error)
      | (workspace, .ok ()) => (workspace, .ok revertedFiles)

/-- The request on paths that have nothing to do with each other. -/
def revertSnapshots (expected : List (SnapshotExpectedPath π))
    (operations : List (SnapshotRevertOperation π)) (workspace : Workspace π μ) :
    Workspace π μ × Except RemoteError Nat :=
  revertBy sha256 (replay sha256 stamp chatId workspace operations) expected operations workspace

/-! ### Among directories -/

/-- The directories that a path lies in, and what is said of an operation that a
directory, or a file in the place of one, is in the way of. -/
structure Directories (π : Type) where
  above : π → List π
  refusal : SnapshotRevertOperation π → RemoteError

namespace Directories

variable (tree : Directories π)

/-- A directory is at the path, or a file where the path has a directory. -/
def blocks (dirs : List π) (files : Files π) (path : π) : Bool :=
  dirs.contains path || (tree.above path).any fun parent => (files parent).isSome

/-- The directories that are made for the file that an operation writes. -/
def madeFor : SnapshotRevertOperation π → List π
  | .create _ => []
  | .restore path _ | .move path _ _ => tree.above path

end Directories

/-- The replay where the given directories are. -/
def replayAmong (tree : Directories π) (dirs : List π) (workspace : Workspace π μ) :
    List (SnapshotRevertOperation π) → Workspace π μ × Except RemoteError Unit
  | [] => (workspace, .ok ())
  | operation :: rest =>
    if operation.paths.any (tree.blocks dirs workspace.files) then
      (workspace, .error (tree.refusal operation))
    else
      match replayOperation sha256 stamp chatId workspace operation with
      | (workspace, .error error) => (workspace, .error error)
      | (workspace, .ok ()) => replayAmong tree (tree.madeFor operation ++ dirs) workspace rest

/-- The request where the given directories are. -/
def revertSnapshotsAmong (tree : Directories π) (dirs : List π)
    (expected : List (SnapshotExpectedPath π)) (operations : List (SnapshotRevertOperation π))
    (workspace : Workspace π μ) : Workspace π μ × Except RemoteError Nat :=
  revertBy sha256 (replayAmong sha256 stamp chatId tree dirs workspace operations) expected
    operations workspace

end Replay

end MangoStudio.Filesystem
