import MangoStudio.Library.ContentHash
import Mathlib.Data.List.Perm.Basic
import Mathlib.Data.Set.Function

/-!
# Content hashes identify content on every runtime

* A manifest line is self-delimiting: the decimal length ends at the colon, the
  length counts the units of the path, and the digest has 64 characters
  (`line_selfDelimiting`).
* Both sides sort by the units of the path, so that the listing order does not
  matter (`sortLeaves_eq_of_perm`).
* What the two sides feed to SHA-256 is the same (`directoryHashInput_eq`).
-/

namespace MangoStudio.Library

open JsText DirectoryManifest List

open JsText (Units ofChars)

/-! ## Hex text -/

theorem digitChar_inj {m n : Nat} (hm : m < 16) (hn : n < 16)
    (h : Nat.digitChar m = Nat.digitChar n) : m = n := by
  have hall : ∀ m < 16, ∀ n < 16, Nat.digitChar m = Nat.digitChar n → m = n := by decide
  exact hall m hm n hn h

theorem length_hex (bytes : Bytes) : (hex bytes).length = 2 * bytes.length := by
  rw [hex, length_flatMap]
  simp [Nat.mul_comm]

theorem hex_injective : Function.Injective hex := by
  refine SelfDelimiting.flatMap_injective ?_ (fun _ => cons_ne_nil _ _)
  refine @SelfDelimiting.fixed _ _ _ 2 (fun _ => rfl) ?_
  intro first second h
  obtain ⟨hhigh, htail⟩ := cons.inj h
  obtain ⟨hlow, -⟩ := cons.inj htail
  have hfirst := first.toNat_lt
  have hsecond := second.toNat_lt
  have := digitChar_inj (by omega) (by omega) hhigh
  have := digitChar_inj (by omega) (by omega) hlow
  apply UInt8.toNat_inj.1
  omega

theorem byteHex_eq (byte : UInt8) :
    byteHex byte =
      ofChars [Nat.digitChar (byte.toNat / 16), Nat.digitChar (byte.toNat % 16)] := by
  have hbyte := byte.toNat_lt
  rw [byteHex]
  congr 1
  rcases Nat.lt_or_ge byte.toNat 16 with hsmall | hlarge
  · rw [Nat.toDigits_of_lt_base hsmall, Nat.div_eq_of_lt hsmall, Nat.mod_eq_of_lt hsmall]
    rfl
  · rw [Nat.toDigits_of_base_le (by omega) hlarge, Nat.toDigits_of_lt_base (by omega)]
    rfl

variable (sha256 : Sha256)

theorem digestHex_eq (domain : Text) (bytes : Bytes) :
    digestHex sha256 (ofChars domain) bytes = ofChars (sha256Hex sha256 domain bytes) := by
  rw [digestHex, sha256Hex, hex, ofChars_flatMap, encode_ofChars]
  exact flatMap_congr fun byte _ => byteHex_eq byte

/-! ## Lines -/

/-- A digest as the manifest carries it: 64 characters. -/
abbrev Digest := { digest : Text // digest.length = 64 }

theorem length_sha256Hex (domain : Text) (bytes : Bytes) :
    (sha256Hex sha256 domain bytes).length = 64 := by
  rw [sha256Hex, length_hex, Vector.length_toList]

theorem length_selfDelimiting : SelfDelimiting fun n : Nat => Nat.toDigits 10 n ++ [':'] := by
  apply SelfDelimiting.terminated
  · intro n hcolon
    have := Nat.isDigit_of_mem_toDigits (by omega) (Nat.le_refl 10) hcolon
    exact absurd this (by decide)
  · intro m n h
    grind [Nat.ofDigitChars_toDigits]

theorem line_selfDelimiting :
    SelfDelimiting fun entry : Text × Digest => line (entry.1, entry.2.1) := by
  have hpath := SelfDelimiting.sized length_selfDelimiting unitSize_pos
  have hdigest : SelfDelimiting fun digest : Digest => digest.1 :=
    SelfDelimiting.fixed (fun digest => digest.2) Subtype.val_injective
  have hline := hpath.append hdigest
  intro first second rest other htext
  apply hline
  simpa only [line, utf16Len, length_ofChars] using htext

theorem line_ne_nil (entry : Text × Text) : line entry ≠ [] := by
  simp [line]

/-! ## The order of the lines -/

/-- The leaves in the order of their paths' units. -/
def sortLeaves (leaves : List Leaf) : List Leaf :=
  leaves.mergeSort fun left right => decide (ofChars left.relative ≤ ofChars right.relative)

theorem cmpUtf16_isLE (left right : Text) :
    (cmpUtf16 left right).isLE = decide (ofChars left ≤ ofChars right) := by
  rw [Bool.eq_iff_iff, decide_eq_true_eq]
  unfold cmpUtf16
  split_ifs with hlt heq
  · exact iff_of_true rfl (List.le_of_lt hlt)
  · exact iff_of_true rfl (heq ▸ List.le_refl _)
  · refine iff_of_false nofun fun hle => ?_
    rcases List.le_iff_lt_or_eq.1 hle with h | h
    · exact hlt h
    · exact heq h

theorem comparePaths_le_zero (left right : Units) :
    decide (comparePaths left right ≤ 0) = decide (left ≤ right) := by
  grind [comparePaths]

theorem mergeSort_eq_of_perm {α : Type} (key : α → Units) {left right : List α}
    (hperm : left.Perm right)
    (hkey : ∀ a ∈ right, ∀ b ∈ right, key a = key b → a = b) :
    left.mergeSort (fun a b => decide (key a ≤ key b)) =
      right.mergeSort (fun a b => decide (key a ≤ key b)) := by
  have hsorted : ∀ items : List α,
      (items.mergeSort fun a b => decide (key a ≤ key b)).Pairwise
        fun a b => decide (key a ≤ key b) = true := by
    grind [pairwise_mergeSort]
  apply List.Perm.eq_of_pairwise _ (hsorted left) (hsorted right)
  · exact ((mergeSort_perm _ _).trans hperm).trans (mergeSort_perm _ _).symm
  · grind [mergeSort_perm]

/-! ## The manifest of the Rust runtime -/

/-- A leaf's entry in the manifest. -/
def entryOf (leaf : Leaf) : Text × Text := (leaf.relative, hashFileBytes sha256 leaf.bytes)

def totalBytes (leaves : List Leaf) : Nat := (leaves.map fun leaf => leaf.bytes.length).sum

theorem manifestOf_eq (leaves : List Leaf) :
    manifestOf sha256 leaves = ⟨leaves.map (entryOf sha256), totalBytes leaves⟩ := by
  have hfold : ∀ manifest : DirectoryManifest,
      leaves.foldl (fun manifest leaf => manifest.push leaf.relative
        (hashFileBytes sha256 leaf.bytes) leaf.bytes.length) manifest =
      ⟨manifest.lines ++ leaves.map (entryOf sha256), manifest.sizeBytes + totalBytes leaves⟩ := by
    induction leaves with
    | nil => simp [totalBytes]
    | cons leaf leaves ih =>
      intro manifest
      rw [foldl_cons, ih]
      simp [push, entryOf, totalBytes, Nat.add_assoc]
  rw [manifestOf, hfold]
  simp

theorem manifestOf_sorted (leaves : List Leaf) :
    (manifestOf sha256 leaves).sorted = (sortLeaves leaves).map (entryOf sha256) := by
  rw [manifestOf_eq, sorted, sortLeaves]
  exact (map_mergeSort fun left _ right _ => (cmpUtf16_isLE _ _).symm).symm

/-- The text of the manifest. -/
def manifestText (leaves : List Leaf) : Text :=
  (sortLeaves leaves).flatMap fun leaf => DirectoryManifest.line (entryOf sha256 leaf)

theorem hashInput_manifestOf (leaves : List Leaf) :
    (manifestOf sha256 leaves).hashInput =
      Utf8.encode directoryHashDomain ++ Utf8.encode (manifestText sha256 leaves) := by
  rw [hashInput, manifestOf_sorted, flatMap_map]
  rfl

variable {left right : List Leaf}

theorem perm_of_hashInput_eq
    (hinput : (manifestOf sha256 left).hashInput = (manifestOf sha256 right).hashInput) :
    (left.map (entryOf sha256)).Perm (right.map (entryOf sha256)) := by
  let entry : Leaf → Text × Digest := fun leaf =>
    (leaf.relative, ⟨hashFileBytes sha256 leaf.bytes, length_sha256Hex _ _ _⟩)
  rw [hashInput_manifestOf, hashInput_manifestOf] at hinput
  have htext : manifestText sha256 left = manifestText sha256 right := by
    grind [append_cancel_left, Utf8.decode?_encode]
  have hentries : (sortLeaves left).map entry = (sortLeaves right).map entry := by
    apply line_selfDelimiting.flatMap_injective (fun _ => line_ne_nil _)
    dsimp only
    rw [flatMap_map, flatMap_map]
    exact htext
  have hpairs := congrArg (map fun pair : Text × Digest => (pair.1, pair.2.1)) hentries
  rw [map_map, map_map] at hpairs
  have hsorted : ∀ leaves : List Leaf,
      ((sortLeaves leaves).map (entryOf sha256)).Perm (leaves.map (entryOf sha256)) :=
    fun leaves => (mergeSort_perm _ _).map _
  exact (hsorted left).symm.trans ((List.Perm.of_eq hpairs).trans (hsorted right))

theorem fileHashDomain_eq : ∃ rest,
    fileHashDomain = "mangostudio/library/".toList ++ 'f' :: rest := by
  refine ⟨"ile".toList ++ [Char.ofNat 0], ?_⟩
  unfold fileHashDomain
  simp

theorem directoryHashDomain_eq : ∃ rest,
    directoryHashDomain = "mangostudio/library/".toList ++ 'd' :: rest := by
  refine ⟨"ir/v2".toList ++ [Char.ofNat 0], ?_⟩
  unfold directoryHashDomain
  simp

theorem fileHashInput_ne_hashInput (bytes : Bytes) (manifest : DirectoryManifest) :
    fileHashInput bytes ≠ manifest.hashInput := by
  intro hinput
  obtain ⟨file, hfile⟩ := fileHashDomain_eq
  obtain ⟨directory, hdirectory⟩ := directoryHashDomain_eq
  have hf : String.utf8EncodeChar 'f' = [0x66] := by decide
  have hd : String.utf8EncodeChar 'd' = [0x64] := by decide
  rw [fileHashInput, hashInput, hfile, hdirectory] at hinput
  simp only [Utf8.encode_append, Utf8.encode_cons, append_assoc, hf, hd] at hinput
  exact absurd (cons.inj (append_cancel_left hinput)).1 (by decide)

/-! ## The two sides -/

/-- A set of leaf files: distinct paths that the check accepts. -/
structure Admissible (pathStyle : LibraryHashPathStyle) (leaves : List Leaf) : Prop where
  distinct : (leaves.map Leaf.relative).Nodup
  accepted : ∀ leaf ∈ leaves, relativePathViolation (ofChars leaf.relative) pathStyle = none

variable (toLowerCase : Units → Units)

/-- A reader that lists the leaves, in some order, and reads their bytes inside the root. -/
structure Presents (reader : LibraryHashReader) (rootPath : Units) (leaves : List Leaf) :
    Prop where
  listed : (reader.listFiles rootPath).Perm (leaves.map fun leaf => ofChars leaf.relative)
  inside : ∀ leaf ∈ leaves, isPathWithin toLowerCase (canonicalRoot reader rootPath)
    (canonicalFile reader rootPath (ofChars leaf.relative)) reader.pathStyle = true
  read : ∀ leaf ∈ leaves,
    reader.readFile (canonicalFile reader rootPath (ofChars leaf.relative)) = leaf.bytes

theorem ofChars_injective : Function.Injective ofChars := by
  intro left right h
  rw [← toChars_ofChars left, h, toChars_ofChars]

theorem sortLeaves_eq_of_perm (hperm : left.Perm right)
    (hdistinct : (right.map Leaf.relative).Nodup) : sortLeaves left = sortLeaves right := by
  apply mergeSort_eq_of_perm (fun leaf : Leaf => ofChars leaf.relative) hperm
  intro a ha b hb hkey
  exact inj_on_of_nodup_map hdistinct ha hb (ofChars_injective hkey)

variable {reader : LibraryHashReader} {rootPath : Units} {leaves : List Leaf}

theorem foldlM_hashEntry
    (haccepted : ∀ leaf ∈ leaves, relativePathViolation (ofChars leaf.relative) reader.pathStyle =
      none)
    (hinside : ∀ leaf ∈ leaves, isPathWithin toLowerCase (canonicalRoot reader rootPath)
      (canonicalFile reader rootPath (ofChars leaf.relative)) reader.pathStyle = true)
    (hread : ∀ leaf ∈ leaves, reader.readFile (canonicalFile reader rootPath (ofChars
      leaf.relative)) = leaf.bytes) (collected : Units × Nat) :
    (leaves.map fun leaf => ofChars leaf.relative).foldlM
        (hashEntry sha256 toLowerCase reader rootPath) collected =
      .ok (collected.1 ++ ofChars (leaves.flatMap fun leaf =>
          line (entryOf sha256 leaf)),
        collected.2 + totalBytes leaves) := by
  induction leaves generalizing collected with
  | nil =>
    rw [flatMap_nil, ofChars, flatMap_nil, append_nil]
    rfl
  | cons leaf leaves ih =>
    have hhead := mem_cons_self (a := leaf) (l := leaves)
    have hturn : hashEntry sha256 toLowerCase reader rootPath collected (ofChars leaf.relative) =
        .ok (collected.1 ++ ofChars (line (entryOf sha256 leaf)),
          collected.2 + leaf.bytes.length) := by
      rw [hashEntry, haccepted leaf hhead]
      dsimp only
      rw [if_pos (hinside leaf hhead), hread leaf hhead, digestHex_eq]
      simp only [line, entryOf, ofChars_append]
      rfl
    rw [map_cons, foldlM_cons, hturn]
    refine (ih (fun l hl => haccepted l (mem_cons_of_mem _ hl))
      (fun l hl => hinside l (mem_cons_of_mem _ hl))
      (fun l hl => hread l (mem_cons_of_mem _ hl)) _).trans ?_
    rw [flatMap_cons, ofChars_append, append_assoc, totalBytes, totalBytes,
      map_cons, sum_cons, Nat.add_assoc]

variable {order : List Leaf}

section

variable (hleaves : Admissible reader.pathStyle leaves)
  (hpresents : Presents toLowerCase reader rootPath leaves) (horder : order.Perm leaves)

include hleaves hpresents horder

theorem collectManifest_eq :
    collectManifest sha256 toLowerCase reader rootPath =
      .ok (ofChars (manifestText sha256 order), totalBytes (sortLeaves order)) := by
  have hmem : ∀ leaf ∈ sortLeaves order, leaf ∈ leaves := fun leaf hleaf =>
    horder.mem_iff.1 ((mergeSort_perm _ _).mem_iff.1 hleaf)
  have hpaths : (reader.listFiles rootPath).mergeSort
      (fun left right => decide (comparePaths left right ≤ 0)) =
      (sortLeaves order).map fun leaf => ofChars leaf.relative := by
    simp only [comparePaths_le_zero]
    refine (mergeSort_eq_of_perm id (hpresents.listed.trans (horder.map _).symm)
      (fun _ _ _ _ h => h)).trans ?_
    symm
    apply map_mergeSort
    intro _ _ _ _
    rfl
  rw [collectManifest, hpaths, foldlM_hashEntry sha256 toLowerCase
    (fun leaf hleaf => hleaves.accepted leaf (hmem leaf hleaf))
    (fun leaf hleaf => hpresents.inside leaf (hmem leaf hleaf))
    (fun leaf hleaf => hpresents.read leaf (hmem leaf hleaf))]
  rw [nil_append, Nat.zero_add, manifestText]

theorem directoryHashInput_eq :
    directoryHashInput sha256 toLowerCase reader rootPath =
      .ok (manifestOf sha256 order).hashInput := by
  rw [directoryHashInput, collectManifest_eq sha256 toLowerCase hleaves hpresents horder,
    hashInput_manifestOf]
  show Except.ok (encode (ofChars directoryHashDomain) ++
    encode (ofChars (manifestText sha256 order))) = _
  rw [encode_ofChars, encode_ofChars]

end

/-! ## Equal hashes -/

/-- A hash that one of the runtimes computes for the leaves. -/
inductive Hashed (leaves : List Leaf) : Units → Prop
  | rust {order : List Leaf} (horder : order.Perm leaves) :
    Hashed leaves (ofChars ((manifestOf sha256 order).finish sha256).1)
  | typescript {reader : LibraryHashReader} {rootPath hash : Units} {sizeBytes : Nat}
    (haccepted : Admissible reader.pathStyle leaves)
    (hpresents : Presents toLowerCase reader rootPath leaves)
    (hhash : hashLibraryDirectory sha256 toLowerCase reader rootPath = .valid hash sizeBytes) :
    Hashed leaves hash

/-- The inputs that hashing a tree feeds to SHA-256. -/
def inputs (leaves : List Leaf) : List Bytes :=
  (manifestOf sha256 leaves).hashInput :: leaves.map fun leaf => fileHashInput leaf.bytes

/-- No two of the inputs have the same digest. -/
def CollisionFree (fed : List Bytes) : Prop :=
  ∀ a ∈ fed, ∀ b ∈ fed, sha256 a = sha256 b → a = b

theorem hashInput_eq_of_perm (horder : order.Perm leaves)
    (hdistinct : (leaves.map Leaf.relative).Nodup) :
    (manifestOf sha256 order).hashInput = (manifestOf sha256 leaves).hashInput := by
  rw [hashInput_manifestOf, hashInput_manifestOf, manifestText, manifestText,
    sortLeaves_eq_of_perm horder hdistinct]

theorem Hashed.eq {hash : Units} (hhash : Hashed sha256 toLowerCase leaves hash)
    (hdistinct : (leaves.map Leaf.relative).Nodup) :
    hash = ofChars (hex (sha256 (manifestOf sha256 leaves).hashInput).toList) := by
  cases hhash with
  | rust horder =>
    rw [← hashInput_eq_of_perm sha256 horder hdistinct]
    rfl
  | typescript haccepted hpresents hhash =>
    rw [hashLibraryDirectory, collectManifest_eq sha256 toLowerCase haccepted hpresents
      (List.Perm.refl _)] at hhash
    obtain ⟨rfl, -⟩ := LibraryDirectoryHash.valid.inj hhash
    rw [encode_ofChars, digestHex_eq, hashInput_manifestOf]
    rfl

theorem perm_of_entries_perm
    (hfree : CollisionFree sha256 (inputs sha256 left ++ inputs sha256 right))
    (hperm : (left.map (entryOf sha256)).Perm (right.map (entryOf sha256))) :
    left.Perm right := by
  have hinputs : ∀ leaf ∈ left ++ right,
      fileHashInput leaf.bytes ∈ inputs sha256 left ++ inputs sha256 right := by
    grind [inputs]
  have hinj : Set.InjOn (entryOf sha256) { leaf | leaf ∈ left ++ right } := by
    intro a ha b hb hentry
    obtain ⟨hpath, hdigest⟩ := Prod.mk.inj hentry
    have hsame := Vector.toList_inj.1 (hex_injective hdigest)
    have hbytes := append_cancel_left (hfree _ (hinputs a ha) _ (hinputs b hb) hsame)
    cases a
    cases b
    rw [Leaf.mk.injEq]
    exact ⟨hpath, hbytes⟩
  have : Nonempty Leaf := ⟨⟨[], []⟩⟩
  let back := Function.invFunOn (entryOf sha256) { leaf | leaf ∈ left ++ right }
  have hmap : ∀ side : List Leaf, (∀ leaf ∈ side, leaf ∈ left ++ right) →
      (side.map (entryOf sha256)).map back = side := by
    intro side hside
    rw [map_map]
    exact (map_congr_left fun leaf hleaf =>
      hinj.leftInvOn_invFunOn (hside leaf hleaf)).trans (map_id _)
  rw [← hmap left fun _ h => mem_append_left _ h,
    ← hmap right fun _ h => mem_append_right _ h]
  exact hperm.map back

/-- For every set of leaf files and every listing order, the two sides feed SHA-256 the same
bytes; the bytes determine the paths and their digests; no file feeds what a directory feeds;
and so, without a collision among what was fed, equal hashes mean equal trees. -/
theorem hashes_identify_content :
    (∀ (reader : LibraryHashReader) (rootPath : Units) (leaves order : List Leaf),
      Admissible reader.pathStyle leaves → Presents toLowerCase reader rootPath leaves →
      order.Perm leaves → directoryHashInput sha256 toLowerCase reader rootPath =
        .ok (manifestOf sha256 order).hashInput) ∧
    (∀ left right : List Leaf,
      (manifestOf sha256 left).hashInput = (manifestOf sha256 right).hashInput →
      (left.map (entryOf sha256)).Perm (right.map (entryOf sha256))) ∧
    (∀ (bytes : Bytes) (leaves : List Leaf),
      fileHashInput bytes ≠ (manifestOf sha256 leaves).hashInput) ∧
    (∀ (left right : List Leaf) (hash : Units), (left.map Leaf.relative).Nodup →
      (right.map Leaf.relative).Nodup →
      CollisionFree sha256 (inputs sha256 left ++ inputs sha256 right) →
      Hashed sha256 toLowerCase left hash → Hashed sha256 toLowerCase right hash →
      left.Perm right) := by
  refine ⟨?_, ?_, ?_, ?_⟩
  · intro reader rootPath leaves order hleaves hpresents horder
    exact directoryHashInput_eq sha256 toLowerCase hleaves hpresents horder
  · intro left right hinput
    exact perm_of_hashInput_eq sha256 hinput
  · intro bytes leaves
    exact fileHashInput_ne_hashInput bytes _
  · intro left right hash hleft hright hfree hhash hother
    have hdigest : sha256 (manifestOf sha256 left).hashInput =
        sha256 (manifestOf sha256 right).hashInput := by
      apply Vector.toList_inj.1
      apply hex_injective
      apply ofChars_injective
      rw [← hhash.eq sha256 toLowerCase hleft, ← hother.eq sha256 toLowerCase hright]
    have hinput := hfree _ (List.mem_append_left _ List.mem_cons_self) _
      (List.mem_append_right _ List.mem_cons_self) hdigest
    exact perm_of_entries_perm sha256 hfree (perm_of_hashInput_eq sha256 hinput)

/-- A directory with one file, read by a reader that resolves no links. -/
theorem hashes_identify_content_one_file :
    let reader : LibraryHashReader := ⟨fun _ => [[0x61]], id, fun _ => [1], .posix⟩
    let leaf : Leaf := ⟨['a'], [1]⟩
    let constant : Sha256 := fun _ => Vector.replicate 32 0
    Admissible .posix [leaf] ∧ Presents id reader [0x72] [leaf] ∧
      directoryHashInput constant id reader [0x72] =
        .ok (manifestOf constant [leaf]).hashInput := by
  intro reader leaf constant
  have hleaves : Admissible .posix [leaf] := by
    refine ⟨List.nodup_singleton _, ?_⟩
    intro other hother
    obtain rfl := List.mem_singleton.1 hother
    decide
  have hpresents : Presents id reader [0x72] [leaf] := by
    refine ⟨List.Perm.refl _, ?_, ?_⟩
    · intro other hother
      obtain rfl := List.mem_singleton.1 hother
      decide
    · intro other hother
      obtain rfl := List.mem_singleton.1 hother
      rfl
  exact ⟨hleaves, hpresents,
    (hashes_identify_content constant id).1 reader [0x72] _ _ hleaves hpresents (List.Perm.refl _)⟩

end MangoStudio.Library
