import MangoStudio.Lib.SelfDelimiting
import MangoStudio.Lib.Utf16

/-!
# Content hashes of library files and directories

Two implementations of the same hashes: the manifest of the Rust runtime and the
hash functions shared by the TypeScript side.

* A Rust string is a list of characters, a JavaScript string a list of UTF-16
  code units (`Units`).
* SHA-256 is a parameter, a function from bytes to 32 bytes.  What an
  implementation feeds to it is a definition of its own (`hashInput`,
  `directoryHashInput`), and the hash is the hex text of its digest.
* The adapter that lists and reads files is a structure of functions
  (`LibraryHashReader`); a call of it that fails is not modelled.  Lower-casing,
  which only Windows paths need, is a parameter as well.
-/

namespace MangoStudio.Library

open JsText (Units ofChars)

/-- A Rust string. -/
abbrev Text := List Char

abbrev Bytes := List UInt8

/-- The hash function both sides use. -/
abbrev Sha256 := Bytes → Vector UInt8 32

def fileHashDomain : Text := "mangostudio/library/file".toList ++ [Char.ofNat 0]

def directoryHashDomain : Text := "mangostudio/library/dir/v2".toList ++ [Char.ofNat 0]

/-! ## The Rust runtime -/

/-- Lower-case hexadecimal, two digits for each byte. -/
def hex (bytes : Bytes) : Text :=
  bytes.flatMap fun byte => [Nat.digitChar (byte.toNat / 16), Nat.digitChar (byte.toNat % 16)]

variable (sha256 : Sha256)

def sha256Hex (domain : Text) (bytes : Bytes) : Text :=
  hex (sha256 (Utf8.encode domain ++ bytes)).toList

/-- What a file's hash is computed from. -/
def fileHashInput (bytes : Bytes) : Bytes := Utf8.encode fileHashDomain ++ bytes

def hashFileBytes (bytes : Bytes) : Text := sha256Hex sha256 fileHashDomain bytes

/-- The order of two texts by their UTF-16 code units. -/
def cmpUtf16 (left right : Text) : Ordering :=
  if ofChars left < ofChars right then .lt
  else if ofChars left = ofChars right then .eq
  else .gt

def utf16Len (value : Text) : Nat := (ofChars value).length

/-- The paths and file digests of a directory. -/
structure DirectoryManifest where
  lines : List (Text × Text) := []
  sizeBytes : Nat := 0

namespace DirectoryManifest

/-- Adds one leaf's relative path, file digest and byte length. -/
def push (manifest : DirectoryManifest) (relativePath fileDigest : Text) (len : Nat) :
    DirectoryManifest :=
  { lines := manifest.lines ++ [(relativePath, fileDigest)]
    sizeBytes := manifest.sizeBytes + len }

/-- One line: the path's length, the path and the file's digest. -/
def line (entry : Text × Text) : Text :=
  Nat.toDigits 10 (utf16Len entry.1) ++ [':'] ++ entry.1 ++ entry.2

def sorted (manifest : DirectoryManifest) : List (Text × Text) :=
  manifest.lines.mergeSort fun left right => (cmpUtf16 left.1 right.1).isLE

/-- What the directory's hash is computed from. -/
def hashInput (manifest : DirectoryManifest) : Bytes :=
  Utf8.encode directoryHashDomain ++ Utf8.encode (manifest.sorted.flatMap line)

/-- The content hash and the size. -/
def finish (manifest : DirectoryManifest) : Text × Nat :=
  (sha256Hex sha256 directoryHashDomain (Utf8.encode (manifest.sorted.flatMap line)),
    manifest.sizeBytes)

end DirectoryManifest

/-- A leaf file of a directory. -/
structure Leaf where
  relative : Text
  bytes : Bytes
  deriving DecidableEq, Repr

/-- The manifest of the leaves, in the order they are listed. -/
def manifestOf (leaves : List Leaf) : DirectoryManifest :=
  leaves.foldl
    (fun manifest leaf =>
      manifest.push leaf.relative (hashFileBytes sha256 leaf.bytes) leaf.bytes.length) {}

/-! ## TypeScript -/

inductive LibraryHashPathStyle where
  | posix
  | win32
  deriving DecidableEq, Repr

inductive LibraryInvalidReason where
  | pathEscape
  | unsafeName
  deriving DecidableEq, Repr

/-- The file access a directory hash is given. -/
structure LibraryHashReader where
  /-- Every leaf file under a root, as a relative path. -/
  listFiles : Units → List Units
  realPath : Units → Units
  readFile : Units → Bytes
  pathStyle : LibraryHashPathStyle

inductive LibraryDirectoryHash where
  | valid (contentHash : Units) (sizeBytes : Nat)
  | invalid (reason : LibraryInvalidReason)
  deriving DecidableEq, Repr

def slash : UInt16 := 0x2F

def backslash : UInt16 := 0x5C

/-- Two lower-case hex digits. -/
def byteHex (byte : UInt8) : Units :=
  ofChars ((Nat.toDigits 16 byte.toNat).leftpad 2 '0')

/-- The function `sha256` of the module: the hash of a domain and bytes. -/
def digestHex (domain : Units) (bytes : Bytes) : Units :=
  (sha256 (JsText.encode domain ++ bytes)).toList.flatMap byteHex

def stripTrailingSlashes (path : Units) : Units :=
  (path.reverse.dropWhile (· = slash)).reverse

def normalizeHashPath (path : Units) (pathStyle : LibraryHashPathStyle) : Units :=
  let normalized := match pathStyle with
    | .win32 => JsText.replaceAll backslash [slash] path
    | .posix => path
  if normalized = [slash] then normalized else stripTrailingSlashes normalized

def joinPath (rootPath relativePath : Units) : Units := rootPath ++ [slash] ++ relativePath

def comparePaths (left right : Units) : Int :=
  if left < right then -1 else if right < left then 1 else 0

/-- A drive letter, a colon and a separator. -/
def startsWithDrive (path : Units) : Bool :=
  match path with
  | letter :: colon :: separator :: _ =>
    ((0x41 ≤ letter && letter ≤ 0x5A) || (0x61 ≤ letter && letter ≤ 0x7A)) && colon == 0x3A &&
      (separator == backslash || separator == slash)
  | _ => false

/-- Why a relative path cannot be hashed. -/
def relativePathViolation (path : Units) (pathStyle : LibraryHashPathStyle) :
    Option LibraryInvalidReason :=
  if path.isEmpty || path.head? == some slash then some .pathEscape
  else if pathStyle = .win32 ∧ startsWithDrive path then some .pathEscape
  else if path.contains 0x0A || path.contains 0x00 then some .unsafeName
  else
    let segments := match pathStyle with
      | .win32 => (JsText.replaceAll backslash [slash] path).splitOn slash
      | .posix => path.splitOn slash
    if segments.any fun segment =>
        segment.isEmpty || segment == [0x2E] || segment == [0x2E, 0x2E] then
      some .pathEscape
    else none

variable (toLowerCase : Units → Units)

def isPathWithin (rootPath candidatePath : Units) (pathStyle : LibraryHashPathStyle) : Bool :=
  let root := if pathStyle = .win32 then toLowerCase rootPath else rootPath
  let candidate := if pathStyle = .win32 then toLowerCase candidatePath else candidatePath
  candidate == root || (root ++ [slash]).isPrefixOf candidate

/-- The real path of the root, as the hash uses it. -/
def canonicalRoot (reader : LibraryHashReader) (rootPath : Units) : Units :=
  normalizeHashPath (reader.realPath rootPath) reader.pathStyle

/-- The real path of a leaf, as the hash uses it. -/
def canonicalFile (reader : LibraryHashReader) (rootPath relativePath : Units) : Units :=
  normalizeHashPath (reader.realPath (joinPath (canonicalRoot reader rootPath) relativePath))
    reader.pathStyle

/-- One turn of the loop over the sorted paths: the lines and the size so far. -/
def hashEntry (reader : LibraryHashReader) (rootPath : Units) (collected : Units × Nat)
    (relativePath : Units) : Except LibraryInvalidReason (Units × Nat) :=
  match relativePathViolation relativePath reader.pathStyle with
  | some violation => .error violation
  | none =>
    let file := canonicalFile reader rootPath relativePath
    if isPathWithin toLowerCase (canonicalRoot reader rootPath) file reader.pathStyle then
      let bytes := reader.readFile file
      let fileHash := digestHex sha256 (ofChars fileHashDomain) bytes
      .ok (collected.1 ++ (JsText.digits relativePath.length ++ [0x3A] ++ relativePath ++ fileHash),
        collected.2 + bytes.length)
    else .error .pathEscape

/-- The joined lines of the manifest and the size. -/
def collectManifest (reader : LibraryHashReader) (rootPath : Units) :
    Except LibraryInvalidReason (Units × Nat) :=
  let relativePaths := (reader.listFiles rootPath).mergeSort fun left right =>
    decide (comparePaths left right ≤ 0)
  relativePaths.foldlM (hashEntry sha256 toLowerCase reader rootPath) ([], 0)

/-- What the directory's hash is computed from, where the directory is valid. -/
def directoryHashInput (reader : LibraryHashReader) (rootPath : Units) :
    Except LibraryInvalidReason Bytes :=
  (collectManifest sha256 toLowerCase reader rootPath).map fun collected =>
    JsText.encode (ofChars directoryHashDomain) ++ JsText.encode collected.1

def hashLibraryDirectory (reader : LibraryHashReader) (rootPath : Units) : LibraryDirectoryHash :=
  match collectManifest sha256 toLowerCase reader rootPath with
  | .ok (lines, sizeBytes) =>
    .valid (digestHex sha256 (ofChars directoryHashDomain) (JsText.encode lines)) sizeBytes
  | .error reason => .invalid reason

end MangoStudio.Library
