import Mathlib.Data.List.DropRight
import MangoStudio.Filesystem.Freshness

/-!
# Update hunks

`crates/mangostudio-runtime/src/filesystem/patch.rs`: the hunks of an update are
located one after the other in the lines of a text and put in their place, and
the lines are concatenated again.

* `Matches` says where a hunk fits, without the search for it: its old lines are
  consecutive lines between one marker line and the next.  The search finds each
  such place once (`mem_findHunkCandidates`, `sorted_findHunkCandidates`), so
  `locateHunk` answers with a place exactly if it is the only one
  (`locateHunk_eq_ok_iff`).
* `Applies` is what a list of hunks makes of a list of lines.
* `Canonical` is the shape of lines that a text splits into.  Concatenated lines
  of another shape do not split into themselves again: an unterminated last line
  that a hunk adds lines to is merged with the first of them.

A text is the list of its characters.
-/

namespace MangoStudio.Filesystem.V4a

open List

abbrev Text := List Char

inductive LineEnding where
  | none
  | lf
  | crlf
  deriving DecidableEq, Repr

def LineEnding.asStr : LineEnding → Text
  | .none => []
  | .lf => ['\n']
  | .crlf => ['\r', '\n']

inductive V4aHunkLineKind where
  | context
  | add
  | delete
  deriving DecidableEq, Repr

structure V4aHunkLine where
  kind : V4aHunkLineKind
  content : Text
  ending : LineEnding
  deriving DecidableEq, Repr

structure V4aUpdateHunk where
  marker : Option Text
  lines : List V4aHunkLine
  deriving DecidableEq, Repr

structure TextLine where
  content : Text
  ending : LineEnding
  deriving DecidableEq, Repr

structure AppliedUpdate where
  content : Text
  lineNumbersValidThroughLine : Nat
  deriving DecidableEq, Repr

/-- The loop of `split_lines`, with the characters since the start of the line. -/
def splitFrom (line : Text) : Text → List TextLine
  | [] => if line = [] then [] else [⟨line, .none⟩]
  | c :: rest =>
    if c = '\n' then
      (if line.getLast? = some '\r' then ⟨line.dropLast, .crlf⟩ else ⟨line, .lf⟩) ::
        splitFrom [] rest
    else splitFrom (line ++ [c]) rest

def splitLines (input : Text) : List TextLine := splitFrom [] input

def unchangedPrefixLength (before after : List TextLine) : Nat :=
  ((before.zip after).takeWhile fun pair => pair.1 = pair.2).length

/-- `char::is_whitespace`. -/
def isWhitespace (c : Char) : Bool :=
  (9 ≤ c.toNat && c.toNat ≤ 13) || (0x2000 ≤ c.toNat && c.toNat ≤ 0x200A) ||
    [0x20, 0x85, 0xA0, 0x1680, 0x2028, 0x2029, 0x202F, 0x205F, 0x3000].contains c.toNat

def linesEqual (left right : Text) (ignoreTrailingWhitespace : Bool) : Bool :=
  if ignoreTrailingWhitespace then left.rdropWhile isWhitespace = right.rdropWhile isWhitespace
  else left = right

structure MarkerWindow where
  start : Nat
  finish : Nat

/-- The line at an index is the marker. -/
def isMarker (source : List TextLine) (marker : Text) (lenient : Bool) (index : Nat) : Bool :=
  source[index]?.any fun line => linesEqual line.content marker lenient

def findMarkerWindows (source : List TextLine) (marker : Option Text) (lenient : Bool) :
    List MarkerWindow :=
  match marker with
  | none => [⟨0, source.length⟩]
  | some marker =>
    let indexes := (List.range source.length).filter (isMarker source marker lenient)
    List.zipWith (fun index next => ⟨index + 1, next⟩) indexes (indexes.tail ++ [source.length])

def oldLines (hunk : V4aUpdateHunk) : List Text :=
  (hunk.lines.filter fun line => line.kind ≠ .add).map V4aHunkLine.content

def matchesAt (source : List TextLine) (old : List Text) (lenient : Bool) (start : Nat) : Bool :=
  old.zipIdx.all fun entry =>
    source[start + entry.2]?.any fun line => linesEqual line.content entry.1 lenient

def findHunkCandidates (source : List TextLine) (hunk : V4aUpdateHunk) (lenient : Bool) :
    List Nat :=
  let old := oldLines hunk
  let windows := findMarkerWindows source hunk.marker lenient
  if old = [] then windows.map MarkerWindow.start
  else
    windows.flatMap fun window =>
      (List.range' window.start (window.finish - old.length + 1 - window.start)).filter fun start =>
        !(start + old.length > window.finish) && matchesAt source old lenient start

def ambiguousHunkError (inputPath : String) (hunkNumber : Nat) : String :=
  s!"Hunk {hunkNumber} for \"{inputPath}\": context matches multiple locations. " ++
    "Add more surrounding context or an @@ marker."

def locateHunk (source : List TextLine) (hunk : V4aUpdateHunk) (inputPath : String)
    (hunkNumber : Nat) : Except String Nat :=
  match findHunkCandidates source hunk false with
  | [location] => .ok location
  | _ :: _ :: _ => .error (ambiguousHunkError inputPath hunkNumber)
  | [] =>
    match findHunkCandidates source hunk true with
    | [location] => .ok location
    | _ :: _ :: _ => .error (ambiguousHunkError inputPath hunkNumber)
    | [] =>
      .error (s!"Hunk {hunkNumber} for \"{inputPath}\": context not found. " ++
        "Re-read the file and regenerate the patch.")

/-- The loop of `apply_hunk_at`: what replaces the old lines, and where they end. -/
def replaceFrom (source : List TextLine) (cursor : Nat) : List V4aHunkLine → List TextLine × Nat
  | [] => ([], cursor)
  | line :: rest =>
    match line.kind with
    | .add =>
      let later := replaceFrom source cursor rest
      (⟨line.content, line.ending⟩ :: later.1, later.2)
    | .context =>
      let later := replaceFrom source (cursor + 1) rest
      (source[cursor]?.toList ++ later.1, later.2)
    | .delete => replaceFrom source (cursor + 1) rest

def applyHunkAt (source : List TextLine) (hunk : V4aUpdateHunk) (location : Nat) :
    List TextLine :=
  let replaced := replaceFrom source location hunk.lines
  source.take location ++ replaced.1 ++ source.drop replaced.2

def applyHunks (inputPath : String) : Nat → List TextLine → List V4aUpdateHunk →
    Except String (List TextLine)
  | _, lines, [] => .ok lines
  | index, lines, hunk :: hunks =>
    match locateHunk lines hunk inputPath (index + 1) with
    | .error error => .error error
    | .ok location => applyHunks inputPath (index + 1) (applyHunkAt lines hunk location) hunks

def joinLines (lines : List TextLine) : Text :=
  lines.flatMap fun line => line.content ++ line.ending.asStr

def applyUpdateHunks (source : Text) (hunks : List V4aUpdateHunk) (inputPath : String) :
    Except String AppliedUpdate :=
  let original := splitLines source
  (applyHunks inputPath 0 original hunks).map fun lines =>
    ⟨joinLines lines, unchangedPrefixLength original lines⟩

/-! ## Where a hunk fits -/

/-- The place is one of the hunk's: directly after the marker, or at the top, if the hunk has no
old lines; or its old lines stand there, after a marker line and before the next one. -/
def Matches (source : List TextLine) (hunk : V4aUpdateHunk) (lenient : Bool) (place : Nat) : Prop :=
  match hunk.marker with
  | none =>
    if oldLines hunk = [] then place = 0
    else place + (oldLines hunk).length ≤ source.length ∧
      matchesAt source (oldLines hunk) lenient place = true
  | some marker => ∃ index, isMarker source marker lenient index = true ∧
    if oldLines hunk = [] then place = index + 1
    else index < place ∧ place + (oldLines hunk).length ≤ source.length ∧
      (∀ other, index < other → other < place + (oldLines hunk).length →
        isMarker source marker lenient other = false) ∧
      matchesAt source (oldLines hunk) lenient place = true

/-- Each element of an ascending list with the next one, or with a bound. -/
theorem mem_zip_tail {indexes : List Nat} {bound : Nat} (hsorted : indexes.Pairwise (· < ·))
    (hbound : ∀ index ∈ indexes, index < bound) (m n : Nat) :
    (m, n) ∈ indexes.zip (indexes.tail ++ [bound]) ↔
      m ∈ indexes ∧ m < n ∧ (n ∈ indexes ∨ n = bound) ∧ ∀ later ∈ indexes, m < later → n ≤ later := by
  induction indexes with
  | nil => simp
  | cons first others ih =>
    cases others with
    | nil => grind
    | cons second others =>
      have hlater := ih (List.Pairwise.of_cons hsorted) (by grind)
      have hfirst : ∀ later ∈ second :: others, first < later := (pairwise_cons.1 hsorted).1
      have hsecond : ∀ later ∈ others, second < later :=
        (pairwise_cons.1 (List.Pairwise.of_cons hsorted)).1
      rw [tail_cons] at hlater ⊢
      rw [cons_append, zip_cons_cons, mem_cons, hlater]
      constructor
      · rintro (hpair | ⟨hm, hmn, hn, hleast⟩)
        · grind
        · exact ⟨.tail _ hm, hmn, by grind, by grind⟩
      · rintro ⟨hm, hmn, hn, hleast⟩
        rcases mem_cons.1 hm with rfl | hm
        · grind
        · exact .inr ⟨hm, hmn, by grind, by grind⟩

theorem ascending_zip_tail {indexes : List Nat} {bound : Nat} (hsorted : indexes.Pairwise (· < ·)) :
    (indexes.zip (indexes.tail ++ [bound])).Pairwise fun a b => a.1 < b.1 ∧ a.2 ≤ b.1 := by
  induction indexes with
  | nil => exact .nil
  | cons first others ih =>
    cases others with
    | nil => simp
    | cons second others =>
      rw [tail_cons, cons_append, zip_cons_cons]
      refine pairwise_cons.2 ⟨fun pair hpair => ?_, ih (List.Pairwise.of_cons hsorted)⟩
      have hlater := (of_mem_zip hpair).1
      have hfirst := (pairwise_cons.1 hsorted).1 _ hlater
      have hsecond := (pairwise_cons.1 (List.Pairwise.of_cons hsorted)).1
      grind

variable {source : List TextLine} {hunk : V4aUpdateHunk} {lenient : Bool}

theorem mem_findHunkCandidates (place : Nat) :
    place ∈ findHunkCandidates source hunk lenient ↔ Matches source hunk lenient place := by
  unfold findHunkCandidates findMarkerWindows Matches
  cases hmarker : hunk.marker with
  | none => grind
  | some marker =>
    simp only [← map_uncurry_zip_eq_zipWith]
    obtain ⟨indexes, heq⟩ : ∃ indexes, indexes =
      (range source.length).filter (isMarker source marker lenient) := ⟨_, rfl⟩
    have hindexes : ∀ index, index ∈ indexes ↔ isMarker source marker lenient index = true := by
      grind [isMarker]
    have hsorted : indexes.Pairwise (· < ·) := heq ▸ pairwise_lt_range.filter _
    have hpairs := mem_zip_tail hsorted (by grind : ∀ index ∈ _, index < source.length)
    have hfst : (indexes.zip (indexes.tail ++ [source.length])).map Prod.fst = indexes :=
      map_fst_zip (by grind)
    rw [← heq]
    have hnext : ∀ index, isMarker source marker lenient index = true →
        ∃ next, (index, next) ∈ indexes.zip (indexes.tail ++ [source.length]) := by
      intro index hindex
      have hmem := (hindexes index).2 hindex
      rw [← hfst] at hmem
      grind
    simp only [hindexes] at hpairs
    split_ifs with hold
    · simp only [mem_map, Prod.exists, Function.uncurry]
      grind
    · simp only [mem_flatMap, mem_map, Prod.exists, Function.uncurry]
      constructor
      · rintro ⟨window, ⟨index, next, hmem, rfl⟩, hplace⟩
        have hwindow := (hpairs index next).1 hmem
        refine ⟨index, hwindow.1, ?_⟩
        grind
      · rintro ⟨index, hindex, hplace⟩
        obtain ⟨next, hmem⟩ := hnext index hindex
        have hwindow := (hpairs index next).1 hmem
        refine ⟨_, ⟨index, next, hmem, rfl⟩, ?_⟩
        grind

theorem sorted_findHunkCandidates (source : List TextLine) (hunk : V4aUpdateHunk) (lenient : Bool) :
    (findHunkCandidates source hunk lenient).Pairwise (· < ·) := by
  have hwindows : (findMarkerWindows source hunk.marker lenient).Pairwise fun a b =>
      a.start < b.start ∧ a.finish < b.start := by
    unfold findMarkerWindows
    split
    · exact pairwise_singleton ..
    · simp only [← map_uncurry_zip_eq_zipWith, pairwise_map]
      refine (ascending_zip_tail (pairwise_lt_range.filter _)).imp ?_
      grind
  simp only [findHunkCandidates]
  split_ifs with hold
  · exact pairwise_map.2 (hwindows.imp fun h => h.1)
  · refine pairwise_flatMap.2 ⟨fun window _ => (pairwise_lt_range' ..).filter _, ?_⟩
    refine hwindows.imp ?_
    grind

/-- A strictly ascending list is one element exactly if that is its only member. -/
theorem eq_singleton_iff {places : List Nat} (hsorted : places.Pairwise (· < ·)) (place : Nat) :
    places = [place] ↔ place ∈ places ∧ ∀ other ∈ places, other = place := by
  rcases places with _ | ⟨first, _ | ⟨second, others⟩⟩
  · simp
  · grind
  · have hfirst : first < second := (pairwise_cons.1 hsorted).1 _ mem_cons_self
    have hboth := fun h : ∀ other ∈ first :: second :: others, other = place =>
      (h first (by simp)).trans (h second (by simp)).symm
    grind

/-- The place is the hunk's only exact one, or its only one up to trailing blanks when there is no
exact one. -/
def Located (source : List TextLine) (hunk : V4aUpdateHunk) (place : Nat) : Prop :=
  (Matches source hunk false place ∧ ∀ other, Matches source hunk false other → other = place) ∨
    (∀ other, ¬Matches source hunk false other) ∧ Matches source hunk true place ∧
      ∀ other, Matches source hunk true other → other = place

theorem locateHunk_eq_ok_iff (inputPath : String) (hunkNumber place : Nat) :
    locateHunk source hunk inputPath hunkNumber = .ok place ↔ Located source hunk place := by
  have hexact := eq_singleton_iff (sorted_findHunkCandidates source hunk false) place
  have hlenient := eq_singleton_iff (sorted_findHunkCandidates source hunk true) place
  have hnone : findHunkCandidates source hunk false = [] ↔ ∀ other, ¬Matches source hunk false other := by
    simp only [eq_nil_iff_forall_not_mem, mem_findHunkCandidates]
  simp only [mem_findHunkCandidates] at hexact hlenient
  unfold Located
  rw [← hexact, ← hlenient, ← hnone]
  grind [locateHunk]

/-! ## What the hunks make of the lines -/

/-- The lines that a hunk's context and added lines become: a context line keeps the source's text
and ending. -/
def replacement (source : List TextLine) (place : Nat) : List V4aHunkLine → List TextLine
  | [] => []
  | line :: rest =>
    match line.kind with
    | .add => ⟨line.content, line.ending⟩ :: replacement source place rest
    | .context => source[place]?.toList ++ replacement source (place + 1) rest
    | .delete => replacement source (place + 1) rest

/-- What a list of hunks makes of the lines, each hunk placed in the lines as they then are. -/
inductive Applies : List TextLine → List V4aUpdateHunk → List TextLine → Prop
  | nil (lines : List TextLine) : Applies lines [] lines
  | cons {lines after : List TextLine} {hunk : V4aUpdateHunk} {hunks : List V4aUpdateHunk}
      {place : Nat} (hplace : Located lines hunk place)
      (hrest : Applies (lines.take place ++ replacement lines place hunk.lines ++
        lines.drop (place + (oldLines hunk).length)) hunks after) :
      Applies lines (hunk :: hunks) after

theorem replaceFrom_eq (source : List TextLine) (lines : List V4aHunkLine) (cursor : Nat) :
    replaceFrom source cursor lines = (replacement source cursor lines,
      cursor + ((lines.filter fun line => line.kind ≠ .add).map V4aHunkLine.content).length) := by
  induction lines generalizing cursor with
  | nil => rfl
  | cons line rest ih => grind [replaceFrom, replacement]

theorem applyHunks_eq_ok_iff (inputPath : String) (hunks : List V4aUpdateHunk) (index : Nat)
    (lines after : List TextLine) :
    applyHunks inputPath index lines hunks = .ok after ↔ Applies lines hunks after := by
  induction hunks generalizing index lines with
  | nil =>
    constructor
    · rintro ⟨⟩
      exact .nil _
    · rintro ⟨⟩
      rfl
  | cons hunk hunks ih =>
    have happlied : ∀ place, applyHunkAt lines hunk place = lines.take place ++
        replacement lines place hunk.lines ++ lines.drop (place + (oldLines hunk).length) :=
      fun place => by rw [applyHunkAt, replaceFrom_eq, oldLines]
    constructor
    · intro h
      rw [applyHunks] at h
      split at h
      · contradiction
      · rename_i place hplace
        exact .cons ((locateHunk_eq_ok_iff ..).1 hplace) (happlied place ▸ (ih ..).1 h)
    · rintro (_ | ⟨hplace, hrest⟩)
      rw [applyHunks, (locateHunk_eq_ok_iff ..).2 hplace]
      exact (ih ..).2 ((happlied _).symm ▸ hrest)

theorem applyUpdateHunks_eq_ok_iff (text : Text) (hunks : List V4aUpdateHunk) (inputPath : String)
    (result : AppliedUpdate) :
    applyUpdateHunks text hunks inputPath = .ok result ↔ ∃ lines, Applies (splitLines text) hunks lines ∧
      result = ⟨joinLines lines, unchangedPrefixLength (splitLines text) lines⟩ := by
  simp only [← applyHunks_eq_ok_iff inputPath hunks 0]
  unfold applyUpdateHunks
  cases happlied : applyHunks inputPath 0 (splitLines text) hunks with
  | error _ => simp [happlied, Except.map]
  | ok lines => simp [happlied, Except.map, eq_comm]

/-! ## Lines and texts -/

/-- The shape of lines that a text splits into: only the last line may be unterminated. -/
def Canonical : List TextLine → Prop
  | [] => True
  | line :: rest => '\n' ∉ line.content ∧ (line.ending = .lf → line.content.getLast? ≠ some '\r') ∧
    (line.ending = .none → line.content ≠ [] ∧ rest = []) ∧ Canonical rest

theorem splitFrom_append_of_not_mem {content : Text} (h : '\n' ∉ content) (line rest : Text) :
    splitFrom line (content ++ rest) = splitFrom (line ++ content) rest := by
  induction content generalizing line with
  | nil => simp
  | cons c content ih => grind [splitFrom]

theorem canonical_splitFrom {line : Text} (h : '\n' ∉ line) (text : Text) :
    Canonical (splitFrom line text) := by
  induction text generalizing line with
  | nil => grind [splitFrom, Canonical]
  | cons c rest ih =>
    have hlast : '\n' ∉ line.dropLast := fun hmem => h (dropLast_subset _ hmem)
    grind [splitFrom, Canonical]

theorem splitLines_joinLines {lines : List TextLine} (h : Canonical lines) :
    splitLines (joinLines lines) = lines := by
  induction lines with
  | nil => rfl
  | cons line rest ih =>
    obtain ⟨content, ending⟩ := line
    obtain ⟨hcontent, hlf, hnone, hrest⟩ := h
    have hlater := ih hrest
    rw [splitLines, joinLines] at hlater ⊢
    rw [flatMap_cons, append_assoc, splitFrom_append_of_not_mem hcontent]
    cases ending with
    | none => simp [LineEnding.asStr, splitFrom, hnone rfl]
    | lf => simpa [LineEnding.asStr.eq_def .lf, splitFrom, hlater] using hlf rfl
    | crlf => simp [LineEnding.asStr.eq_def .crlf, splitFrom, hlater]

theorem take_unchangedPrefixLength (before after : List TextLine) :
    after.take (unchangedPrefixLength before after) =
      before.take (unchangedPrefixLength before after) := by
  unfold unchangedPrefixLength
  induction before generalizing after with
  | nil => simp
  | cons line before ih =>
    cases after with
    | nil => simp
    | cons other after =>
      rw [zip_cons_cons, takeWhile_cons]
      grind

/-! ## Results -/

/-- `locateHunk` answers with a place exactly if it is the hunk's only one, and the hunks are
applied exactly if each in turn has such a place in the lines left by those before it; the lines
around a hunk's old lines stay as they are. -/
theorem locates_and_applies (inputPath : String) :
    (∀ source hunk hunkNumber place, locateHunk source hunk inputPath hunkNumber = .ok place ↔
      Located source hunk place) ∧
    ∀ text hunks result, applyUpdateHunks text hunks inputPath = .ok result ↔
      ∃ lines, Applies (splitLines text) hunks lines ∧
        result = ⟨joinLines lines, unchangedPrefixLength (splitLines text) lines⟩ :=
  ⟨fun _ _ => locateHunk_eq_ok_iff inputPath, fun _ _ => applyUpdateHunks_eq_ok_iff _ _ inputPath⟩

/-- A hunk that only adds lines and has no marker goes to the top, although its old lines, none,
also stand after the first line. -/
theorem addition_at_top :
    let source : List TextLine := [⟨['a'], .lf⟩]
    let hunk : V4aUpdateHunk := ⟨none, [⟨.add, ['b'], .lf⟩]⟩
    locateHunk source hunk "a.txt" 1 = .ok 0 ∧ 1 + (oldLines hunk).length ≤ source.length ∧
      matchesAt source (oldLines hunk) false 1 = true := by
  decide

/-- What a split of the new text is expected to give: the lines that the hunks describe, the first
of which, as many as reported, are the old text's. -/
def RejoinLaw (text : Text) (result : AppliedUpdate) (lines : List TextLine) : Prop :=
  splitLines result.content = lines ∧
    (splitLines result.content).take result.lineNumbersValidThroughLine =
      (splitLines text).take result.lineNumbersValidThroughLine

theorem rejoinLaw_iff {text : Text} {hunks : List V4aUpdateHunk} {inputPath : String}
    {result : AppliedUpdate} {lines : List TextLine}
    (hok : applyUpdateHunks text hunks inputPath = .ok result)
    (hlines : Applies (splitLines text) hunks lines) :
    RejoinLaw text result lines ↔ Canonical lines := by
  obtain ⟨described, hdescribed, rfl⟩ := (applyUpdateHunks_eq_ok_iff ..).1 hok
  have hsame : described = lines := by
    have hfirst := (applyHunks_eq_ok_iff inputPath hunks 0 _ _).2 hdescribed
    have hsecond := (applyHunks_eq_ok_iff inputPath hunks 0 _ _).2 hlines
    exact Except.ok.inj (hfirst.symm.trans hsecond)
  subst hsame
  constructor
  · rintro ⟨hsplit, -⟩
    rw [← hsplit]
    exact canonical_splitFrom List.not_mem_nil _
  · intro hcanonical
    have hsplit := splitLines_joinLines hcanonical
    exact ⟨hsplit, hsplit.symm ▸ take_unchangedPrefixLength ..⟩

/-- An unterminated last line that lines are added to. -/
theorem unterminated_line_merged :
    let hunks : List V4aUpdateHunk := [⟨none, [⟨.context, ['a'], .none⟩, ⟨.add, ['b'], .lf⟩]⟩]
    applyUpdateHunks ['a'] hunks "a.txt" = .ok ⟨['a', 'b', '\n'], 1⟩ ∧
      splitLines ['a', 'b', '\n'] = [⟨['a', 'b'], .lf⟩] ∧
      applyHunks "a.txt" 0 (splitLines ['a']) hunks = .ok [⟨['a'], .none⟩, ⟨['b'], .lf⟩] := by
  decide

theorem rejoinLaw_iff_two_lines :
    RejoinLaw ['a', '\n'] ⟨['a', '\n', 'b', '\n'], 1⟩ [⟨['a'], .lf⟩, ⟨['b'], .lf⟩] ↔
      Canonical [⟨['a'], .lf⟩, ⟨['b'], .lf⟩] :=
  @rejoinLaw_iff _ [⟨none, [⟨.context, ['a'], .lf⟩, ⟨.add, ['b'], .lf⟩]⟩] "a.txt" _ _
    (by decide) ((applyHunks_eq_ok_iff "a.txt" _ 0 _ _).1 (by decide))

end MangoStudio.Filesystem.V4a
