import MangoStudio.Filesystem.Files

/-!
# Replacing a range of lines

`replace_range`, `split_lines` and `total_lines` of
`crates/mangostudio-runtime/src/filesystem/text.rs`, and the frontier that
`Service::replace_range` of `service.rs` records in the ledger.

Lines are split at their terminators, so a final newline does not start a line,
and they are put together again with separators and one final newline if the
source had one.  The two agree except for one shape: an unterminated result
whose last line is empty loses that line (`splitLines_joinLines`).

* `RangeLaw` is what the numbering promises: the lines of the result are the
  lines before the range, the replacement's and the lines behind it, and the
  recorded frontier covers no line that is missing or has moved.
* `rangeLaw_iff` says that the law fails exactly for `LosesLastLine`.
-/

namespace MangoStudio.Filesystem

open List

def newline : UInt8 := 10

def totalLines (bytes : Bytes) : Nat :=
  bytes.countP (· = newline) + if bytes ≠ [] ∧ bytes.getLast? ≠ some newline then 1 else 0

/-- `split_inclusive`: every line with its terminator. -/
def splitInclusive : Bytes → List Bytes
  | [] => []
  | byte :: rest =>
    if byte = newline then [byte] :: splitInclusive rest
    else
      match splitInclusive rest with
      | [] => [[byte]]
      | line :: lines => (byte :: line) :: lines

/-- `strip_suffix(b"\n").unwrap_or(line)`. -/
def stripNewline (line : Bytes) : Bytes :=
  if line.getLast? = some newline then line.dropLast else line

def splitLines (bytes : Bytes) : List Bytes := (splitInclusive bytes).map stripNewline

def joinLines (lines : List Bytes) : Bytes := List.intercalate [newline] lines

/-- The lines that take the place of the source's. -/
def spliceLines (source : Bytes) (start finish : Nat) (replacement : Bytes) : List Bytes :=
  (splitLines source).take (start - 1) ++ splitLines replacement ++ (splitLines source).drop finish

def replaceRange (source : Bytes) (start finish : Nat) (replacement : Bytes) : Bytes :=
  let lines := spliceLines source start finish replacement
  let output := joinLines lines
  if lines ≠ [] ∧ source.getLast? = some newline then output ++ [newline] else output

/-- The line through which the numbering is recorded as valid. -/
def recordedFrontier (start finish : Nat) (replacement : Bytes) : Nat :=
  if totalLines replacement = finish - start + 1 then allLinesValid else start - 1

/-! ## Splitting and joining -/

@[simp] theorem splitLines_nil : splitLines [] = [] := rfl

theorem splitLines_newline (rest : Bytes) :
    splitLines (newline :: rest) = [] :: splitLines rest := by
  simp [splitLines, splitInclusive, stripNewline]

theorem splitInclusive_ne_nil {bytes : Bytes} : [] ∉ splitInclusive bytes := by
  induction bytes with
  | nil => simp [splitInclusive]
  | cons byte rest ih => grind [splitInclusive]

theorem splitLines_cons {byte : UInt8} (hbyte : byte ≠ newline) (rest : Bytes) :
    splitLines (byte :: rest) =
      (byte :: (splitLines rest).headD []) :: (splitLines rest).tail := by
  have hne := @splitInclusive_ne_nil rest
  unfold splitLines
  rw [splitInclusive, if_neg hbyte]
  cases hrest : splitInclusive rest with
  | nil => simp [stripNewline, hbyte]
  | cons line lines =>
    rw [hrest] at hne
    obtain ⟨first, others, rfl⟩ : ∃ first others, line = first :: others := by
      cases line <;> simp_all
    simp only [map_cons, headD_cons, tail_cons, cons.injEq, and_true]
    unfold stripNewline
    rw [getLast?_cons_cons, apply_ite (byte :: ·), dropLast_cons_cons]

theorem totalLines_eq_length (bytes : Bytes) : totalLines bytes = (splitLines bytes).length := by
  induction bytes with
  | nil => rfl
  | cons byte rest ih =>
    by_cases hbyte : byte = newline
    · subst hbyte
      rw [splitLines_newline, length_cons, ← ih]
      cases rest with
      | nil => simp [totalLines]
      | cons next rest =>
        simp [totalLines, countP_cons]
        omega
    · rw [splitLines_cons hbyte, length_cons, length_tail, ← ih]
      cases rest <;> grind [totalLines]

variable {line : Bytes}

theorem newline_notMem_of_mem_splitLines {bytes : Bytes} (hline : line ∈ splitLines bytes) :
    newline ∉ line := by
  induction bytes generalizing line with
  | nil => simp at hline
  | cons byte rest ih =>
    by_cases hbyte : byte = newline
    · subst hbyte
      rw [splitLines_newline] at hline
      grind
    · rw [splitLines_cons hbyte] at hline
      cases hrest : splitLines rest <;> grind

/-- Text without a final newline ends in a line that is not empty. -/
theorem getLast?_splitLines_ne {bytes : Bytes} (hlast : bytes.getLast? ≠ some newline) :
    (splitLines bytes).getLast? ≠ some [] := by
  induction bytes with
  | nil => simp
  | cons byte rest ih =>
    by_cases hbyte : byte = newline
    · subst hbyte
      cases hrest : rest with
      | nil => simp [hrest] at hlast
      | cons next others =>
        rw [hrest, getLast?_cons_cons, ← hrest] at hlast
        have hlines : splitLines rest ≠ [] := by
          rw [← length_pos_iff, ← totalLines_eq_length]
          grind [totalLines]
        rw [← hrest, splitLines_newline, getLast?_cons_of_ne_nil hlines]
        exact ih hlast
    · rw [splitLines_cons hbyte]
      cases hrest : splitLines rest with
      | nil => simp
      | cons line lines => grind

theorem splitLines_append_newline (hline : newline ∉ line) (rest : Bytes) :
    splitLines (line ++ newline :: rest) = line :: splitLines rest := by
  induction line with
  | nil => exact splitLines_newline rest
  | cons byte line ih =>
    rw [cons_append, splitLines_cons (by grind), ih (by grind)]
    rfl

theorem splitLines_of_notMem (hline : newline ∉ line) :
    splitLines line = if line = [] then [] else [line] := by
  induction line with
  | nil => rfl
  | cons byte line ih =>
    rw [splitLines_cons (by grind), ih (by grind)]
    cases line <;> simp

/-- Joined lines split again, but for an empty line at the end. -/
theorem splitLines_joinLines {lines : List Bytes} (hlines : ∀ line ∈ lines, newline ∉ line) :
    splitLines (joinLines lines) =
      if lines.getLast? = some [] then lines.dropLast else lines := by
  induction lines with
  | nil => rfl
  | cons line lines ih =>
    cases lines with
    | nil =>
      rw [joinLines, intercalate_singleton, splitLines_of_notMem (hlines line (by simp))]
      grind
    | cons next lines =>
      have hjoin : joinLines (line :: next :: lines) =
          line ++ newline :: joinLines (next :: lines) := by
        simp [joinLines, intercalate_cons_cons]
      rw [hjoin, splitLines_append_newline (hlines line (by simp)), ih (by grind)]
      grind

theorem splitLines_joinLines_newline {lines : List Bytes} (hne : lines ≠ [])
    (hlines : ∀ line ∈ lines, newline ∉ line) :
    splitLines (joinLines lines ++ [newline]) = lines := by
  induction lines with
  | nil => exact absurd rfl hne
  | cons line lines ih =>
    cases lines with
    | nil =>
      rw [joinLines, intercalate_singleton,
        splitLines_append_newline (hlines line (by simp)), splitLines_nil]
    | cons next lines =>
      have hjoin : joinLines (line :: next :: lines) =
          line ++ newline :: joinLines (next :: lines) := by
        simp [joinLines, intercalate_cons_cons]
      rw [hjoin, append_assoc, cons_append,
        splitLines_append_newline (hlines line (by simp)), ih (by simp) (by grind)]

/-! ## The law -/

/-- What the numbering of a replacement promises. -/
structure RangeLaw (source : Bytes) (start finish : Nat) (replacement : Bytes) : Prop where
  total : totalLines (replaceRange source start finish replacement) =
    totalLines source - (finish - start + 1) + totalLines replacement
  lines : splitLines (replaceRange source start finish replacement) =
    spliceLines source start finish replacement
  /-- A line within the frontier is there, and is the source's if it was not replaced. -/
  covered : ∀ n line, n + 1 ≤ recordedFrontier start finish replacement →
    (splitLines source)[n]? = some line →
    ∃ kept, (splitLines (replaceRange source start finish replacement))[n]? = some kept ∧
      (n + 1 < start ∨ finish < n + 1 → kept = line)

/-- The range reaches the end of an unterminated source, and what then comes last is an empty
line. -/
def LosesLastLine (source : Bytes) (start finish : Nat) (replacement : Bytes) : Prop :=
  source.getLast? ≠ some newline ∧ finish = totalLines source ∧
    ((splitLines source).take (start - 1) ++ splitLines replacement).getLast? = some []

instance (source : Bytes) (start finish : Nat) (replacement : Bytes) :
    Decidable (LosesLastLine source start finish replacement) :=
  inferInstanceAs (Decidable (_ ∧ _ ∧ _))

variable {source replacement : Bytes} {start finish : Nat}

theorem newline_notMem_of_mem_spliceLines
    (hline : line ∈ spliceLines source start finish replacement) : newline ∉ line := by
  unfold spliceLines at hline
  rcases mem_append.mp hline with hline | hline
  · rcases mem_append.mp hline with hline | hline
    · exact newline_notMem_of_mem_splitLines (mem_of_mem_take hline)
    · exact newline_notMem_of_mem_splitLines hline
  · exact newline_notMem_of_mem_splitLines (mem_of_mem_drop hline)

/-- An empty line at the end of an unterminated result comes from the replacement, or from the
source in front of it. -/
theorem losesLastLine_iff (hfinish : finish ≤ totalLines source) :
    LosesLastLine source start finish replacement ↔
      source.getLast? ≠ some newline ∧
        (spliceLines source start finish replacement).getLast? = some [] := by
  unfold LosesLastLine spliceLines
  rw [totalLines_eq_length] at hfinish ⊢
  refine and_congr_right fun hlast => ?_
  have hne := getLast?_splitLines_ne hlast
  by_cases hend : finish = (splitLines source).length
  · simp [hend]
  · have hdrop : (splitLines source).drop finish ≠ [] := by
      rw [← length_pos_iff, length_drop]
      omega
    rw [getLast?_append_of_ne_nil _ hdrop, getLast?_drop, if_neg (by omega)]
    simp [hend, hne]

theorem splitLines_replaceRange (hfinish : finish ≤ totalLines source) :
    splitLines (replaceRange source start finish replacement) =
      if LosesLastLine source start finish replacement then
        (spliceLines source start finish replacement).dropLast
      else spliceLines source start finish replacement := by
  have hfree : ∀ line ∈ spliceLines source start finish replacement, newline ∉ line :=
    fun _ => newline_notMem_of_mem_spliceLines
  unfold replaceRange
  simp only [losesLastLine_iff hfinish]
  by_cases hterminated : source.getLast? = some newline
  · by_cases hne : spliceLines source start finish replacement = []
    · simp [hne, joinLines]
    · rw [if_pos ⟨hne, hterminated⟩, splitLines_joinLines_newline hne hfree]
      simp [hterminated]
  · rw [if_neg (by simp [hterminated]), splitLines_joinLines hfree]
    simp [hterminated]

theorem length_spliceLines (hstart : 1 ≤ start) (hle : start ≤ finish)
    (hfinish : finish ≤ totalLines source) :
    (spliceLines source start finish replacement).length =
      totalLines source - (finish - start + 1) + totalLines replacement := by
  rw [totalLines_eq_length] at hfinish
  rw [totalLines_eq_length source, totalLines_eq_length replacement, spliceLines,
    length_append, length_append, length_take, length_drop]
  omega

/-- The lines outside the range stay where the frontier says so. -/
theorem spliceLines_covered (hstart : 1 ≤ start) (hle : start ≤ finish)
    (hfinish : finish ≤ totalLines source) {n : Nat}
    (hcovered : n + 1 ≤ recordedFrontier start finish replacement)
    (hline : (splitLines source)[n]? = some line) :
    ∃ kept, (spliceLines source start finish replacement)[n]? = some kept ∧
      (n + 1 < start ∨ finish < n + 1 → kept = line) := by
  have hlength := @length_spliceLines source replacement start finish hstart hle hfinish
  rw [totalLines_eq_length] at hfinish
  have hn := (List.getElem?_eq_some_iff.mp hline).1
  unfold recordedFrontier at hcovered
  rw [totalLines_eq_length replacement] at hcovered hlength
  rw [totalLines_eq_length] at hlength
  have hlt : n < (spliceLines source start finish replacement).length := by
    split_ifs at hcovered <;> omega
  obtain ⟨kept, hkept⟩ : ∃ kept, (spliceLines source start finish replacement)[n]? = some kept :=
    ⟨_, List.getElem?_eq_getElem hlt⟩
  refine ⟨kept, hkept, fun houtside => ?_⟩
  unfold spliceLines at hkept
  split_ifs at hcovered <;> grind

/-- The law holds for every range, but for one that leaves an empty line at the end of an
unterminated file. -/
theorem rangeLaw_iff (hstart : 1 ≤ start) (hle : start ≤ finish)
    (hfinish : finish ≤ totalLines source) :
    RangeLaw source start finish replacement ↔
      ¬ LosesLastLine source start finish replacement := by
  have hsplit := @splitLines_replaceRange source replacement start finish hfinish
  constructor
  · intro hlaw hloses
    rw [hlaw.lines, if_pos hloses] at hsplit
    have hne := ((losesLastLine_iff hfinish).mp hloses).2
    have hlength := congrArg List.length hsplit
    rw [List.length_dropLast] at hlength
    have hempty := List.eq_nil_of_length_eq_zero (by omega :
      (spliceLines source start finish replacement).length = 0)
    rw [hempty] at hne
    cases hne
  · intro hkeeps
    rw [if_neg hkeeps] at hsplit
    refine ⟨?_, hsplit, ?_⟩
    · rw [totalLines_eq_length, hsplit, length_spliceLines hstart hle hfinish]
    · intro n line hcovered hline
      rw [hsplit]
      exact spliceLines_covered hstart hle hfinish hcovered hline

/-- The second line of two is replaced by one line and keeps the others in place. -/
theorem rangeLaw_iff_two_lines : RangeLaw [97, 10, 98] 2 2 [99] :=
  (rangeLaw_iff (by decide) (by decide) (by decide)).mpr (by decide)

/-- One unterminated line is replaced by one empty line: the file becomes empty, and the ledger
takes every line for valid. -/
theorem empty_line_lost :
    replaceRange [97] 1 1 [10] = [] ∧ totalLines [10] = 1 ∧
      recordedFrontier 1 1 [10] = allLinesValid ∧ ¬ RangeLaw [97] 1 1 [10] := by
  refine ⟨by decide, by decide, by decide, fun hlaw => ?_⟩
  have hlines := hlaw.lines
  revert hlines
  decide

end MangoStudio.Filesystem
