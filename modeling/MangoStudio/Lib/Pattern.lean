import Mathlib

/-!
# Anchored patterns over character classes

A schema language states a string's grammar as an anchored regular expression;
a hand-written recogniser walks the string.  This module is what it takes to
compare the two: Mathlib's `RegularExpression` with the operators that such
patterns use, and one membership lemma for each.

* `oneOf`, `optional` and `oneOrMore` are `[..]`, `?` and `+`.
* `word` is a class followed by any number of symbols of another
  (`mem_word_cons`).
* `segment` also fixes the class of the last symbol, and lets the first symbol
  stand alone (`mem_segment_cons`).
* `separated` is two or more words with a separator between them.  When no
  word holds the separator it is the language of the strings that
  `List.splitOn` cuts into at least two words (`mem_separated`).

`charRange` is the class `[lo-hi]`.
-/

namespace Pattern

open Language List

open RegularExpression

variable {α : Type*}

/-! ## Operators -/

/-- One symbol of a class. -/
def oneOf (symbols : List α) : RegularExpression α :=
  symbols.foldr (fun symbol rest => char symbol + rest) 0

/-- Nothing, or one match. -/
def optional (r : RegularExpression α) : RegularExpression α := 1 + r

/-- One match or more. -/
def oneOrMore (r : RegularExpression α) : RegularExpression α := r * star r

/-- A symbol of `first`, then any number of symbols of `rest`. -/
def word (first rest : List α) : RegularExpression α := oneOf first * star (oneOf rest)

/-- A symbol of `first`, alone or followed by symbols of `inner` and one of
`last`. -/
def segment (first inner last : List α) : RegularExpression α :=
  oneOf first * optional (star (oneOf inner) * oneOf last)

/-- Two or more matches with `separator` between them. -/
def separated (separator : α) (r : RegularExpression α) : RegularExpression α :=
  r * oneOrMore (char separator * r)

/-! ## Membership -/

theorem mem_oneOf {symbols w : List α} :
    w ∈ (oneOf symbols).matches' ↔ ∃ a ∈ symbols, w = [a] := by
  induction symbols with
  | nil => simp [oneOf, notMem_zero]
  | cons symbol symbols ih =>
    have hcons : oneOf (symbol :: symbols) = char symbol + oneOf symbols := rfl
    rw [hcons, matches'_add, matches'_char, mem_add, ih]
    simp only [mem_cons, exists_eq_or_imp]
    exact Iff.rfl

theorem mem_star_oneOf {symbols w : List α} :
    w ∈ (star (oneOf symbols)).matches' ↔ ∀ a ∈ w, a ∈ symbols := by
  rw [matches'_star, mem_kstar]
  constructor
  · grind [mem_flatten, mem_oneOf]
  · intro h
    refine ⟨w.map (fun a => [a]), ?_, ?_⟩
    all_goals grind [flatMap_singleton', mem_oneOf]

variable {r : RegularExpression α} {w : List α}

theorem mem_optional :
    w ∈ (optional r).matches' ↔ w = [] ∨ w ∈ r.matches' := by
  rw [optional, matches'_add, matches'_epsilon, mem_add, mem_one]

variable {first : List α}

theorem mem_oneOf_mul_cons {a : α} :
    a :: w ∈ (oneOf first * r).matches' ↔ a ∈ first ∧ w ∈ r.matches' := by
  rw [matches'_mul, mem_mul]
  constructor
  · grind [mem_oneOf]
  · rintro ⟨ha, hw⟩
    exact ⟨[a], mem_oneOf.mpr ⟨a, ha, rfl⟩, w, hw, rfl⟩

theorem nil_notMem_oneOf_mul : [] ∉ (oneOf first * r).matches' := by
  rw [matches'_mul, mem_mul]
  rintro ⟨u, hu, v, -, huv⟩
  obtain ⟨b, -, rfl⟩ := mem_oneOf.mp hu
  simp at huv

theorem nil_notMem_word {rest : List α} : [] ∉ (word first rest).matches' :=
  nil_notMem_oneOf_mul

theorem mem_word_cons {rest : List α} {a : α} :
    a :: w ∈ (word first rest).matches' ↔ a ∈ first ∧ ∀ b ∈ w, b ∈ rest := by
  rw [word, mem_oneOf_mul_cons, mem_star_oneOf]

theorem nil_notMem_segment {inner last : List α} : [] ∉ (segment first inner last).matches' :=
  nil_notMem_oneOf_mul

theorem mem_star_mul_oneOf {inner last : List α} :
    w ∈ (star (oneOf inner) * oneOf last).matches' ↔
      ∃ v a, w = v ++ [a] ∧ (∀ b ∈ v, b ∈ inner) ∧ a ∈ last := by
  rw [matches'_mul, mem_mul]
  grind [mem_oneOf, mem_star_oneOf]

theorem mem_segment_cons {inner last : List α} (hlast : ∀ a ∈ last, a ∈ inner) {a : α} :
    a :: w ∈ (segment first inner last).matches' ↔
      a ∈ first ∧ (∀ b ∈ w, b ∈ inner) ∧ ∀ b, w.getLast? = some b → b ∈ last := by
  rw [segment, mem_oneOf_mul_cons, mem_optional, mem_star_mul_oneOf]
  refine and_congr_right fun _ => ?_
  constructor
  · grind
  · rintro ⟨hinner, hend⟩
    rcases eq_nil_or_concat' w with rfl | ⟨v, c, rfl⟩
    all_goals grind

/-! ## Separated words -/

variable {separator : α}

theorem mem_star_char_mul :
    w ∈ (star (char separator * r)).matches' ↔
      ∃ words : List (List α), (∀ u ∈ words, u ∈ r.matches') ∧
        w = (words.map (separator :: ·)).flatten := by
  rw [matches'_star, mem_kstar]
  constructor
  · rintro ⟨pieces, rfl, hpieces⟩
    induction pieces with
    | nil => exact ⟨[], by simp, rfl⟩
    | cons piece pieces ih =>
      have hpiece := hpieces piece mem_cons_self
      rw [matches'_mul, mem_mul] at hpiece
      obtain ⟨c, rfl, u, hu, rfl⟩ := hpiece
      obtain ⟨words, hwords, hflat⟩ := ih fun y hy => hpieces y (mem_cons_of_mem _ hy)
      refine ⟨u :: words, ?_, ?_⟩
      all_goals grind
  · rintro ⟨words, hwords, rfl⟩
    refine ⟨words.map (separator :: ·), rfl, ?_⟩
    intro piece hpiece
    obtain ⟨u, hu, rfl⟩ := mem_map.mp hpiece
    rw [matches'_mul, mem_mul]
    exact ⟨[separator], rfl, u, hwords u hu, rfl⟩

theorem intercalate_cons_eq (separator : α) (u : List α) (words : List (List α)) :
    [separator].intercalate (u :: words) = u ++ (words.map (separator :: ·)).flatten := by
  induction words generalizing u with
  | nil => simp
  | cons v words ih =>
    rw [intercalate_cons_cons, ih v]
    simp

theorem mem_separated_iff_exists :
    w ∈ (separated separator r).matches' ↔
      ∃ words : List (List α), 2 ≤ words.length ∧ (∀ u ∈ words, u ∈ r.matches') ∧
        [separator].intercalate words = w := by
  rw [separated, oneOrMore, matches'_mul, mem_mul]
  constructor
  · rintro ⟨u, hu, v, hv, rfl⟩
    rw [matches'_mul, mem_mul] at hv
    obtain ⟨s, hs, t, ht, rfl⟩ := hv
    rw [matches'_mul, mem_mul] at hs
    obtain ⟨c, rfl, x, hx, rfl⟩ := hs
    obtain ⟨words, hwords, rfl⟩ := mem_star_char_mul.mp ht
    refine ⟨u :: x :: words, by simp, ?_, ?_⟩
    · grind
    · rw [intercalate_cons_eq]
      simp
  · rintro ⟨words, hlen, hwords, rfl⟩
    match words, hlen with
    | u :: x :: rest, _ =>
      refine ⟨u, hwords u (by simp), [separator] ++ x ++ (rest.map (separator :: ·)).flatten,
        ?_, ?_⟩
      · rw [matches'_mul, mem_mul]
        refine ⟨[separator] ++ x, ?_, _, ?_, rfl⟩
        · rw [matches'_mul, mem_mul]
          exact ⟨[separator], rfl, x, hwords x (by simp), rfl⟩
        · exact mem_star_char_mul.mpr ⟨rest, fun y hy => hwords y (by simp [hy]), rfl⟩
      · rw [intercalate_cons_eq]
        simp

theorem mem_separated [DecidableEq α] (hfree : ∀ u ∈ r.matches', separator ∉ u) :
    w ∈ (separated separator r).matches' ↔
      2 ≤ (w.splitOn separator).length ∧ ∀ u ∈ w.splitOn separator, u ∈ r.matches' := by
  rw [mem_separated_iff_exists]
  constructor
  · rintro ⟨words, hlen, hwords, rfl⟩
    have hne : words ≠ [] := by
      rintro rfl
      simp at hlen
    rw [splitOn_intercalate separator (fun u hu => hfree u (hwords u hu)) hne]
    exact ⟨hlen, hwords⟩
  · rintro ⟨hlen, hwords⟩
    exact ⟨w.splitOn separator, hlen, hwords, intercalate_splitOn separator⟩

/-! ## Character ranges -/

/-- The class `[lo-hi]`. -/
def charRange (lo hi : Char) : List Char :=
  (List.range (hi.toNat + 1 - lo.toNat)).map fun k => Char.ofNat (lo.toNat + k)

theorem mem_charRange {lo hi : Char} (hhi : hi.toNat < 0xD800) {c : Char} :
    c ∈ charRange lo hi ↔ lo ≤ c ∧ c ≤ hi := by
  have hle : ∀ a b : Char, a ≤ b ↔ a.toNat ≤ b.toNat := fun _ _ => Iff.rfl
  rw [charRange, mem_map, hle, hle]
  constructor
  · grind [Char.toNat_ofNat]
  · rintro ⟨hlo, hc⟩
    refine ⟨c.toNat - lo.toNat, mem_range.mpr (by omega), ?_⟩
    rw [show lo.toNat + (c.toNat - lo.toNat) = c.toNat by omega, Char.ofNat_toNat]

end Pattern
