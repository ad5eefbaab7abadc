import Mathlib

/-!
# UTF-8 as a byte machine

The decoder of the Encoding Standard reads one byte at a time and keeps the
bytes still owed, the range the next byte must fall in, and the code point
assembled so far.  `tokens` is that machine on a byte list: `some c` for a
character and `none` for one ill-formed subsequence.  The two readings that
programs use are both read off it:

* `decodeLossy` puts U+FFFD where the machine reports an error, as
  `TextDecoder` and `String::from_utf8_lossy` do;
* `decode?` refuses the whole input at the first error, as
  `str::from_utf8` does.

`tokens_encode` says that the machine reads an encoded text back, and
`forall_mem_decodeLossy` moves a predicate on ASCII characters between the bytes
and the lossy text.
-/

namespace Utf8

open List

/-- What the machine owes: nothing between characters, or `needed` more bytes
of which the next lies between `lower` and `upper`. -/
inductive State where
  | start
  | more (needed lower upper codePoint : Nat)
  deriving DecidableEq, Repr

/-- The character that replaces an ill-formed subsequence. -/
def replacement : Char := '�'

/-- The first byte of a character. -/
def first (b : Nat) : List (Option Char) × State :=
  if b ≤ 0x7F then ([some (Char.ofNat b)], .start)
  else if 0xC2 ≤ b ∧ b ≤ 0xDF then ([], .more 1 0x80 0xBF (b - 0xC0))
  else if 0xE0 ≤ b ∧ b ≤ 0xEF then
    ([], .more 2 (if b = 0xE0 then 0xA0 else 0x80)
      (if b = 0xED then 0x9F else 0xBF) (b - 0xE0))
  else if 0xF0 ≤ b ∧ b ≤ 0xF4 then
    ([], .more 3 (if b = 0xF0 then 0x90 else 0x80)
      (if b = 0xF4 then 0x8F else 0xBF) (b - 0xF0))
  else ([none], .start)

/-- One byte.  A byte outside the owed range ends the subsequence with an
error and is read again as a first byte. -/
def step : State → Nat → List (Option Char) × State
  | .start, b => first b
  | .more needed lower upper codePoint, b =>
    if lower ≤ b ∧ b ≤ upper then
      if needed ≤ 1 then ([some (Char.ofNat (codePoint * 64 + (b - 0x80)))], .start)
      else ([], .more (needed - 1) 0x80 0xBF (codePoint * 64 + (b - 0x80)))
    else (none :: (first b).1, (first b).2)

/-- The machine from state `s` to the end of the input.  An input that ends
inside a character is one more error. -/
def tokensFrom : State → List UInt8 → List (Option Char)
  | .start, [] => []
  | .more .., [] => [none]
  | s, b :: bytes => (step s b.toNat).1 ++ tokensFrom (step s b.toNat).2 bytes

/-- The machine from between characters. -/
def tokens (bytes : List UInt8) : List (Option Char) := tokensFrom .start bytes

/-- The text with U+FFFD in place of every error. -/
def decodeLossy (bytes : List UInt8) : List Char :=
  (tokens bytes).map fun t => t.getD replacement

/-- The text of well-formed bytes, and nothing for ill-formed ones. -/
def decode? (bytes : List UInt8) : Option (List Char) := (tokens bytes).mapM id

/-- The UTF-8 bytes of a text. -/
def encode (text : List Char) : List UInt8 := text.flatMap String.utf8EncodeChar

@[simp] theorem encode_nil : encode [] = [] := rfl

theorem encode_cons (c : Char) (text : List Char) :
    encode (c :: text) = String.utf8EncodeChar c ++ encode text := by
  simp [encode]

@[simp] theorem encode_append (left right : List Char) :
    encode (left ++ right) = encode left ++ encode right := by
  simp [encode]

/-- How many bytes a text encodes to. -/
def byteLength (text : List Char) : Nat := (text.map Char.utf8Size).sum

@[simp] theorem byteLength_nil : byteLength [] = 0 := rfl

@[simp] theorem byteLength_cons (c : Char) (text : List Char) :
    byteLength (c :: text) = c.utf8Size + byteLength text := by
  simp [byteLength]

@[simp] theorem byteLength_append (left right : List Char) :
    byteLength (left ++ right) = byteLength left + byteLength right := by
  simp [byteLength]

theorem length_encode (text : List Char) : (encode text).length = byteLength text := by
  induction text with
  | nil => rfl
  | cons c text ih =>
    rw [encode_cons, length_append, String.length_utf8EncodeChar, ih, byteLength_cons]

/-! ## Reading an encoded text back -/

theorem tokensFrom_more_cons {needed lower upper codePoint b : Nat}
    (hb : b < 256) (hlower : lower ≤ b) (hupper : b ≤ upper) (bytes : List UInt8) :
    tokensFrom (.more needed lower upper codePoint) (UInt8.ofNat b :: bytes) =
      if needed ≤ 1 then
        some (Char.ofNat (codePoint * 64 + (b - 0x80))) :: tokensFrom .start bytes
      else tokensFrom (.more (needed - 1) 0x80 0xBF (codePoint * 64 + (b - 0x80))) bytes := by
  have hn : (UInt8.ofNat b).toNat = b := by
    simp only [UInt8.toNat_ofNat']
    omega
  rw [tokensFrom, hn, step, if_pos ⟨hlower, hupper⟩]
  split <;> rfl

theorem tokensFrom_start_cons {b : Nat} (hb : b < 256) (bytes : List UInt8) :
    tokensFrom .start (UInt8.ofNat b :: bytes) =
      (first b).1 ++ tokensFrom (first b).2 bytes := by
  have hn : (UInt8.ofNat b).toNat = b := by
    simp only [UInt8.toNat_ofNat']
    omega
  rw [tokensFrom, hn, step]

theorem tokensFrom_encodeChar (c : Char) (bytes : List UInt8) :
    tokensFrom .start (String.utf8EncodeChar c ++ bytes) =
      some c :: tokensFrom .start bytes := by
  have hvalid : c.toNat < 0xD800 ∨ 0xDFFF < c.toNat ∧ c.toNat < 0x110000 := c.valid
  have hofNat : Char.ofNat c.toNat = c := Char.ofNat_toNat c
  unfold String.utf8EncodeChar
  simp only [show c.val.toNat = c.toNat from rfl]
  generalize c.toNat = v at hvalid hofNat
  split_ifs with h1 h2 h3
  · rw [cons_append, nil_append, tokensFrom_start_cons (by omega)]
    simp [first, h1, hofNat]
  · have hlead : v / 64 % 32 + 192 = v / 64 + 192 := by omega
    have hfirst : first (v / 64 + 192) = ([], .more 1 0x80 0xBF (v / 64)) := by
      unfold first
      rw [if_neg (by omega), if_pos (by omega)]
      simp
    have hv : v / 64 * 64 + (v % 64 + 128 - 0x80) = v := by omega
    rw [hlead, cons_append, tokensFrom_start_cons (by omega), hfirst, nil_append,
      cons_append, nil_append,
      tokensFrom_more_cons (b := v % 64 + 128) (by omega) (by omega) (by omega),
      if_pos (by omega), hv, hofNat]
  · have hlead : v / 4096 % 16 + 224 = v / 4096 + 224 := by omega
    have hfirst : first (v / 4096 + 224) = ([], .more 2 (if v / 4096 = 0 then 0xA0 else 0x80)
        (if v / 4096 = 13 then 0x9F else 0xBF) (v / 4096)) := by
      unfold first
      rw [if_neg (by omega), if_neg (by omega), if_pos (by omega)]
      simp
    have hlow : (if v / 4096 = 0 then 0xA0 else 0x80) ≤ v / 64 % 64 + 128 := by
      split <;> omega
    have hhigh : v / 64 % 64 + 128 ≤ if v / 4096 = 13 then 0x9F else 0xBF := by
      split <;> omega
    have hv : (v / 4096 * 64 + (v / 64 % 64 + 128 - 0x80)) * 64 + (v % 64 + 128 - 0x80) = v := by
      omega
    rw [hlead, cons_append, tokensFrom_start_cons (by omega), hfirst, nil_append,
      cons_append, tokensFrom_more_cons (b := v / 64 % 64 + 128) (by omega) hlow hhigh,
      if_neg (by omega), cons_append, nil_append,
      tokensFrom_more_cons (b := v % 64 + 128) (by omega) (by omega) (by omega),
      if_pos (by omega), hv, hofNat]
  · have hlead : v / 262144 % 8 + 240 = v / 262144 + 240 := by omega
    have hfirst : first (v / 262144 + 240) = ([], .more 3 (if v / 262144 = 0 then 0x90 else 0x80)
        (if v / 262144 = 4 then 0x8F else 0xBF) (v / 262144)) := by
      unfold first
      rw [if_neg (by omega), if_neg (by omega), if_neg (by omega), if_pos (by omega)]
      simp
    have hlow : (if v / 262144 = 0 then 0x90 else 0x80) ≤ v / 4096 % 64 + 128 := by
      split <;> omega
    have hhigh : v / 4096 % 64 + 128 ≤ if v / 262144 = 4 then 0x8F else 0xBF := by
      split <;> omega
    have hv : ((v / 262144 * 64 + (v / 4096 % 64 + 128 - 0x80)) * 64
        + (v / 64 % 64 + 128 - 0x80)) * 64 + (v % 64 + 128 - 0x80) = v := by
      omega
    rw [hlead, cons_append, tokensFrom_start_cons (by omega), hfirst, nil_append,
      cons_append, tokensFrom_more_cons (b := v / 4096 % 64 + 128) (by omega) hlow hhigh,
      if_neg (by omega), cons_append,
      tokensFrom_more_cons (b := v / 64 % 64 + 128) (by omega) (by omega) (by omega),
      if_neg (by omega), cons_append, nil_append,
      tokensFrom_more_cons (b := v % 64 + 128) (by omega) (by omega) (by omega),
      if_pos (by omega), hv, hofNat]

theorem tokens_encode (text : List Char) : tokens (encode text) = text.map some := by
  induction text with
  | nil => rfl
  | cons c text ih =>
    rw [tokens] at ih
    rw [tokens, encode_cons, tokensFrom_encodeChar, ih, map_cons]

@[simp] theorem decodeLossy_encode (text : List Char) : decodeLossy (encode text) = text := by
  simp [decodeLossy, tokens_encode]

@[simp] theorem decode?_encode (text : List Char) : decode? (encode text) = some text := by
  rw [decode?, tokens_encode]
  induction text with
  | nil => rfl
  | cons c text ih => simp [ih]

/-! ## ASCII characters

A byte below `0x80` is its own character, and every byte from `0x80` up leaves
a character from U+0080 up in the text, its own or U+FFFD. -/

/-- Every way to pay `needed` more bytes gives a character from U+0080 up. -/
def OwesNonAscii : Nat → Nat → Nat → Nat → Prop
  | 0, _, _, _ => False
  | 1, lower, upper, codePoint => ∀ b, lower ≤ b → b ≤ upper →
      128 ≤ (Char.ofNat (codePoint * 64 + (b - 0x80))).toNat
  | needed + 2, lower, upper, codePoint => ∀ b, lower ≤ b → b ≤ upper →
      OwesNonAscii (needed + 1) 0x80 0xBF (codePoint * 64 + (b - 0x80))

private theorem toNat_ofNat_of_scalar {n : Nat}
    (h : n < 0xD800 ∨ 0xDFFF < n ∧ n < 0x110000) : (Char.ofNat n).toNat = n := by
  rw [Char.toNat_ofNat, if_pos]
  exact h

theorem first_of_nonAscii {b : Nat} (h : 0x80 ≤ b) :
    first b = ([none], .start) ∨ ∃ needed lower upper codePoint,
      first b = ([], .more needed lower upper codePoint) ∧
        OwesNonAscii needed lower upper codePoint := by
  unfold first
  rw [if_neg (by omega)]
  by_cases h2 : 0xC2 ≤ b ∧ b ≤ 0xDF
  · rw [if_pos h2]
    refine Or.inr ⟨_, _, _, _, rfl, fun c hl hu => ?_⟩
    rw [toNat_ofNat_of_scalar (by omega)]
    omega
  rw [if_neg h2]
  by_cases h3 : 0xE0 ≤ b ∧ b ≤ 0xEF
  · rw [if_pos h3]
    refine Or.inr ⟨_, _, _, _, rfl, fun c hl hu d hl' hu' => ?_⟩
    -- `0xE0` and `0xED` narrow the second byte, which keeps out the overlong
    -- forms and the surrogates.
    have hscalar : (b - 0xE0) * 64 + (c - 0x80) < 0x360 ∨
        0x380 ≤ (b - 0xE0) * 64 + (c - 0x80) ∧ (b - 0xE0) * 64 + (c - 0x80) < 0x400 := by
      split at hl <;> split at hu <;> omega
    have hlarge : 2 ≤ (b - 0xE0) * 64 + (c - 0x80) := by
      split at hl <;> omega
    rw [toNat_ofNat_of_scalar (by omega)]
    omega
  rw [if_neg h3]
  by_cases h4 : 0xF0 ≤ b ∧ b ≤ 0xF4
  · rw [if_pos h4]
    refine Or.inr ⟨_, _, _, _, rfl, fun c hl hu d hl' hu' e hl'' hu'' => ?_⟩
    have hsmall : (b - 0xF0) * 64 + (c - 0x80) < 0x110 := by
      split at hl <;> split at hu <;> omega
    have hlarge : 16 ≤ (b - 0xF0) * 64 + (c - 0x80) := by
      split at hl <;> omega
    rw [toNat_ofNat_of_scalar (by omega)]
    omega
  rw [if_neg h4]
  exact Or.inl rfl

theorem exists_nonAscii_of_owes (bytes : List UInt8) :
    ∀ {needed lower upper codePoint : Nat}, OwesNonAscii needed lower upper codePoint →
      ∃ t ∈ tokensFrom (.more needed lower upper codePoint) bytes,
        128 ≤ (t.getD replacement).toNat := by
  induction bytes with
  | nil =>
    intro needed lower upper codePoint _
    exact ⟨none, by simp [tokensFrom], by decide⟩
  | cons b bytes ih =>
    intro needed lower upper codePoint howes
    rw [tokensFrom, step]
    by_cases hb : lower ≤ b.toNat ∧ b.toNat ≤ upper
    · rw [if_pos hb]
      match needed, howes with
      | 1, howes =>
        simp only [OwesNonAscii] at howes
        refine ⟨some (Char.ofNat (codePoint * 64 + (b.toNat - 0x80))), by simp, ?_⟩
        rw [Option.getD_some]
        exact howes b.toNat hb.1 hb.2
      | needed + 2, howes =>
        rw [if_neg (by omega)]
        obtain ⟨t, ht, hlarge⟩ := ih (howes b.toNat hb.1 hb.2)
        exact ⟨t, by simpa using ht, hlarge⟩
    · rw [if_neg hb]
      exact ⟨none, by simp, by decide⟩

theorem forall_mem_decodeLossy {P : Char → Prop} (hP : ∀ c, P c → c.toNat < 128)
    (bytes : List UInt8) :
    (∀ c ∈ decodeLossy bytes, P c) ↔ ∀ b ∈ bytes, P (Char.ofNat b.toNat) := by
  unfold decodeLossy tokens
  induction bytes with
  | nil => simp [tokensFrom]
  | cons b bytes ih =>
    have hlt : b.toNat < 256 := UInt8.toNat_lt b
    rw [tokensFrom, step]
    by_cases hb : b.toNat ≤ 0x7F
    · have hfirst : first b.toNat = ([some (Char.ofNat b.toNat)], .start) := by
        rw [first, if_pos hb]
      simp only [hfirst, cons_append, nil_append, map_cons,
        Option.getD_some, forall_mem_cons, ih]
    · -- A byte from `0x80` up breaks both sides.
      have hright : ¬ P (Char.ofNat b.toNat) := by
        intro hp
        have := hP _ hp
        rw [toNat_ofNat_of_scalar (by omega)] at this
        omega
      refine iff_of_false ?_ (fun h => hright (h b (by simp)))
      intro h
      rcases first_of_nonAscii (b := b.toNat) (by omega) with
        hf | ⟨needed, lower, upper, codePoint, hf, howes⟩
      · have := hP _ (h replacement (by simp [hf]))
        exact absurd this (by decide)
      · obtain ⟨t, ht, hlarge⟩ := exists_nonAscii_of_owes bytes howes
        have := hP _ (h (t.getD replacement) (mem_map.mpr ⟨t, by simpa [hf] using ht, rfl⟩))
        omega

end Utf8
