import Mathlib.Data.List.Basic

/-!
# Base64

The standard and the URL-safe alphabet.  Bytes are cut into six-bit values
(`sextets`), each value is written as one character, and a decoder joins the
values again (`join`).

* `join_sextets`: joining takes back the cut, for every number of bytes.
* `value_character`: every character of either alphabet is read back.
* `value_of_not_symbol`: what is in neither alphabet has no value.

How a text is scanned for values, and where the scan stops, is left to the
decoder at hand.
-/

namespace Base64

/-! ## Six-bit values -/

/-- The bytes as six-bit values, with zero bits after the last byte. -/
def sextets : List UInt8 → List UInt8
  | a :: b :: c :: rest =>
    (a >>> 2) :: ((a &&& 3) <<< 4 ||| b >>> 4) :: ((b &&& 15) <<< 2 ||| c >>> 6) :: (c &&& 63) ::
      sextets rest
  | [a, b] => [a >>> 2, (a &&& 3) <<< 4 ||| b >>> 4, (b &&& 15) <<< 2]
  | [a] => [a >>> 2, (a &&& 3) <<< 4]
  | [] => []

/-- The bytes of a list of values.  What does not fill a byte is dropped. -/
def join : List UInt8 → List UInt8
  | s :: t :: u :: v :: rest =>
    (s <<< 2 ||| t >>> 4) :: (t <<< 4 ||| u >>> 2) :: (u <<< 6 ||| v) :: join rest
  | [s, t, u] => [s <<< 2 ||| t >>> 4, t <<< 4 ||| u >>> 2]
  | [s, t] => [s <<< 2 ||| t >>> 4]
  | [_] => []
  | [] => []

theorem eq_of_bits {a b : UInt8} (h0 : a.toBitVec[0] = b.toBitVec[0])
    (h1 : a.toBitVec[1] = b.toBitVec[1]) (h2 : a.toBitVec[2] = b.toBitVec[2])
    (h3 : a.toBitVec[3] = b.toBitVec[3]) (h4 : a.toBitVec[4] = b.toBitVec[4])
    (h5 : a.toBitVec[5] = b.toBitVec[5]) (h6 : a.toBitVec[6] = b.toBitVec[6])
    (h7 : a.toBitVec[7] = b.toBitVec[7]) : a = b := by
  apply UInt8.toBitVec_inj.mp
  ext i hi
  have hcases : i = 0 ∨ i = 1 ∨ i = 2 ∨ i = 3 ∨ i = 4 ∨ i = 5 ∨ i = 6 ∨ i = 7 := by omega
  rcases hcases with rfl | rfl | rfl | rfl | rfl | rfl | rfl | rfl <;> assumption

theorem join_first (a b : UInt8) :
    (a >>> 2) <<< 2 ||| ((a &&& 3) <<< 4 ||| b >>> 4) >>> 4 = a := by
  apply eq_of_bits <;> simp

theorem join_second (a b c : UInt8) :
    ((a &&& 3) <<< 4 ||| b >>> 4) <<< 4 ||| ((b &&& 15) <<< 2 ||| c >>> 6) >>> 2 = b := by
  apply eq_of_bits <;> simp

theorem join_third (b c : UInt8) :
    ((b &&& 15) <<< 2 ||| c >>> 6) <<< 6 ||| (c &&& 63) = c := by
  apply eq_of_bits <;> simp

theorem join_sextets (bytes : List UInt8) : join (sextets bytes) = bytes := by
  induction bytes using sextets.induct with
  | case1 a b c rest ih =>
    simp only [sextets, join, ih, join_first, join_second, join_third]
  | case2 a b =>
    have hsecond := join_second a b 0
    simp only [UInt8.zero_shiftRight, UInt8.or_zero] at hsecond
    simp only [sextets, join, join_first, hsecond]
  | case3 a =>
    have hfirst := join_first a 0
    simp only [UInt8.zero_shiftRight, UInt8.or_zero] at hfirst
    simp only [sextets, join, hfirst]
  | case4 => rfl

theorem or_lt {s t : UInt8} (hs : s < 64) (ht : t < 64) : s ||| t < 64 := by
  rw [UInt8.lt_iff_toNat_lt, UInt8.toNat_or]
  exact @Nat.or_lt_two_pow s.toNat t.toNat 6 hs ht

theorem shiftRight_lt (a : UInt8) : a >>> 2 < 64 ∧ a >>> 4 < 64 ∧ a >>> 6 < 64 := by
  have ha := a.toNat_lt
  refine ⟨?_, ?_, ?_⟩ <;>
    rw [UInt8.lt_iff_toNat_lt, UInt8.toNat_shiftRight, Nat.shiftRight_eq_div_pow] <;>
    simp <;> omega

theorem and_shiftLeft_lt (a : UInt8) :
    (a &&& 3) <<< 4 < 64 ∧ (a &&& 15) <<< 2 < 64 ∧ a &&& 63 < 64 := by
  have hthree : a.toNat &&& 3 ≤ 3 := Nat.and_le_right
  have hfifteen : a.toNat &&& 15 ≤ 15 := Nat.and_le_right
  have hlast : a.toNat &&& 63 ≤ 63 := Nat.and_le_right
  refine ⟨?_, ?_, ?_⟩
  · rw [UInt8.lt_iff_toNat_lt, UInt8.toNat_shiftLeft, UInt8.toNat_and, Nat.shiftLeft_eq]
    simp
    omega
  · rw [UInt8.lt_iff_toNat_lt, UInt8.toNat_shiftLeft, UInt8.toNat_and, Nat.shiftLeft_eq]
    simp
    omega
  · rw [UInt8.lt_iff_toNat_lt, UInt8.toNat_and]
    simp
    omega

theorem lt_of_mem_sextets {bytes : List UInt8} {s : UInt8} (hmem : s ∈ sextets bytes) :
    s < 64 := by
  induction bytes using sextets.induct with
  | case1 a b c rest ih =>
    simp only [sextets, List.mem_cons] at hmem
    rcases hmem with rfl | rfl | rfl | rfl | hmem
    · exact (shiftRight_lt a).1
    · exact or_lt (and_shiftLeft_lt a).1 (shiftRight_lt b).2.1
    · exact or_lt (and_shiftLeft_lt b).2.1 (shiftRight_lt c).2.2
    · exact (and_shiftLeft_lt c).2.2
    · exact ih hmem
  | case2 a b =>
    simp only [sextets, List.mem_cons, List.not_mem_nil, or_false] at hmem
    rcases hmem with rfl | rfl | rfl
    · exact (shiftRight_lt a).1
    · exact or_lt (and_shiftLeft_lt a).1 (shiftRight_lt b).2.1
    · exact (and_shiftLeft_lt b).2.1
  | case3 a =>
    simp only [sextets, List.mem_cons, List.not_mem_nil, or_false] at hmem
    rcases hmem with rfl | rfl
    · exact (shiftRight_lt a).1
    · exact (and_shiftLeft_lt a).1
  | case4 => cases hmem

/-! ## Characters -/

/-- The character of a value below 64. -/
def character (s : UInt8) : Char :=
  if s < 26 then Char.ofNat (65 + s.toNat)
  else if s < 52 then Char.ofNat (97 + (s.toNat - 26))
  else if s < 62 then Char.ofNat (48 + (s.toNat - 52))
  else if s = 62 then '+' else '/'

/-- The value of an ASCII character of either alphabet. -/
def value (byte : UInt8) : Option UInt8 :=
  if 65 ≤ byte ∧ byte ≤ 90 then some (byte - 65)
  else if 97 ≤ byte ∧ byte ≤ 122 then some (byte - 97 + 26)
  else if 48 ≤ byte ∧ byte ≤ 57 then some (byte - 48 + 52)
  else if byte = 43 ∨ byte = 45 then some 62
  else if byte = 47 ∨ byte = 95 then some 63
  else none

inductive Alphabet where
  | standard
  | urlSafe
  deriving DecidableEq

def Alphabet.character : Alphabet → UInt8 → Char
  | .standard, s => Base64.character s
  | .urlSafe, s => if s = 62 then '-' else if s = 63 then '_' else Base64.character s

theorem value_character (alphabet : Alphabet) {s : UInt8} (hs : s < 64) :
    (alphabet.character s).toNat < 128 ∧
      value (UInt8.ofNat (alphabet.character s).toNat) = some s := by
  have hall : ∀ n : Fin 64,
      (alphabet.character (UInt8.ofNat n)).toNat < 128 ∧
        value (UInt8.ofNat (alphabet.character (UInt8.ofNat n)).toNat) = some (UInt8.ofNat n) := by
    cases alphabet <;> decide
  have hlt : s.toNat < 64 := hs
  have h := hall ⟨s.toNat, hlt⟩
  simpa using h

/-- A character of one of the alphabets, or the padding. -/
def Symbol (c : Char) : Prop :=
  c = '=' ∨ ∃ n : Fin 64, Alphabet.standard.character (UInt8.ofNat n) = c ∨
    Alphabet.urlSafe.character (UInt8.ofNat n) = c

instance (c : Char) : Decidable (Symbol c) :=
  inferInstanceAs (Decidable (_ ∨ ∃ _ : Fin 64, _))

theorem character_value {byte s : UInt8} (hvalue : value byte = some s) :
    s.toNat < 64 ∧ (Alphabet.standard.character s = Char.ofNat byte.toNat ∨
      Alphabet.urlSafe.character s = Char.ofNat byte.toNat) := by
  have hall : ∀ n : Fin 256, ∀ s ∈ value (UInt8.ofNat n), s.toNat < 64 ∧
      (Alphabet.standard.character s = Char.ofNat n ∨
        Alphabet.urlSafe.character s = Char.ofNat n) := by
    decide +kernel
  exact hall ⟨byte.toNat, byte.toNat_lt⟩ s (by simpa using hvalue)

/-- The values are those of the two alphabets: any other byte has none. -/
theorem value_of_not_symbol {byte : UInt8} (hbyte : ¬ Symbol (Char.ofNat byte.toNat)) :
    byte ≠ 61 ∧ value byte = none := by
  constructor
  · rintro rfl
    exact hbyte (.inl rfl)
  · cases hvalue : value byte with
    | none => rfl
    | some s =>
      obtain ⟨hlt, hcharacter⟩ := character_value hvalue
      exact absurd (.inr ⟨⟨s.toNat, hlt⟩, by simpa using hcharacter⟩) hbyte

/-- The padding after the characters of so many bytes. -/
def padding (length : Nat) : List Char :=
  List.replicate ((3 - length % 3) % 3) '='

/-- The text of the bytes in an alphabet, with or without padding. -/
def text (alphabet : Alphabet) (padded : Bool) (bytes : List UInt8) : List Char :=
  (sextets bytes).map alphabet.character ++ if padded then padding bytes.length else []

def encode (bytes : List UInt8) : String :=
  String.ofList ((sextets bytes).map character ++ padding bytes.length)

end Base64
