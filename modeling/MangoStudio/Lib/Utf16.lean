import MangoStudio.Lib.JsText
import MangoStudio.Lib.Utf8

/-!
# Characters and code units

A JavaScript string made of characters gives them back (`toChars_ofChars`), and
so `TextEncoder` writes it as the UTF-8 bytes of those characters
(`encode_ofChars`).  A surrogate without its other half is written as U+FFFD.
-/

namespace JsText

/-- The string with the given characters. -/
def ofChars (text : List Char) : Units := text.flatMap ofChar

theorem ofChars_append (left right : List Char) :
    ofChars (left ++ right) = ofChars left ++ ofChars right :=
  List.flatMap_append

theorem ofChars_flatMap {α : Type} (items : List α) (text : α → List Char) :
    ofChars (items.flatMap text) = items.flatMap fun item => ofChars (text item) :=
  List.flatMap_assoc

/-- The character of a surrogate pair. -/
def pairChar (high low : UInt16) : Char :=
  Char.ofNat (0x10000 + (high.toNat - 0xD800) * 0x400 + (low.toNat - 0xDC00))

/-- A single unit as a character. -/
def unitChar (u : UInt16) : Char :=
  if isHighSurrogate u || isLowSurrogate u then Utf8.replacement else Char.ofNat u.toNat

/-- The characters of a string, with U+FFFD for a half of a pair. -/
def toChars : Units → List Char
  | [] => []
  | [u] => [unitChar u]
  | u :: v :: rest =>
    if isHighSurrogate u && isLowSurrogate v then pairChar u v :: toChars rest
    else unitChar u :: toChars (v :: rest)

/-- The bytes `TextEncoder` writes. -/
def encode (text : Units) : List UInt8 := Utf8.encode (toChars text)

/-- The number of units of a character. -/
def unitSize (c : Char) : Nat := if c.toNat < 0x10000 then 1 else 2

theorem unitSize_pos (c : Char) : 0 < unitSize c := by
  unfold unitSize
  split_ifs <;> omega

theorem length_ofChar (c : Char) : (ofChar c).length = unitSize c := by
  unfold ofChar unitSize
  split_ifs <;> rfl

theorem length_ofChars (text : List Char) :
    (ofChars text).length = (text.map unitSize).sum := by
  rw [ofChars, List.length_flatMap]
  congr 1
  exact List.map_congr_left fun c _ => length_ofChar c

/-! ## Reading a string back -/

theorem toNat_toUInt16 {n : Nat} (h : n < 0x10000) : n.toUInt16.toNat = n :=
  Nat.mod_eq_of_lt h

theorem isHighSurrogate_iff (u : UInt16) :
    isHighSurrogate u = true ↔ 0xD800 ≤ u.toNat ∧ u.toNat ≤ 0xDBFF := by
  simp only [isHighSurrogate, Bool.and_eq_true, decide_eq_true_eq, UInt16.le_iff_toNat_le]
  rfl

theorem isLowSurrogate_iff (u : UInt16) :
    isLowSurrogate u = true ↔ 0xDC00 ≤ u.toNat ∧ u.toNat ≤ 0xDFFF := by
  simp only [isLowSurrogate, Bool.and_eq_true, decide_eq_true_eq, UInt16.le_iff_toNat_le]
  rfl

theorem toChars_cons_of_plain {u : UInt16} (hhigh : isHighSurrogate u = false)
    (hlow : isLowSurrogate u = false) (rest : Units) :
    toChars (u :: rest) = Char.ofNat u.toNat :: toChars rest := by
  have hunit : unitChar u = Char.ofNat u.toNat := by simp [unitChar, hhigh, hlow]
  cases rest with
  | nil =>
    show [unitChar u] = [Char.ofNat u.toNat]
    rw [hunit]
  | cons v rest => rw [toChars, hhigh, Bool.false_and, if_neg Bool.false_ne_true, hunit]

theorem toChars_ofChar_append (c : Char) (rest : Units) :
    toChars (ofChar c ++ rest) = c :: toChars rest := by
  have hvalid : c.toNat < 0xD800 ∨ 0xDFFF < c.toNat ∧ c.toNat < 0x110000 := c.valid
  unfold ofChar
  split_ifs with hsmall
  · have hnat := toNat_toUInt16 hsmall
    have hhigh : isHighSurrogate c.toNat.toUInt16 = false := by
      rw [Bool.eq_false_iff, Ne, isHighSurrogate_iff, hnat]
      omega
    have hlow : isLowSurrogate c.toNat.toUInt16 = false := by
      rw [Bool.eq_false_iff, Ne, isLowSurrogate_iff, hnat]
      omega
    show toChars (_ :: rest) = _
    rw [toChars_cons_of_plain hhigh hlow, hnat, Char.ofNat_toNat]
  · have hhighNat := toNat_toUInt16 (n := 0xD800 + (c.toNat - 0x10000) / 0x400) (by omega)
    have hlowNat := toNat_toUInt16 (n := 0xDC00 + (c.toNat - 0x10000) % 0x400) (by omega)
    have hhigh : isHighSurrogate (0xD800 + (c.toNat - 0x10000) / 0x400).toUInt16 = true := by
      rw [isHighSurrogate_iff, hhighNat]
      omega
    have hlow : isLowSurrogate (0xDC00 + (c.toNat - 0x10000) % 0x400).toUInt16 = true := by
      rw [isLowSurrogate_iff, hlowNat]
      omega
    show toChars (_ :: _ :: rest) = _
    rw [toChars, hhigh, hlow, Bool.and_self, if_pos rfl, pairChar, hhighNat, hlowNat]
    have hpoint : 0x10000 + (0xD800 + (c.toNat - 0x10000) / 0x400 - 0xD800) * 0x400 +
        (0xDC00 + (c.toNat - 0x10000) % 0x400 - 0xDC00) = c.toNat := by
      omega
    rw [hpoint, Char.ofNat_toNat]

@[simp] theorem toChars_ofChars (text : List Char) : toChars (ofChars text) = text := by
  induction text with
  | nil => rfl
  | cons c text ih =>
    show toChars (ofChar c ++ ofChars text) = _
    rw [toChars_ofChar_append, ih]

@[simp] theorem encode_ofChars (text : List Char) : encode (ofChars text) = Utf8.encode text := by
  rw [encode, toChars_ofChars]

end JsText
