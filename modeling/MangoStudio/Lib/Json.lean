import MangoStudio.Lib.Utf8

/-!
# JSON values and the compact text of one

A JSON value and the text that a compact serialiser writes for it.  The
serialisers of JavaScript and of `serde_json` write the same text for the same
value: no blanks, members in the order of the value, the two-character escapes
where JSON has one and `\u00xx` for every other control character.

A number is carried as the text its serialiser writes.  A size argument needs
no more of it, and a floating-point rendering stays out of the model.

`size` is the UTF-8 byte length of the compact text.  The lemmas below it are
what a size bound is computed with: `escapedSize` splits over `++`, is at most
six bytes a character (`escapedSize_le`), and a decimal numeral is at most as
long as its bound (`length_toString_le`).
-/

/-- A JSON value.  `num` carries the text its serialiser writes, and an object
is its member list in writing order. -/
inductive Json where
  | null
  | bool (value : Bool)
  | num (lexeme : String)
  | str (value : String)
  | arr (items : List Json)
  | obj (members : List (String × Json))

namespace Json

/-- A natural number as a JSON number. -/
def nat (n : Nat) : Json := .num (toString n)

/-- One lower-case hexadecimal digit. -/
def hexDigit (n : Nat) : Char :=
  if n < 10 then Char.ofNat (48 + n) else Char.ofNat (87 + n)

/-- How a serialiser writes one character of a string. -/
def escapeChar (c : Char) : List Char :=
  if c = '"' then ['\\', '"']
  else if c = '\\' then ['\\', '\\']
  else if c.toNat = 8 then ['\\', 'b']
  else if c.toNat = 9 then ['\\', 't']
  else if c.toNat = 10 then ['\\', 'n']
  else if c.toNat = 12 then ['\\', 'f']
  else if c.toNat = 13 then ['\\', 'r']
  else if c.toNat < 32 then
    ['\\', 'u', '0', '0', hexDigit (c.toNat / 16), hexDigit (c.toNat % 16)]
  else [c]

/-- The characters between the quotes of a string. -/
def escape (s : String) : List Char := s.toList.flatMap escapeChar

/-- A string with its quotes. -/
def renderString (s : String) : List Char := '"' :: escape s ++ ['"']

mutual

/-- The compact text of a value. -/
def render : Json → List Char
  | .null => ['n', 'u', 'l', 'l']
  | .bool true => ['t', 'r', 'u', 'e']
  | .bool false => ['f', 'a', 'l', 's', 'e']
  | .num lexeme => lexeme.toList
  | .str s => renderString s
  | .arr [] => ['[', ']']
  | .arr (item :: items) => '[' :: render item ++ renderItems items
  | .obj [] => ['\x7b', '\x7d']
  | .obj ((key, value) :: members) =>
    '\x7b' :: renderString key ++ ':' :: render value ++ renderMembers members

/-- The items after the first, and the closing bracket. -/
def renderItems : List Json → List Char
  | [] => [']']
  | item :: items => ',' :: render item ++ renderItems items

/-- The members after the first, and the closing brace. -/
def renderMembers : List (String × Json) → List Char
  | [] => ['\x7d']
  | (key, value) :: members =>
    ',' :: renderString key ++ ':' :: render value ++ renderMembers members

end

/-- The byte length of the compact text. -/
def size (j : Json) : Nat := Utf8.byteLength j.render

/-- The byte length of the text between the quotes of a string. -/
def escapedSize (s : String) : Nat := Utf8.byteLength (escape s)

/-- The byte length of the members after the first and of the brace. -/
def membersSize (members : List (String × Json)) : Nat :=
  Utf8.byteLength (renderMembers members)

/-! ## The ends of an object -/

private theorem exists_renderMembers (members : List (String × Json)) :
    ∃ text, renderMembers members = text ++ ['\x7d'] := by
  induction members with
  | nil => exact ⟨[], by rw [renderMembers]; rfl⟩
  | cons member members ih =>
    obtain ⟨text, htext⟩ := ih
    obtain ⟨key, value⟩ := member
    refine ⟨',' :: renderString key ++ ':' :: render value ++ text, ?_⟩
    rw [renderMembers, htext]
    simp

theorem exists_render_obj (members : List (String × Json)) :
    ∃ text, (Json.obj members).render = '\x7b' :: text ++ ['\x7d'] := by
  cases members with
  | nil => exact ⟨[], by rw [render]; rfl⟩
  | cons member members =>
    obtain ⟨text, htext⟩ := exists_renderMembers members
    obtain ⟨key, value⟩ := member
    refine ⟨renderString key ++ ':' :: render value ++ text, ?_⟩
    rw [render, htext]
    simp

/-! ## Sizes -/

theorem byteLength_renderString (s : String) :
    Utf8.byteLength (renderString s) = escapedSize s + 2 := by
  have hquote : '"'.utf8Size = 1 := by decide
  simp [renderString, escapedSize, hquote]
  omega

@[simp] theorem size_str (s : String) : (Json.str s).size = escapedSize s + 2 := by
  rw [size, render, byteLength_renderString]

@[simp] theorem size_num (lexeme : String) :
    (Json.num lexeme).size = Utf8.byteLength lexeme.toList := by
  rw [size, render]

@[simp] theorem size_obj_nil : (Json.obj []).size = 2 := by
  rw [size, render]
  decide

@[simp] theorem size_obj_cons (key : String) (value : Json)
    (members : List (String × Json)) :
    (Json.obj ((key, value) :: members)).size =
      escapedSize key + value.size + membersSize members + 4 := by
  have hbrace : '\x7b'.utf8Size = 1 := by decide
  have hcolon : ':'.utf8Size = 1 := by decide
  rw [size, render, membersSize, size]
  simp [byteLength_renderString, hbrace, hcolon]
  omega

@[simp] theorem membersSize_nil : membersSize [] = 1 := by
  rw [membersSize, renderMembers]
  decide

@[simp] theorem membersSize_cons (key : String) (value : Json)
    (members : List (String × Json)) :
    membersSize ((key, value) :: members) =
      escapedSize key + value.size + membersSize members + 4 := by
  have hcomma : ','.utf8Size = 1 := by decide
  have hcolon : ':'.utf8Size = 1 := by decide
  rw [membersSize, renderMembers, membersSize, size]
  simp [byteLength_renderString, hcomma, hcolon]
  omega

/-! ## Bounds -/

theorem byteLength_escapeChar_le (c : Char) : Utf8.byteLength (escapeChar c) ≤ 6 := by
  have hhex : ∀ n, n < 16 → (hexDigit n).utf8Size = 1 := by decide
  have hslash : '\\'.utf8Size = 1 := by decide
  have hu : 'u'.utf8Size = 1 := by decide
  have hzero : '0'.utf8Size = 1 := by decide
  unfold escapeChar
  split_ifs <;> try decide
  · rename_i h
    simp [hslash, hu, hzero, hhex (c.toNat / 16) (by omega), hhex (c.toNat % 16) (by omega)]
  · have := Char.utf8Size_le_four c
    simp
    omega

theorem escapedSize_append (left right : String) :
    escapedSize (left ++ right) = escapedSize left + escapedSize right := by
  simp [escapedSize, escape]

theorem escapedSize_le (s : String) : escapedSize s ≤ 6 * s.length := by
  have haux : ∀ text : List Char,
      Utf8.byteLength (text.flatMap escapeChar) ≤ 6 * text.length := by
    intro text
    induction text with
    | nil => simp
    | cons c text ih =>
      have := byteLength_escapeChar_le c
      simp only [List.flatMap_cons, Utf8.byteLength_append, List.length_cons]
      omega
  rw [escapedSize, escape, ← String.length_toList]
  exact haux s.toList

theorem byteLength_le (text : List Char) : Utf8.byteLength text ≤ 4 * text.length := by
  induction text with
  | nil => simp
  | cons c text ih =>
    have := Char.utf8Size_le_four c
    simp only [Utf8.byteLength_cons, List.length_cons]
    omega

theorem length_toString_le {n k : Nat} (hk : 0 < k) (hn : n < 10 ^ k) :
    (toString n).length ≤ k :=
  (Nat.length_repr_le_iff hk).2 hn

end Json
