import Mathlib.Init

/-!
# JavaScript strings and the text of a JSON value

A JavaScript string is a list of UTF-16 code units, and its `length` and
`slice` count units, not characters.  A slice can therefore end between the two
halves of a surrogate pair, and `JSON.stringify` escapes the half that is left.

* `ofString` is the string with the characters of a Lean string.
* `text.slice(0, n)` is `List.take`, and `items.slice(-n)` is `sliceLast`.
* `Value.stringify` is `JSON.stringify` without indentation, on values with
  natural numbers.
-/

namespace JsText

/-- A JavaScript string, by its code units. -/
abbrev Units := List UInt16

def ofChar (c : Char) : Units :=
  if c.toNat < 0x10000 then [c.toNat.toUInt16]
  else
    [(0xD800 + (c.toNat - 0x10000) / 0x400).toUInt16,
      (0xDC00 + (c.toNat - 0x10000) % 0x400).toUInt16]

def ofString (text : String) : Units :=
  text.toList.flatMap ofChar

/-- `items.slice(-count)`, for a positive count. -/
def sliceLast {α : Type} (count : Nat) (items : List α) : List α :=
  items.drop (items.length - count)

def replaceAll (unit : UInt16) (replacement : Units) (text : Units) : Units :=
  text.flatMap fun u => if u = unit then replacement else [u]

/-! ## Quoting -/

def isHighSurrogate (u : UInt16) : Bool := 0xD800 ≤ u && u ≤ 0xDBFF

def isLowSurrogate (u : UInt16) : Bool := 0xDC00 ≤ u && u ≤ 0xDFFF

def hexDigit (n : Nat) : UInt16 :=
  if n < 10 then (0x30 + n).toUInt16 else (0x57 + n).toUInt16

def unicodeEscape (u : UInt16) : Units :=
  [0x5C, 0x75, hexDigit (u.toNat / 0x1000), hexDigit (u.toNat / 0x100 % 0x10),
    hexDigit (u.toNat / 0x10 % 0x10), hexDigit (u.toNat % 0x10)]

/-- A unit that is not a surrogate, inside quotes. -/
def escapeUnit (u : UInt16) : Units :=
  if u = 0x08 then [0x5C, 0x62]
  else if u = 0x09 then [0x5C, 0x74]
  else if u = 0x0A then [0x5C, 0x6E]
  else if u = 0x0C then [0x5C, 0x66]
  else if u = 0x0D then [0x5C, 0x72]
  else if u = 0x22 ∨ u = 0x5C then [0x5C, u]
  else if u < 0x20 then unicodeEscape u
  else [u]

/-- The units inside the quotes.  A surrogate without its other half is escaped. -/
def quoteUnits : Units → Units
  | [] => []
  | [u] =>
    if isHighSurrogate u || isLowSurrogate u then unicodeEscape u else escapeUnit u
  | u :: v :: rest =>
    if isHighSurrogate u && isLowSurrogate v then u :: v :: quoteUnits rest
    else if isHighSurrogate u || isLowSurrogate u then unicodeEscape u ++ quoteUnits (v :: rest)
    else escapeUnit u ++ quoteUnits (v :: rest)

def quote (text : Units) : Units :=
  0x22 :: quoteUnits text ++ [0x22]

def digits (n : Nat) : Units :=
  (Nat.toDigits 10 n).flatMap ofChar

/-! ## Values -/

inductive Value where
  | string (text : Units)
  | number (n : Nat)
  | bool (flag : Bool)
  | array (items : List Value)
  | object (members : List (Units × Value))

/-- The texts of the items, with a comma between two. -/
def joinComma : List Units → Units
  | [] => []
  | [item] => item
  | item :: rest => item ++ 0x2C :: joinComma rest

namespace Value

mutual

def stringify : Value → Units
  | .string text => quote text
  | .number n => digits n
  | .bool true => ofString "true"
  | .bool false => ofString "false"
  | .array items => 0x5B :: joinComma (stringifyItems items) ++ [0x5D]
  | .object members => 0x7B :: joinComma (stringifyMembers members) ++ [0x7D]

def stringifyItems : List Value → List Units
  | [] => []
  | item :: rest => item.stringify :: stringifyItems rest

def stringifyMembers : List (Units × Value) → List Units
  | [] => []
  | (name, item) :: rest => (quote name ++ 0x3A :: item.stringify) :: stringifyMembers rest

end

example : (Value.object [(ofString "a", .array [.number 12, .string [0xD83D]])]).stringify =
    ofString "\x7b\"a\":[12,\"\\ud83d\"]\x7d" := by decide

end Value

end JsText
