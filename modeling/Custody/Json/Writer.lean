/-
# Writing JSON

The compact form: no blanks, the members of an object in their order, and in strings no more
escapes than the grammar asks for.
-/

import Custody.Json.Value

namespace Custody.Json

/-- The hexadecimal digit of a value below sixteen. -/
def hexChar (value : Nat) : Char :=
  Char.ofNat (if value < 10 then '0'.toNat + value else 'a'.toNat + (value - 10))

/-- One code point of a string.  Quote and backslash are escaped, as are control characters and
halves of surrogate pairs, which have no character of their own. -/
def writePoint (point : Nat) : List Char :=
  if point = 0x22 then ['\\', '"']
  else if point = 0x5c then ['\\', '\\']
  else if point < 0x20 ∨ (0xd800 ≤ point ∧ point < 0xe000) then
    ['\\', 'u', hexChar (point / 4096 % 16), hexChar (point / 256 % 16),
      hexChar (point / 16 % 16), hexChar (point % 16)]
  else [Char.ofNat point]

/-- A string between quotes. -/
def writeString (points : List Nat) : List Char :=
  '"' :: points.flatMap writePoint ++ ['"']

/-- Texts with a comma between them. -/
def commaSeparated : List (List Char) → List Char
  | [] => []
  | [only] => only
  | first :: rest => first ++ ',' :: commaSeparated rest

mutual

/-- The compact text of a value. -/
def write : Json → List Char
  | null => "null".toList
  | bool true => "true".toList
  | bool false => "false".toList
  | number text => text
  | string points => writeString points
  | array items => '[' :: commaSeparated (writeItems items) ++ [']']
  | object members => '\x7b' :: commaSeparated (writeMembers members) ++ ['\x7d']

/-- The compact texts of the items of an array. -/
def writeItems : List Json → List (List Char)
  | [] => []
  | item :: rest => write item :: writeItems rest

/-- The compact texts of the members of an object. -/
def writeMembers : List (List Nat × Json) → List (List Char)
  | [] => []
  | (name, value) :: rest => (writeString name ++ ':' :: write value) :: writeMembers rest

end

/-- The number of a natural number. -/
def ofNat (value : Nat) : Json := number (Nat.toDigits 10 value)

/-- The string of a text. -/
def ofText (text : String) : Json := string (pointsOf text)

/-- The object of a record. -/
def ofRecord (fields : List (String × Json)) : Json :=
  object (fields.map fun (name, value) => (pointsOf name, value))

/-- The compact text of a value as a string. -/
def render (value : Json) : String := String.ofList (write value)

end Custody.Json
