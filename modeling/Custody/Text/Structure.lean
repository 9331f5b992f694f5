/-
# Structural text

Every value has a text that shows how it is built: the name of its kind, then its fields in order.
Records stand in braces, as in a record `Name` with fields `a: 1, b: 2`; sets and maps stand in
braces without a name, lists in square brackets, and a value wrapped in a named alternative in
parentheses.  Text inside is quoted, so that the structure can be read back by eye.
-/

import Custody.Text.Shown

namespace Custody.Text

/-- Items with a comma and a space between them. -/
def separated (items : List String) : String := ", ".intercalate items

/-- A named record with its fields in order. -/
def record (name : String) (fields : List (String × String)) : String :=
  name ++ " \x7b " ++ separated (fields.map fun (field, value) => field ++ ": " ++ value) ++ " \x7d"

/-- A named alternative that wraps one value. -/
def wrapped (name value : String) : String := name ++ "(" ++ value ++ ")"

/-- A set: its members in braces. -/
def braced (items : List String) : String := "\x7b" ++ separated items ++ "\x7d"

/-- A map: its entries in braces. -/
def mapping (entries : List (String × String)) : String :=
  braced (entries.map fun (key, value) => key ++ ": " ++ value)

/-- A list: its items in square brackets. -/
def bracketed (items : List String) : String := "[" ++ separated items ++ "]"

/-- A value that may be absent. -/
def optional : Option String → String
  | none => "None"
  | some value => wrapped "Some" value

/-- How one character is written between quotes: the quote, the backslash and the common blanks
have short escapes, and a character without a shape of its own is named by its code point. -/
def quoteChar (c : Char) : String :=
  match c with
  | '"' => "\\\""
  | '\\' => "\\\\"
  | '\n' => "\\n"
  | '\r' => "\\r"
  | '\t' => "\\t"
  | '\x00' => "\\0"
  | _ =>
      if isShown c then String.singleton c
      else "\\u\x7b" ++ String.ofList (Nat.toDigits 16 c.toNat) ++ "\x7d"

/-- Text between double quotes. -/
def quoted (text : String) : String :=
  "\"" ++ String.join (text.toList.map quoteChar) ++ "\""

end Custody.Text
