/-
# JSON values

The values of the data format in which snapshots travel between processes.  Numbers keep the text
in which they were written, so that no precision is lost before it is known what they stand for.
Strings are sequences of code points in which half of a surrogate pair may stand alone: such a
string is no text, but a reader that skips it does not mind.
-/

namespace Custody

/-- A JSON value. -/
inductive Json where
  | null
  | bool (value : Bool)
  /-- A number as it was written. -/
  | number (text : List Char)
  /-- A string as a sequence of code points. -/
  | string (points : List Nat)
  | array (items : List Json)
  /-- Members in the order in which they were written; a name may come more than once. -/
  | object (members : List (List Nat × Json))

namespace Json

/-- The code points of a text. -/
def pointsOf (text : String) : List Nat := text.toList.map Char.toNat

/-- The character with a code point, unless it is half of a surrogate pair or out of range. -/
def charOf (point : Nat) : Option Char :=
  if point.isValidChar then some (Char.ofNat point) else none

/-- The text of a sequence of code points, unless half of a surrogate pair stands alone. -/
def textOf (points : List Nat) : Option String := (points.mapM charOf).map String.ofList

/-- A whole number that was written without sign, fraction, exponent or leading zeros. -/
def naturalOf : List Char → Option Nat
  | ['0'] => some 0
  | '0' :: _ => none
  | digits =>
      if digits ≠ [] ∧ digits.all Char.isDigit then
        some (digits.foldl (fun value digit => 10 * value + (digit.toNat - '0'.toNat)) 0)
      else none

/-- A number of 64 bits. -/
def asUInt64 : Json → Option UInt64
  | number text =>
      (naturalOf text).bind fun value =>
        if value < UInt64.size then some (UInt64.ofNat value) else none
  | _ => none

/-- A truth value. -/
def asBool : Json → Option Bool
  | bool value => some value
  | _ => none

/-- A list whose items are all understood. -/
def asList {α : Type} (item : Json → Option α) : Json → Option (List α)
  | array items => items.mapM item
  | _ => none

/-- The text of a string. -/
def asText : Json → Option String
  | string points => textOf points
  | _ => none

/-- The value of a name that occurs exactly once. -/
def single (name : String) (members : List (String × Json)) : Option Json :=
  match members.filter (fun member => member.1 = name) with
  | [(_, value)] => some value
  | _ => none

/-- The fields of a record in their order.  A record is an object that has each field once, next to
which unknown names do not matter, or an array of exactly the fields. -/
def asRecord (fields : List String) : Json → Option (List Json)
  | array items => if items.length = fields.length then some items else none
  | object members => do
      let named ← members.mapM fun (points, value) => (textOf points).map (·, value)
      fields.mapM fun field => single field named
  | _ => none

end Json

end Custody
