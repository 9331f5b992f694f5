/-
# The grammar of JSON

Which texts stand for which values.  Blanks may stand around every value and around the names of an
object; a number stands for itself; a string may spell a character in several ways, and the two halves
of a surrogate pair join wherever they meet.  The grammar says nothing about how a text is read, and
leaves open what follows it.
-/

import Custody.Json.Reader
import Custody.Json.Writer

namespace Custody.Json

/-- Blanks, if any. -/
def Blanks (text : List Char) : Prop := ∀ c ∈ text, isBlank c = true

/-- One digit or more. -/
def Digits (text : List Char) : Prop := text ≠ [] ∧ ∀ c ∈ text, c.isDigit = true

/-- The whole part of a number. -/
inductive WholeText : List Char → Prop where
  | zero : WholeText ['0']
  | digits {text : List Char} (hdigits : Digits text) (hfirst : text.head? ≠ some '0') :
      WholeText text

/-- The fraction of a number, which may be missing. -/
inductive FractionText : List Char → Prop where
  | missing : FractionText []
  | digits {text : List Char} (hdigits : Digits text) : FractionText ('.' :: text)

/-- The exponent of a number, which may be missing. -/
inductive ExponentText : List Char → Prop where
  | missing : ExponentText []
  | digits {mark : Char} {sign text : List Char} (hmark : mark = 'e' ∨ mark = 'E')
      (hsign : sign = [] ∨ sign = ['+'] ∨ sign = ['-']) (hdigits : Digits text) :
      ExponentText (mark :: sign ++ text)

/-- A number. -/
inductive NumberText : List Char → Prop where
  | parts {minus whole fraction exponent : List Char} (hminus : minus = [] ∨ minus = ['-'])
      (hwhole : WholeText whole) (hfraction : FractionText fraction)
      (hexponent : ExponentText exponent) :
      NumberText (minus ++ whole ++ fraction ++ exponent)

/-- What stands between the quotes of a string, and its code points. -/
inductive StringText : List Char → List Nat → Prop where
  | nothing : StringText [] []
  /-- A character that stands for itself. -/
  | plain {c : Char} {text : List Char} {points : List Nat} (hquote : c ≠ '"')
      (hbackslash : c ≠ '\\') (hcontrol : ¬ c.toNat < 0x20) (hrest : StringText text points) :
      StringText (c :: text) (c.toNat :: points)
  /-- A short escape. -/
  | short {c : Char} {point : Nat} {text : List Char} {points : List Nat}
      (hescape : shortEscape c = some point) (hrest : StringText text points) :
      StringText ('\\' :: c :: text) (point :: points)
  /-- The number of a code unit. -/
  | unit {a b c d : Char} {unit : Nat} {text : List Char} {points : List Nat}
      (hunit : hexNumber a b c d = some unit) (hrest : StringText text points) :
      StringText ('\\' :: 'u' :: a :: b :: c :: d :: text) (joinUnit unit points)

/-- The name of a member, with blanks around it. -/
inductive NameText : List Char → List Nat → Prop where
  | quoted {before name after : List Char} {points : List Nat} (hbefore : Blanks before)
      (hname : StringText name points) (hafter : Blanks after) :
      NameText (before ++ '"' :: name ++ '"' :: after) points

/-- The values for which texts stand. -/
inductive Denotes : List Char → Json → Prop where
  /-- Blanks may stand around a value. -/
  | padded {before text after : List Char} {value : Json} (hbefore : Blanks before)
      (hvalue : Denotes text value) (hafter : Blanks after) :
      Denotes (before ++ text ++ after) value
  | null : Denotes ['n', 'u', 'l', 'l'] null
  | true : Denotes ['t', 'r', 'u', 'e'] (bool true)
  | false : Denotes ['f', 'a', 'l', 's', 'e'] (bool false)
  | number {text : List Char} (hnumber : NumberText text) : Denotes text (number text)
  | string {text : List Char} {points : List Nat} (hstring : StringText text points) :
      Denotes ('"' :: text ++ ['"']) (string points)
  /-- An empty array may have blanks in it. -/
  | emptyArray {blanks : List Char} (hblanks : Blanks blanks) :
      Denotes ('[' :: blanks ++ [']']) (array [])
  /-- The items of an array, each with its text. -/
  | array {items : List (List Char × Json)} (hitems : ∀ item ∈ items, Denotes item.1 item.2) :
      Denotes ('[' :: commaSeparated (items.map Prod.fst) ++ [']']) (array (items.map Prod.snd))
  /-- An empty object may have blanks in it. -/
  | emptyObject {blanks : List Char} (hblanks : Blanks blanks) :
      Denotes ('\x7b' :: blanks ++ ['\x7d']) (object [])
  /-- The members of an object, each with the texts of its name and of its value. -/
  | object {members : List ((List Char × List Nat) × (List Char × Json))}
      (hnames : ∀ member ∈ members, NameText member.1.1 member.1.2)
      (hvalues : ∀ member ∈ members, Denotes member.2.1 member.2.2) :
      Denotes
        ('\x7b' :: commaSeparated (members.map fun member => member.1.1 ++ ':' :: member.2.1) ++
          ['\x7d'])
        (object (members.map fun member => (member.1.2, member.2.2)))

end Custody.Json
