/-
# What is written is in the grammar

The compact text of a value stands for that value.  Only values are meant that a writer makes: their
numbers are natural numbers, and their strings consist of code points of characters.  So such a text is
read as the value that it was written for; a reader takes other texts for the same values too.
-/

import Custody.Proofs.Json.Reading

namespace Custody.Json

/-- The values that a writer makes. -/
inductive Plain : Json → Prop where
  | null : Plain null
  | bool (value : Bool) : Plain (bool value)
  | number (value : Nat) : Plain (ofNat value)
  | string {points : List Nat} (hpoints : ∀ point ∈ points, point.isValidChar) :
      Plain (string points)
  | array {items : List Json} (hitems : ∀ item ∈ items, Plain item) : Plain (array items)
  | object {members : List (List Nat × Json)}
      (hnames : ∀ member ∈ members, ∀ point ∈ member.1, point.isValidChar)
      (hvalues : ∀ member ∈ members, Plain member.2) : Plain (object members)

/-- The digits of a positive number do not begin with a zero. -/
theorem head?_toDigits {value : Nat} (hvalue : 0 < value) :
    (Nat.toDigits 10 value).head? ≠ some '0' := by
  induction value using Nat.strongRecOn with
  | _ value ih =>
      rw [Nat.toDigits_eq_if (by decide)]
      split
      · next hsmall =>
          have hdigit : ∀ digit < 10, 0 < digit → [digit.digitChar].head? ≠ some '0' := by decide
          exact hdigit value hsmall hvalue
      · next hlarge =>
          have hshorter := ih (value / 10) (by omega) (by omega)
          rwa [List.head?_append_of_ne_nil _ Nat.toDigits_ne_nil]

theorem isDigit_toDigits {value : Nat} {c : Char} (hmem : c ∈ Nat.toDigits 10 value) :
    c.isDigit = true :=
  Nat.isDigit_of_mem_toDigits (by decide) (by decide) hmem

theorem digits_toDigits (value : Nat) : Digits (Nat.toDigits 10 value) :=
  ⟨Nat.toDigits_ne_nil, fun _ => isDigit_toDigits⟩

theorem numberText_toDigits (value : Nat) : NumberText (Nat.toDigits 10 value) := by
  have hwhole : WholeText (Nat.toDigits 10 value) := by
    rcases Nat.eq_zero_or_pos value with rfl | hpositive
    · exact .zero
    · exact .digits (digits_toDigits value) (head?_toDigits hpositive)
  have hnumber := NumberText.parts (Or.inl rfl) hwhole .missing .missing
  rwa [List.nil_append, List.append_nil, List.append_nil] at hnumber

theorem hexDigit_hexChar {value : Nat} (hvalue : value < 16) :
    hexDigit (hexChar value) = some value := by
  have hall : ∀ value < 16, hexDigit (hexChar value) = some value := by decide
  exact hall value hvalue

/-- Four hexadecimal digits are read as the number that they were written for. -/
theorem hexNumber_hexChar {value : Nat} (hvalue : value < 0x10000) :
    hexNumber (hexChar (value / 4096 % 16)) (hexChar (value / 256 % 16))
      (hexChar (value / 16 % 16)) (hexChar (value % 16)) = some value := by
  have hdigit : ∀ part, hexDigit (hexChar (part % 16)) = some (part % 16) :=
    fun part => hexDigit_hexChar (Nat.mod_lt part (by decide))
  simp only [hexNumber, hdigit, Option.bind_eq_bind, Option.bind_some, Option.pure_def,
    Option.some.injEq]
  omega

/-- A control character is not half of a surrogate pair. -/
theorem joinUnit_of_lt {unit : Nat} (hcontrol : unit < 0x20) (points : List Nat) :
    joinUnit unit points = unit :: points := by
  cases points with
  | nil => rfl
  | cons next rest => exact if_neg (by omega)

/-- What is written for a code point stands for it. -/
theorem StringText.writePoint {point : Nat} (hvalid : point.isValidChar) {text : List Char}
    {points : List Nat} (hrest : StringText text points) :
    StringText (writePoint point ++ text) (point :: points) := by
  unfold Json.writePoint
  split
  · next hquote => exact hquote ▸ .short rfl hrest
  · split
    · next hbackslash => exact hbackslash ▸ .short rfl hrest
    · split
      · next hescaped =>
          have hcontrol : point < 0x20 := by
            rcases hescaped with hcontrol | hsurrogate
            · exact hcontrol
            · simp [Nat.isValidChar] at hvalid
              omega
          have hnumber := hexNumber_hexChar (Nat.lt_trans hcontrol (by decide : 0x20 < 0x10000))
          rw [← joinUnit_of_lt hcontrol]
          exact .unit hnumber hrest
      · next hquote hbackslash hplain =>
          have hback : (Char.ofNat point).toNat = point := by
            rw [Char.ofNat, dif_pos hvalid]
            rfl
          have hother : ∀ c : Char, point ≠ c.toNat → Char.ofNat point ≠ c := by
            rintro c hne rfl
            exact hne hback.symm
          have hchar := StringText.plain (hother _ hquote) (hother _ hbackslash)
            (hback.symm ▸ fun hcontrol => hplain (Or.inl hcontrol)) hrest
          rwa [hback] at hchar

theorem stringText_flatMap_writePoint {points : List Nat}
    (hpoints : ∀ point ∈ points, point.isValidChar) :
    StringText (points.flatMap writePoint) points := by
  induction points with
  | nil => exact .nothing
  | cons point points ih =>
      obtain ⟨hpoint, hpoints⟩ := List.forall_mem_cons.mp hpoints
      exact (ih hpoints).writePoint hpoint

theorem nameText_writeString {points : List Nat}
    (hpoints : ∀ point ∈ points, point.isValidChar) : NameText (writeString points) points :=
  .quoted blanks_nil (stringText_flatMap_writePoint hpoints) blanks_nil

theorem writeItems_eq_map (items : List Json) : writeItems items = items.map write := by
  induction items with
  | nil => rfl
  | cons item items ih => rw [writeItems, ih, List.map_cons]

theorem writeMembers_eq_map (members : List (List Nat × Json)) :
    writeMembers members =
      members.map fun member => writeString member.1 ++ ':' :: write member.2 := by
  induction members with
  | nil => rfl
  | cons member members ih => rw [writeMembers, ih, List.map_cons]

/-- Items of an array may be given by what each is written as and what it stands for. -/
theorem Denotes.array_map {α : Type} (text : α → List Char) (value : α → Json) {items : List α}
    (hitems : ∀ item ∈ items, Denotes (text item) (value item)) :
    Denotes ('[' :: commaSeparated (items.map text) ++ [']']) (Json.array (items.map value)) := by
  have hpaired : ∀ item ∈ items.map fun item => (text item, value item), Denotes item.1 item.2 :=
    List.forall_mem_map.mpr hitems
  simpa [Function.comp_def] using Denotes.array hpaired

/-- Members of an object may be given in the same way. -/
theorem Denotes.object_map {α : Type} {name text : α → List Char} {points : α → List Nat}
    {value : α → Json} {members : List α}
    (hnames : ∀ member ∈ members, NameText (name member) (points member))
    (hvalues : ∀ member ∈ members, Denotes (text member) (value member)) :
    Denotes
      ('\x7b' :: commaSeparated (members.map fun member => name member ++ ':' :: text member) ++
        ['\x7d'])
      (Json.object (members.map fun member => (points member, value member))) := by
  have hpairedNames : ∀ member ∈ members.map fun member =>
      ((name member, points member), (text member, value member)),
      NameText member.1.1 member.1.2 := List.forall_mem_map.mpr hnames
  have hpairedValues : ∀ member ∈ members.map fun member =>
      ((name member, points member), (text member, value member)),
      Denotes member.2.1 member.2.2 := List.forall_mem_map.mpr hvalues
  simpa [Function.comp_def] using Denotes.object hpairedNames hpairedValues

/-- What is written for a value stands for it. -/
theorem Plain.denotes_write {value : Json} (hplain : Plain value) :
    Denotes (write value) value := by
  induction hplain with
  | null => exact .null
  | bool value => cases value with
    | false => exact .false
    | true => exact .true
  | number value => exact .number (numberText_toDigits value)
  | string hpoints => exact .string (stringText_flatMap_writePoint hpoints)
  | @array items _ ih =>
      have hdenotes := Denotes.array_map write id ih
      rwa [List.map_id, ← writeItems_eq_map] at hdenotes
  | @object members hnames _ ih =>
      have hdenotes := Denotes.object_map
        (fun member hmem => nameText_writeString (hnames member hmem)) ih
      simpa [write, writeMembers_eq_map] using hdenotes

/-- The text of what a writer makes is read as the same value. -/
theorem Plain.read_render {value : Json} (hplain : Plain value) :
    read value.render = some value := by
  rw [read_eq_some_iff, render, String.toList_ofList]
  exact hplain.denotes_write

end Custody.Json
