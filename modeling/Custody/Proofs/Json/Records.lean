/-
# Taking values apart

A number of 64 bits, a text and a list have one JSON form each, so what is understood as one of them is
its form.  A record has many, and is taken apart into its fields exactly when the value spells them.
-/

import Mathlib.Data.List.Induction
import Custody.Json.Spelling
import Custody.Proofs.Json.Writing

namespace Custody.Json

/-- A digit is the digit of its value. -/
theorem digitChar_of_isDigit {c : Char} (hdigit : c.isDigit = true) :
    c.toNat - '0'.toNat < 10 ∧ (c.toNat - '0'.toNat).digitChar = c := by
  have hall : ∀ digit < 10, digit.digitChar = Char.ofNat ('0'.toNat + digit) := by decide
  have hbounds : '0'.toNat ≤ c.toNat ∧ c.toNat ≤ '9'.toNat := by
    simpa [Char.isDigit, UInt32.le_iff_toNat_le, and_comm] using hdigit
  have hsmall : c.toNat - '0'.toNat < 10 := by
    have hzero : '0'.toNat = 48 := rfl
    have hnine : '9'.toNat = 57 := rfl
    omega
  refine ⟨hsmall, ?_⟩
  rw [hall _ hsmall, Nat.add_sub_cancel' hbounds.1, Char.ofNat_toNat]

/-- Digits that do not begin with a zero are the digits of their value. -/
theorem toDigits_ofDigitChars {digits : List Char} (hdigits : Digits digits)
    (hfirst : digits.head? ≠ some '0') :
    Nat.toDigits 10 (Nat.ofDigitChars 10 digits 0) = digits := by
  induction digits using List.reverseRecOn with
  | nil => exact absurd rfl hdigits.1
  | append_singleton digits digit ih =>
      obtain ⟨hsmall, hdigit⟩ := digitChar_of_isDigit (hdigits.2 digit (by simp))
      rw [Nat.ofDigitChars_append, Nat.ofDigitChars_cons, Nat.ofDigitChars_nil]
      rcases List.eq_nil_or_concat digits with rfl | ⟨before, last, hconcat⟩
      · rw [Nat.ofDigitChars_nil, Nat.mul_zero, Nat.zero_add, Nat.toDigits_of_lt_base hsmall,
          hdigit, List.nil_append]
      · have hsome : digits ≠ [] := by simp [hconcat]
        rw [List.head?_append_of_ne_nil _ hsome] at hfirst
        have hback := ih ⟨hsome, fun c hmem => hdigits.2 c (List.mem_append_left _ hmem)⟩ hfirst
        have hpositive : 0 < Nat.ofDigitChars 10 digits 0 := by
          refine Nat.pos_of_ne_zero fun hzero => hfirst ?_
          rw [← hback, hzero]
          rfl
        rw [← Nat.toDigits_append_toDigits (by decide) hpositive hsmall, hback,
          Nat.toDigits_of_lt_base hsmall, hdigit]

theorem naturalOf_toDigits (value : Nat) : naturalOf (Nat.toDigits 10 value) = some value := by
  have hdigits : (Nat.toDigits 10 value).all Char.isDigit = true :=
    List.all_eq_true.mpr fun _ hmem => isDigit_toDigits hmem
  have hvalue := Nat.ofDigitChars_toDigits (n := value) (by decide : 1 < 10) (Nat.le_refl 10)
  rw [Nat.ofDigitChars_eq_foldl] at hvalue
  unfold naturalOf
  split
  · next hzero => simpa [hzero] using hvalue
  · next text hother hzero =>
      rcases Nat.eq_zero_or_pos value with rfl | hpositive
      · exact absurd (List.cons.inj hzero).2.symm hother
      · exact absurd (by rw [hzero]; rfl) (head?_toDigits hpositive)
  · rw [if_pos ⟨Nat.toDigits_ne_nil, hdigits⟩, hvalue]

/-- A natural number is written with its digits and in no other way. -/
theorem naturalOf_eq_some_iff {text : List Char} {value : Nat} :
    naturalOf text = some value ↔ text = Nat.toDigits 10 value := by
  constructor
  · intro hvalue
    unfold naturalOf at hvalue
    split at hvalue
    · obtain rfl := Option.some.inj hvalue
      rfl
    · cases hvalue
    · next hzero hother =>
        obtain ⟨⟨hsome, hdigits⟩, hfold⟩ := Option.ite_none_right_eq_some.mp hvalue
        obtain rfl := Option.some.inj hfold
        refine (toDigits_ofDigitChars ⟨hsome, List.all_eq_true.mp hdigits⟩ fun hfirst => ?_).symm
        obtain ⟨later, htext⟩ := List.head?_eq_some_iff.mp hfirst
        exact hother later htext
  · rintro rfl
    exact naturalOf_toDigits value

/-- A number of 64 bits has one form. -/
theorem asUInt64_eq_some_iff {value : Json} {number : UInt64} :
    value.asUInt64 = some number ↔ value = ofUInt64 number := by
  cases value with
  | number text =>
      simp only [asUInt64, Option.bind_eq_some_iff, Option.ite_none_right_eq_some,
        naturalOf_eq_some_iff, ofUInt64, ofNat, Json.number.injEq]
      constructor
      · rintro ⟨natural, rfl, hsmall, hnumber⟩
        obtain rfl := Option.some.inj hnumber
        rw [UInt64.toNat_ofNat_of_lt' hsmall]
      · rintro rfl
        exact ⟨_, rfl, number.toNat_lt, by rw [UInt64.ofNat_toNat]⟩
  | _ => exact iff_of_false nofun nofun

theorem asBool_eq_some_iff {value : Json} {truth : Bool} :
    value.asBool = some truth ↔ value = bool truth := by
  cases value with
  | bool other => simp [asBool]
  | _ => exact iff_of_false nofun nofun

/-- Items that each have one form have one form together. -/
theorem mapM_eq_some_iff {α β : Type} {read : α → Option β} {write : β → α}
    (hone : ∀ item value, read item = some value ↔ item = write value) {items : List α}
    {values : List β} : items.mapM read = some values ↔ items = values.map write := by
  induction items generalizing values with
  | nil => cases values <;> simp
  | cons item items ih =>
      rw [List.mapM_cons]
      simp only [Option.bind_eq_bind, Option.bind_eq_some_iff, Option.pure_def, Option.some.injEq,
        hone, ih]
      cases values with
      | nil => simp
      | cons value values => simp

/-- A list of what has one form has one form. -/
theorem asList_eq_some_iff {α : Type} {read : Json → Option α} {write : α → Json}
    (hone : ∀ item value, read item = some value ↔ item = write value) {value : Json}
    {values : List α} : value.asList read = some values ↔ value = array (values.map write) := by
  cases value with
  | array items => simp [asList, mapM_eq_some_iff hone]
  | _ => exact iff_of_false nofun nofun

theorem charOf_eq_some_iff (point : Nat) (c : Char) :
    charOf point = some c ↔ point = c.toNat := by
  rw [charOf, Option.ite_none_right_eq_some, Option.some.injEq]
  constructor
  · rintro ⟨hvalid, rfl⟩
    rw [Char.ofNat, dif_pos hvalid]
    rfl
  · rintro rfl
    exact ⟨c.valid, Char.ofNat_toNat c⟩

/-- A text is spelled by its code points. -/
theorem textOf_eq_some_iff {points : List Nat} {text : String} :
    textOf points = some text ↔ points = pointsOf text := by
  rw [textOf, Option.map_eq_some_iff]
  simp only [mapM_eq_some_iff charOf_eq_some_iff, pointsOf]
  constructor
  · rintro ⟨chars, rfl, rfl⟩
    rw [String.toList_ofList]
  · exact fun hpoints => ⟨text.toList, hpoints, String.ofList_toList⟩

theorem asText_eq_some_iff {value : Json} {text : String} :
    value.asText = some text ↔ value = ofText text := by
  cases value with
  | string points => simp [asText, ofText, textOf_eq_some_iff]
  | _ => exact iff_of_false nofun nofun

theorem isValidChar_of_mem_pointsOf {text : String} {point : Nat}
    (hmem : point ∈ pointsOf text) : point.isValidChar := by
  obtain ⟨c, -, rfl⟩ := List.mem_map.mp hmem
  exact c.valid

/-- What a name stands for is the value of the only member that has it. -/
theorem single_eq_some_iff {name : String} {members : List (String × Json)} {value : Json} :
    single name members = some value ↔
      members.filter (fun member => member.1 = name) = [(name, value)] := by
  unfold single
  split
  · next other only hfilter =>
      have hname : (other, only) ∈ members.filter (fun member => member.1 = name) := by
        rw [hfilter]
        exact List.mem_singleton_self _
      have hsame := of_decide_eq_true (List.mem_filter.mp hname).2
      simp only at hsame
      rw [hfilter, hsame]
      simp
  · next hother => exact iff_of_false nofun fun hfilter => hother _ _ hfilter

/-- Of fields with different names one has the name of a field. -/
theorem filter_eq_singleton {fields : List (String × Json)} (hnames : (fields.map Prod.fst).Nodup)
    {field : String × Json} (hmem : field ∈ fields) :
    fields.filter (fun member => member.1 = field.1) = [field] := by
  induction fields with
  | nil => cases hmem
  | cons first fields ih =>
      obtain ⟨hfirst, hnames⟩ := List.nodup_cons.mp hnames
      rcases List.mem_cons.mp hmem with rfl | hmem
      · have hnone : fields.filter (fun member => member.1 = field.1) = [] := by
          refine List.filter_eq_nil_iff.mpr fun member hmember hsame => hfirst ?_
          exact List.mem_map.mpr ⟨member, hmember, of_decide_eq_true hsame⟩
        rw [List.filter_cons_of_pos (by simp), hnone]
      · have hother : first.1 ≠ field.1 := fun hsame =>
          hfirst (List.mem_map.mpr ⟨field, hmem, hsame.symm⟩)
        rw [List.filter_cons_of_neg (by simpa using hother), ih hnames hmem]

/-- Each field is had once when the members that have a name of a field are the fields in some order. -/
theorem filter_perm_iff {members fields : List (String × Json)}
    (hnames : (fields.map Prod.fst).Nodup) :
    (members.filter fun member => member.1 ∈ fields.map Prod.fst).Perm fields ↔
      ∀ field ∈ fields, members.filter (fun member => member.1 = field.1) = [field] := by
  constructor
  · intro hperm field hmem
    have honly := (hperm.filter fun member => member.1 = field.1)
    rw [filter_eq_singleton hnames hmem, List.filter_filter, List.perm_singleton] at honly
    rw [← honly]
    refine List.filter_congr fun member _ => ?_
    by_cases hsame : member.1 = field.1
    · have hfield : field.1 ∈ fields.map Prod.fst := List.mem_map.mpr ⟨field, hmem, rfl⟩
      rw [hsame, decide_eq_true hfield, Bool.and_true]
    · rw [decide_eq_false hsame, Bool.false_and]
  · intro honce
    induction fields with
    | nil => simp
    | cons field fields ih =>
        obtain ⟨hfield, hnames⟩ := List.nodup_cons.mp hnames
        obtain ⟨hfirst, honce⟩ := List.forall_mem_cons.mp honce
        -- Those with the name of the first field come before those with a name of the others.
        have hsplit := List.filter_append_perm (fun member => decide (member.1 = field.1))
          (members.filter fun member => member.1 ∈ (field :: fields).map Prod.fst)
        have hleft : (members.filter fun member => member.1 ∈ (field :: fields).map Prod.fst).filter
            (fun member => member.1 = field.1) = [field] := by
          rw [← hfirst, List.filter_filter]
          refine List.filter_congr fun member _ => ?_
          by_cases hsame : member.1 = field.1 <;> simp [hsame]
        have hright : (members.filter fun member => member.1 ∈ (field :: fields).map Prod.fst).filter
            (fun member => !decide (member.1 = field.1)) =
            members.filter fun member => member.1 ∈ fields.map Prod.fst := by
          rw [List.filter_filter]
          refine List.filter_congr fun member _ => ?_
          by_cases hsame : member.1 = field.1
          · rw [hsame, decide_eq_false hfield]
            simp
          · simp [hsame]
        rw [hleft, hright] at hsplit
        exact hsplit.symm.trans ((ih hnames honce).cons field)

/-- Fields are taken from members exactly when each name stands for its field. -/
theorem mapM_single_eq_some_iff {members fields : List (String × Json)} :
    (fields.map Prod.fst).mapM (fun name => single name members) = some (fields.map Prod.snd) ↔
      ∀ field ∈ fields, members.filter (fun member => member.1 = field.1) = [field] := by
  induction fields with
  | nil => simp
  | cons field fields ih =>
      rw [List.map_cons, List.mapM_cons, List.map_cons, List.forall_mem_cons, ← ih]
      simp [Option.bind_eq_some_iff, single_eq_some_iff]

/-- The members of an object are named by texts exactly when it is the object of a record. -/
theorem mapM_named_eq_some_iff {members : List (List Nat × Json)}
    {named : List (String × Json)} :
    (members.mapM fun (points, value) => (textOf points).map (·, value)) = some named ↔
      object members = ofRecord named := by
  have hone : ∀ (member : List Nat × Json) (field : String × Json),
      (textOf member.1).map (·, member.2) = some field ↔
        member = (pointsOf field.1, field.2) := by
    rintro ⟨points, value⟩ ⟨name, other⟩
    simp [textOf_eq_some_iff]
  rw [mapM_eq_some_iff hone, ofRecord, Json.object.injEq]

/-- A value is taken apart into fields exactly when it spells them. -/
theorem asRecord_eq_some_iff {fields : List (String × Json)}
    (hnames : (fields.map Prod.fst).Nodup) {value : Json} :
    value.asRecord (fields.map Prod.fst) = some (fields.map Prod.snd) ↔
      SpellsRecord fields value := by
  constructor
  · intro hfields
    cases value with
    | array items =>
        obtain ⟨-, hitems⟩ := Option.ite_none_right_eq_some.mp hfields
        obtain rfl := Option.some.inj hitems
        exact .inOrder
    | object members =>
        obtain ⟨named, hnamed, hsingle⟩ := Option.bind_eq_some_iff.mp hfields
        rw [mapM_named_eq_some_iff.mp hnamed]
        exact .byName ((filter_perm_iff hnames).mpr (mapM_single_eq_some_iff.mp hsingle))
    | _ => cases hfields
  · rintro (_ | ⟨hperm⟩)
    · rw [asRecord, if_pos (by rw [List.length_map, List.length_map])]
    · exact Option.bind_eq_some_iff.mpr ⟨_, mapM_named_eq_some_iff.mpr rfl,
        mapM_single_eq_some_iff.mpr ((filter_perm_iff hnames).mp hperm)⟩

theorem plain_ofUInt64 (value : UInt64) : Plain (ofUInt64 value) :=
  Plain.number value.toNat

theorem plain_ofText (text : String) : Plain (ofText text) :=
  Plain.string fun _ => isValidChar_of_mem_pointsOf

theorem plain_array_map {α : Type} {write : α → Json} (hwrite : ∀ item, Plain (write item))
    (items : List α) : Plain (array (items.map write)) := by
  refine Plain.array fun value hmem => ?_
  obtain ⟨item, -, rfl⟩ := List.mem_map.mp hmem
  exact hwrite item

theorem plain_ofRecord {fields : List (String × Json)}
    (hvalues : ∀ field ∈ fields, Plain field.2) : Plain (ofRecord fields) := by
  refine Plain.object ?_ ?_
  · intro member hmem point hpoint
    obtain ⟨field, -, rfl⟩ := List.mem_map.mp hmem
    exact isValidChar_of_mem_pointsOf hpoint
  · intro member hmem
    obtain ⟨field, hfield, rfl⟩ := List.mem_map.mp hmem
    exact hvalues field hfield

/-- An object of exactly the fields spells the record. -/
theorem spellsRecord_ofRecord (fields : List (String × Json)) :
    SpellsRecord fields (ofRecord fields) := by
  refine .byName ?_
  rw [List.filter_eq_self.mpr fun field hmem =>
    decide_eq_true (List.mem_map.mpr ⟨field, hmem, rfl⟩)]

end Custody.Json
