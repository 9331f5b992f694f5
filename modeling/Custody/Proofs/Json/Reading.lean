/-
# Reading follows the grammar

A text is read as a value exactly when the grammar says that it stands for that value.  What is read is
in the grammar whatever the bound on the depth is, by induction on the bound.  Conversely every text of
the grammar is read to its end, by induction on how it stands for its value: a reader stops at the blanks
behind a value, which is why the rest is known up to blanks only.

The reader bounds its depth by the length of the text.  No text takes it there, since every value and
every separator takes a character for itself.
-/

import Mathlib.Data.List.Basic
import Custody.Proofs.Json.Tokens

namespace Custody.Json

variable {fuel : Nat} {text later rest : List Char} {value : Json} {name : List Nat}

/-- Blanks in front of a value make no difference. -/
theorem readValue_skipBlanks (fuel : Nat) (text : List Char) :
    readValue fuel (skipBlanks text) = readValue fuel text := by
  cases fuel with
  | zero => rfl
  | succ fuel => rw [readValue, readValue, skipBlanks_skipBlanks]

theorem readItems_skipBlanks (fuel : Nat) (text : List Char) :
    readItems fuel (skipBlanks text) = readItems fuel text := by
  cases fuel with
  | zero => rfl
  | succ fuel => rw [readItems, readItems, readValue_skipBlanks]

theorem readMembers_skipBlanks (fuel : Nat) (text : List Char) :
    readMembers fuel (skipBlanks text) = readMembers fuel text := by
  cases fuel with
  | zero => rfl
  | succ fuel => rw [readMembers, readMembers, skipBlanks_skipBlanks]

theorem Denotes.padded_left {blanks : List Char} (hblanks : Blanks blanks)
    (hvalue : Denotes text value) : Denotes (blanks ++ text) value := by
  have hpadded := Denotes.padded hblanks hvalue blanks_nil
  rwa [List.append_nil] at hpadded

theorem Denotes.padded_right {blanks : List Char} (hvalue : Denotes text value)
    (hblanks : Blanks blanks) : Denotes (text ++ blanks) value :=
  Denotes.padded blanks_nil hvalue hblanks

theorem commaSeparated_cons {texts : List (List Char)} (hsome : texts ≠ []) (first : List Char) :
    commaSeparated (first :: texts) = first ++ ',' :: commaSeparated texts := by
  cases texts with
  | nil => exact absurd rfl hsome
  | cons next texts => rfl

/-- What is separated by commas begins with the first of it. -/
theorem commaSeparated_map_cons {α : Type} (write : α → List Char) (first : α) (others : List α) :
    ∃ later, commaSeparated ((first :: others).map write) = write first ++ later := by
  cases others with
  | nil => exact ⟨[], (List.append_nil _).symm⟩
  | cons next others => exact ⟨_, commaSeparated_cons (List.cons_ne_nil _ _) _⟩

/-- Whether a text begins with the texts of one item or more, up to the closing bracket. -/
def ItemsUpTo (text : List Char) (items : List Json) (rest : List Char) : Prop :=
  ∃ spelled : List (List Char × Json),
    text = commaSeparated (spelled.map Prod.fst) ++ ']' :: rest ∧ spelled ≠ [] ∧
    items = spelled.map Prod.snd ∧ ∀ item ∈ spelled, Denotes item.1 item.2

/-- Whether a text begins with the texts of one member or more, up to the closing brace. -/
def MembersUpTo (text : List Char) (members : List (List Nat × Json)) (rest : List Char) : Prop :=
  ∃ spelled : List ((List Char × List Nat) × (List Char × Json)),
    text = commaSeparated (spelled.map fun member => member.1.1 ++ ':' :: member.2.1) ++
      '\x7d' :: rest ∧ spelled ≠ [] ∧
    members = spelled.map (fun member => (member.1.2, member.2.2)) ∧
    (∀ member ∈ spelled, NameText member.1.1 member.1.2) ∧
    ∀ member ∈ spelled, Denotes member.2.1 member.2.2

/-- What is read within a bound on the depth is in the grammar. -/
structure ReadsGrammar (fuel : Nat) : Prop where
  value : ∀ {text rest value}, readValue fuel text = some (value, rest) →
    ∃ spelled, text = spelled ++ rest ∧ Denotes spelled value
  items : ∀ {text rest items}, readItems fuel text = some (items, rest) →
    ItemsUpTo text items rest
  members : ∀ {text rest members}, readMembers fuel text = some (members, rest) →
    MembersUpTo text members rest

theorem ReadsGrammar.value_succ (hreads : ReadsGrammar fuel)
    (hread : readValue (fuel + 1) text = some (value, rest)) :
    ∃ spelled, text = spelled ++ rest ∧ Denotes spelled value := by
  obtain ⟨blanks, hblanks, htext⟩ := exists_blanks text
  have hpad : ∀ {spelled}, skipBlanks text = spelled ++ rest → Denotes spelled value →
      ∃ spelled, text = spelled ++ rest ∧ Denotes spelled value := fun {spelled} heq hvalue =>
    ⟨blanks ++ spelled, by rw [List.append_assoc, ← heq, ← htext],
      hvalue.padded_left hblanks⟩
  unfold readValue at hread
  split at hread
  · next heq =>
      obtain ⟨rfl, rfl⟩ := Prod.mk.inj (Option.some.inj hread)
      exact hpad heq .null
  · next heq =>
      obtain ⟨rfl, rfl⟩ := Prod.mk.inj (Option.some.inj hread)
      exact hpad heq .true
  · next heq =>
      obtain ⟨rfl, rfl⟩ := Prod.mk.inj (Option.some.inj hread)
      exact hpad heq .false
  · next heq =>
      obtain ⟨⟨points, later⟩, hstring, hsame⟩ := Option.map_eq_some_iff.mp hread
      obtain ⟨rfl, rfl⟩ := Prod.mk.inj hsame
      obtain ⟨spelled, rfl, hspelled⟩ := stringText_of_readString hstring
      exact hpad (by simp [heq]) (.string hspelled)
  · next after heq =>
      split at hread
      · next hclose =>
          obtain ⟨rfl, rfl⟩ := Prod.mk.inj (Option.some.inj hread)
          obtain ⟨inner, hinner, hafter⟩ := exists_blanks after
          rw [hclose] at hafter
          exact hpad (by simp [heq, hafter]) (.emptyArray hinner)
      · obtain ⟨⟨items, later⟩, hitems, hsame⟩ := Option.map_eq_some_iff.mp hread
        obtain ⟨rfl, rfl⟩ := Prod.mk.inj hsame
        rw [readItems_skipBlanks] at hitems
        obtain ⟨spelled, rfl, -, rfl, hall⟩ := hreads.items hitems
        exact hpad (by simp [heq]) (.array hall)
  · next after heq =>
      split at hread
      · next hclose =>
          obtain ⟨rfl, rfl⟩ := Prod.mk.inj (Option.some.inj hread)
          obtain ⟨inner, hinner, hafter⟩ := exists_blanks after
          rw [hclose] at hafter
          exact hpad (by simp [heq, hafter]) (.emptyObject hinner)
      · obtain ⟨⟨members, later⟩, hmembers, hsame⟩ := Option.map_eq_some_iff.mp hread
        obtain ⟨rfl, rfl⟩ := Prod.mk.inj hsame
        rw [readMembers_skipBlanks] at hmembers
        obtain ⟨spelled, rfl, -, rfl, hnames, hvalues⟩ := hreads.members hmembers
        exact hpad (by simp [heq]) (.object hnames hvalues)
  · obtain ⟨⟨digits, later⟩, hnumber, hsame⟩ := Option.map_eq_some_iff.mp hread
    obtain ⟨rfl, rfl⟩ := Prod.mk.inj hsame
    obtain ⟨heq, hnumber⟩ := numberText_of_readNumber hnumber
    exact hpad heq (.number hnumber)

/-- Blanks behind a value belong to it. -/
theorem Denotes.exists_upTo {spelled after : List Char} {next : Char} (hvalue : Denotes spelled value)
    (hafter : skipBlanks after = next :: rest) :
    ∃ longer, spelled ++ after = longer ++ next :: rest ∧ Denotes longer value := by
  obtain ⟨blanks, hblanks, heq⟩ := exists_blanks after
  rw [hafter] at heq
  exact ⟨spelled ++ blanks, by rw [heq, List.append_assoc], hvalue.padded_right hblanks⟩

theorem ReadsGrammar.items_succ (hreads : ReadsGrammar fuel) {items : List Json}
    (hread : readItems (fuel + 1) text = some (items, rest)) : ItemsUpTo text items rest := by
  rw [readItems] at hread
  obtain ⟨⟨item, after⟩, hitem, hmore⟩ := Option.bind_eq_some_iff.mp hread
  obtain ⟨first, rfl, hfirst⟩ := hreads.value hitem
  dsimp only at hmore
  split at hmore
  · next hclose =>
      obtain ⟨rfl, rfl⟩ := Prod.mk.inj (Option.some.inj hmore)
      obtain ⟨longer, heq, hlonger⟩ := hfirst.exists_upTo hclose
      exact ⟨[(longer, item)], heq, List.cons_ne_nil _ _, rfl, by simpa using hlonger⟩
  · next hcomma =>
      obtain ⟨⟨others, later⟩, hothers, hsame⟩ := Option.bind_eq_some_iff.mp hmore
      obtain ⟨rfl, rfl⟩ := Prod.mk.inj (Option.some.inj hsame)
      obtain ⟨spelled, rfl, hsome, rfl, hall⟩ := hreads.items hothers
      obtain ⟨longer, heq, hlonger⟩ := hfirst.exists_upTo hcomma
      refine ⟨(longer, item) :: spelled, ?_, List.cons_ne_nil _ _, rfl,
        List.forall_mem_cons.mpr ⟨hlonger, hall⟩⟩
      rw [heq, List.map_cons, commaSeparated_cons (by simpa using hsome), List.append_assoc,
        List.cons_append]
  · cases hmore

/-- What is read before the colon is a name. -/
theorem exists_nameText {quoted afterName : List Char} (hquote : skipBlanks text = '"' :: quoted)
    (hstring : readString quoted = some (name, afterName))
    (hcolon : skipBlanks afterName = ':' :: rest) :
    ∃ spelled, NameText spelled name ∧ text = spelled ++ ':' :: rest := by
  obtain ⟨before, hbefore, htext⟩ := exists_blanks text
  obtain ⟨after, hafter, hrest⟩ := exists_blanks afterName
  obtain ⟨spelled, rfl, hspelled⟩ := stringText_of_readString hstring
  refine ⟨_, .quoted hbefore hspelled hafter, ?_⟩
  rw [htext, hquote, hrest, hcolon]
  simp

theorem ReadsGrammar.members_succ (hreads : ReadsGrammar fuel) {members : List (List Nat × Json)}
    (hread : readMembers (fuel + 1) text = some (members, rest)) :
    MembersUpTo text members rest := by
  rw [readMembers] at hread
  split at hread
  · next quoted hquote =>
      obtain ⟨⟨points, afterName⟩, hstring, hcont⟩ := Option.bind_eq_some_iff.mp hread
      dsimp only at hcont
      split at hcont
      · next hcolon =>
          obtain ⟨⟨value, after⟩, hvalue, hmore⟩ := Option.bind_eq_some_iff.mp hcont
          dsimp only at hmore
          obtain ⟨name, hname, htext⟩ := exists_nameText hquote hstring hcolon
          obtain ⟨first, rfl, hfirst⟩ := hreads.value hvalue
          split at hmore
          · next hclose =>
              obtain ⟨rfl, rfl⟩ := Prod.mk.inj (Option.some.inj hmore)
              obtain ⟨longer, heq, hlonger⟩ := hfirst.exists_upTo hclose
              refine ⟨[((name, points), (longer, value))], ?_, List.cons_ne_nil _ _, rfl,
                by simpa using hname, by simpa using hlonger⟩
              simp [htext, heq, commaSeparated]
          · next hcomma =>
              obtain ⟨⟨others, later⟩, hothers, hsame⟩ := Option.bind_eq_some_iff.mp hmore
              obtain ⟨rfl, rfl⟩ := Prod.mk.inj (Option.some.inj hsame)
              obtain ⟨spelled, rfl, hsome, rfl, hnames, hvalues⟩ := hreads.members hothers
              obtain ⟨longer, heq, hlonger⟩ := hfirst.exists_upTo hcomma
              refine ⟨((name, points), (longer, value)) :: spelled, ?_, List.cons_ne_nil _ _, rfl,
                List.forall_mem_cons.mpr ⟨hname, hnames⟩,
                List.forall_mem_cons.mpr ⟨hlonger, hvalues⟩⟩
              rw [htext, heq, List.map_cons, commaSeparated_cons (by simpa using hsome)]
              simp
          · cases hmore
      · cases hcont
  · cases hread

theorem readsGrammar (fuel : Nat) : ReadsGrammar fuel := by
  induction fuel with
  | zero => exact ⟨nofun, nofun, nofun⟩
  | succ fuel ih => exact ⟨ih.value_succ, ih.items_succ, ih.members_succ⟩

theorem isBlank_eq_false_of_isDigit {c : Char} (hdigit : c.isDigit = true) :
    isBlank c = false := by
  refine Bool.eq_false_iff.mpr fun hblank => ?_
  rcases isBlank_iff.mp hblank with rfl | rfl | rfl | rfl <;> cases hdigit

/-- No literal and no bracket begins with a sign or a digit. -/
theorem readValue_number (fuel : Nat) {first : Char} (hfirst : first = '-' ∨ first.isDigit = true)
    (text : List Char) :
    readValue (fuel + 1) (first :: text) =
      (readNumber (first :: text)).map fun (digits, rest) => (number digits, rest) := by
  have hblank : isBlank first = false := by
    rcases hfirst with rfl | hdigit
    · rfl
    · exact isBlank_eq_false_of_isDigit hdigit
  unfold readValue
  rw [skipBlanks_cons hblank]
  split
  iterate 6
    next hliteral =>
      obtain ⟨rfl, -⟩ := List.cons.inj hliteral
      rcases hfirst with hsign | hdigit
      · cases hsign
      · cases hdigit
  rfl

theorem readValue_quote (fuel : Nat) (text : List Char) :
    readValue (fuel + 1) ('"' :: text) =
      (readString text).map fun (points, rest) => (string points, rest) :=
  rfl

theorem readValue_bracket (fuel : Nat) (text : List Char) :
    readValue (fuel + 1) ('[' :: text) =
      match skipBlanks text with
      | ']' :: rest => some (array [], rest)
      | rest => (readItems fuel rest).map fun (items, rest) => (array items, rest) :=
  rfl

/-- An array that does not close at once has items. -/
theorem readValue_bracket_of_open (fuel : Nat) (hopen : (skipBlanks text).head? ≠ some ']') :
    readValue (fuel + 1) ('[' :: text) =
      (readItems fuel text).map fun (items, rest) => (array items, rest) := by
  rw [readValue_bracket]
  split
  · next hclose => exact absurd (by rw [hclose]; rfl) hopen
  · rw [readItems_skipBlanks]

theorem readValue_brace (fuel : Nat) (text : List Char) :
    readValue (fuel + 1) ('\x7b' :: text) =
      match skipBlanks text with
      | '\x7d' :: rest => some (object [], rest)
      | rest => (readMembers fuel rest).map fun (members, rest) => (object members, rest) :=
  rfl

/-- An object that does not close at once has members. -/
theorem readValue_brace_of_open (fuel : Nat) (hopen : (skipBlanks text).head? ≠ some '\x7d') :
    readValue (fuel + 1) ('\x7b' :: text) =
      (readMembers fuel text).map fun (members, rest) => (object members, rest) := by
  rw [readValue_brace]
  split
  · next hclose => exact absurd (by rw [hclose]; rfl) hopen
  · rw [readMembers_skipBlanks]

theorem readItems_last (hvalue : readValue fuel text = some (value, later))
    (hclose : skipBlanks later = ']' :: rest) :
    readItems (fuel + 1) text = some ([value], rest) := by
  rw [readItems, hvalue, Option.bind_eq_bind, Option.bind_some]
  dsimp only
  rw [hclose]
  rfl

theorem readItems_more (hvalue : readValue fuel text = some (value, later))
    (hcomma : skipBlanks later = ',' :: rest) :
    readItems (fuel + 1) text =
      (readItems fuel rest).map fun (items, rest) => (value :: items, rest) := by
  rw [readItems, hvalue, Option.bind_eq_bind, Option.bind_some]
  dsimp only
  rw [hcomma]
  change (readItems fuel rest).bind _ = _
  cases readItems fuel rest <;> rfl

/-- After a name and a colon the value is read. -/
theorem readMembers_name {named : List Char} (hname : NameText named name) (fuel : Nat)
    (text : List Char) :
    readMembers (fuel + 1) (named ++ ':' :: text) = (do
      let (value, later) ← readValue fuel text
      match skipBlanks later with
      | '\x7d' :: rest => return ([(name, value)], rest)
      | ',' :: rest =>
          let (members, rest) ← readMembers fuel rest
          return ((name, value) :: members, rest)
      | _ => none) := by
  cases hname with
  | @quoted before spelled after name hbefore hspelled hafter =>
      have hquote : skipBlanks (before ++ '"' :: spelled ++ '"' :: after ++ ':' :: text) =
          '"' :: (spelled ++ '"' :: (after ++ ':' :: text)) := by
        simp only [List.append_assoc, List.cons_append, skipBlanks_append hbefore]
        rfl
      have hcolon : skipBlanks (after ++ ':' :: text) = ':' :: text := by
        rw [skipBlanks_append hafter]
        rfl
      rw [readMembers, hquote]
      change (readString (spelled ++ '"' :: (after ++ ':' :: text))).bind _ = _
      rw [readString_append hspelled, Option.bind_some]
      dsimp only
      rw [hcolon]
      rfl

theorem readMembers_last {named : List Char} (hname : NameText named name)
    (hvalue : readValue fuel text = some (value, later)) (hclose : skipBlanks later = '\x7d' :: rest) :
    readMembers (fuel + 1) (named ++ ':' :: text) = some ([(name, value)], rest) := by
  rw [readMembers_name hname, hvalue, Option.bind_eq_bind, Option.bind_some]
  dsimp only
  rw [hclose]
  rfl

theorem readMembers_more {named : List Char} (hname : NameText named name)
    (hvalue : readValue fuel text = some (value, later)) (hcomma : skipBlanks later = ',' :: rest) :
    readMembers (fuel + 1) (named ++ ':' :: text) =
      (readMembers fuel rest).map fun (members, rest) => ((name, value) :: members, rest) := by
  rw [readMembers_name hname, hvalue, Option.bind_eq_bind, Option.bind_some]
  dsimp only
  rw [hcomma]
  change (readMembers fuel rest).bind _ = _
  cases readMembers fuel rest <;> rfl

/-- A text that stands for a value begins with one, and with nothing that closes. -/
theorem Denotes.opens (hvalue : Denotes text value) (rest : List Char) :
    (skipBlanks (text ++ rest)).head? ≠ some ']' := by
  induction hvalue generalizing rest with
  | padded hbefore hvalue hafter ih =>
      rw [List.append_assoc, List.append_assoc, skipBlanks_append hbefore]
      exact ih _
  | number hnumber =>
      obtain ⟨first, later, rfl, hfirst⟩ := hnumber.eq_cons
      rcases hfirst with rfl | hdigit
      · exact nofun
      · rw [List.cons_append, skipBlanks_cons (isBlank_eq_false_of_isDigit hdigit)]
        rintro ⟨⟩
        cases hdigit
  | _ => exact nofun

theorem NameText.opens {named : List Char} (hname : NameText named name) (rest : List Char) :
    (skipBlanks (named ++ rest)).head? = some '"' := by
  cases hname with
  | quoted hbefore hname hafter =>
      rw [List.append_assoc, List.append_assoc, skipBlanks_append hbefore]
      rfl

/-- Whether a text is read as a value within the bound that its length sets, up to the blanks behind
it. -/
def ReadsBack (text : List Char) (value : Json) : Prop :=
  ∀ fuel rest, 2 * text.length ≤ fuel → Ends rest →
    ∃ later, readValue fuel (text ++ rest) = some (value, later) ∧
      skipBlanks later = skipBlanks rest

/-- Items that are read back one by one are read back up to the closing bracket. -/
theorem readItems_append {items : List (List Char × Json)} (hsome : items ≠ [])
    (hitems : ∀ item ∈ items, ReadsBack item.1 item.2) {fuel : Nat}
    (hfuel : 2 * (commaSeparated (items.map Prod.fst)).length < fuel) (rest : List Char) :
    readItems fuel (commaSeparated (items.map Prod.fst) ++ ']' :: rest) =
      some (items.map Prod.snd, rest) := by
  induction items generalizing fuel with
  | nil => exact absurd rfl hsome
  | cons item items ih =>
      obtain ⟨hitem, hitems⟩ := List.forall_mem_cons.mp hitems
      obtain ⟨fuel, rfl⟩ := Nat.exists_eq_add_of_lt (Nat.zero_lt_of_lt hfuel)
      rw [Nat.zero_add] at hfuel ⊢
      cases items with
      | nil =>
          simp only [List.map_cons, List.map_nil, commaSeparated] at hfuel ⊢
          obtain ⟨later, hread, hlater⟩ := hitem fuel (']' :: rest) (by omega)
            (ends_cons (by decide) rest)
          exact readItems_last hread hlater
      | cons next items =>
          have hmore : (next :: items).map Prod.fst ≠ [] := List.cons_ne_nil _ _
          rw [List.map_cons, commaSeparated_cons hmore, List.length_append, List.length_cons]
            at hfuel
          rw [List.map_cons, commaSeparated_cons hmore, List.append_assoc, List.cons_append]
          obtain ⟨later, hread, hlater⟩ := hitem fuel _ (by omega) (ends_comma _)
          rw [readItems_more hread hlater, ih (List.cons_ne_nil next items) hitems (by omega)]
          rfl

/-- Members whose values are read back one by one are read back up to the closing brace. -/
theorem readMembers_append {members : List ((List Char × List Nat) × (List Char × Json))}
    (hsome : members ≠ []) (hnames : ∀ member ∈ members, NameText member.1.1 member.1.2)
    (hvalues : ∀ member ∈ members, ReadsBack member.2.1 member.2.2) {fuel : Nat}
    (hfuel : 2 * (commaSeparated (members.map fun member =>
      member.1.1 ++ ':' :: member.2.1)).length < fuel) (rest : List Char) :
    readMembers fuel
        (commaSeparated (members.map fun member => member.1.1 ++ ':' :: member.2.1) ++
          '\x7d' :: rest) =
      some (members.map fun member => (member.1.2, member.2.2), rest) := by
  induction members generalizing fuel with
  | nil => exact absurd rfl hsome
  | cons member members ih =>
      obtain ⟨hname, hnames⟩ := List.forall_mem_cons.mp hnames
      obtain ⟨hvalue, hvalues⟩ := List.forall_mem_cons.mp hvalues
      obtain ⟨fuel, rfl⟩ := Nat.exists_eq_add_of_lt (Nat.zero_lt_of_lt hfuel)
      rw [Nat.zero_add] at hfuel ⊢
      cases members with
      | nil =>
          simp only [List.map_cons, List.map_nil, commaSeparated, List.length_append,
            List.length_cons, List.append_assoc, List.cons_append] at hfuel ⊢
          obtain ⟨later, hread, hlater⟩ := hvalue fuel ('\x7d' :: rest) (by omega)
            (ends_cons (by decide) rest)
          exact readMembers_last hname hread hlater
      | cons next members =>
          have hmore : (next :: members).map
              (fun member => member.1.1 ++ ':' :: member.2.1) ≠ [] := List.cons_ne_nil _ _
          rw [List.map_cons, commaSeparated_cons hmore] at hfuel ⊢
          simp only [List.length_append, List.length_cons, List.append_assoc,
            List.cons_append] at hfuel ⊢
          obtain ⟨later, hread, hlater⟩ := hvalue fuel _ (by omega) (ends_comma _)
          rw [readMembers_more hname hread hlater,
            ih (List.cons_ne_nil next members) hnames hvalues (by omega)]
          rfl

/-- It is enough to read a text in one step, whatever follows it. -/
theorem readsBack_of_step (hsome : 0 < text.length)
    (hstep : ∀ fuel rest, readValue (fuel + 1) (text ++ rest) = some (value, rest)) :
    ReadsBack text value := by
  intro fuel rest hfuel _
  cases fuel with
  | zero => omega
  | succ fuel => exact ⟨rest, hstep fuel rest, rfl⟩

theorem ReadsBack.padded {before after : List Char} (hbefore : Blanks before)
    (hback : ReadsBack text value) (hafter : Blanks after) :
    ReadsBack (before ++ text ++ after) value := by
  intro fuel rest hfuel hends
  rw [List.length_append, List.length_append] at hfuel
  obtain ⟨later, hread, hlater⟩ := hback fuel (after ++ rest) (by omega) (hends.append hafter)
  refine ⟨later, ?_, by rw [hlater, skipBlanks_append hafter]⟩
  rw [← readValue_skipBlanks, List.append_assoc, List.append_assoc, skipBlanks_append hbefore,
    readValue_skipBlanks, hread]

theorem NumberText.readsBack (hnumber : NumberText text) : ReadsBack text (number text) := by
  intro fuel rest hfuel hends
  obtain ⟨first, later, rfl, hfirst⟩ := hnumber.eq_cons
  cases fuel with
  | zero => cases hfuel
  | succ fuel =>
      refine ⟨rest, ?_, rfl⟩
      rw [List.cons_append, readValue_number fuel hfirst, ← List.cons_append,
        readNumber_append hnumber hends]
      rfl

theorem readsBack_array {items : List (List Char × Json)}
    (hitems : ∀ item ∈ items, Denotes item.1 item.2)
    (hback : ∀ item ∈ items, ReadsBack item.1 item.2) :
    ReadsBack ('[' :: commaSeparated (items.map Prod.fst) ++ [']'])
      (array (items.map Prod.snd)) := by
  intro fuel rest hfuel hends
  cases fuel with
  | zero => cases hfuel
  | succ fuel =>
      refine ⟨rest, ?_, rfl⟩
      simp only [List.cons_append, List.append_assoc, List.nil_append, List.length_cons,
        List.length_append] at hfuel ⊢
      cases items with
      | nil => rfl
      | cons item items =>
          have hread := readItems_append (List.cons_ne_nil item items) hback
            (show _ < fuel by omega) rest
          obtain ⟨later, hlater⟩ : ∃ later, commaSeparated ((item :: items).map Prod.fst) =
              item.1 ++ later := commaSeparated_map_cons Prod.fst item items
          rw [readValue_bracket_of_open fuel, hread]
          · rfl
          · rw [hlater, List.append_assoc]
            exact (hitems item List.mem_cons_self).opens _

theorem readsBack_object {members : List ((List Char × List Nat) × (List Char × Json))}
    (hnames : ∀ member ∈ members, NameText member.1.1 member.1.2)
    (hback : ∀ member ∈ members, ReadsBack member.2.1 member.2.2) :
    ReadsBack
      ('\x7b' :: commaSeparated (members.map fun member => member.1.1 ++ ':' :: member.2.1) ++
        ['\x7d'])
      (object (members.map fun member => (member.1.2, member.2.2))) := by
  intro fuel rest hfuel hends
  cases fuel with
  | zero => cases hfuel
  | succ fuel =>
      refine ⟨rest, ?_, rfl⟩
      simp only [List.cons_append, List.append_assoc, List.nil_append, List.length_cons,
        List.length_append] at hfuel ⊢
      cases members with
      | nil => rfl
      | cons member members =>
          have hread := readMembers_append (List.cons_ne_nil member members) hnames hback
            (show _ < fuel by omega) rest
          obtain ⟨later, hlater⟩ := commaSeparated_map_cons
            (fun member : (List Char × List Nat) × (List Char × Json) =>
              member.1.1 ++ ':' :: member.2.1) member members
          rw [readValue_brace_of_open fuel, hread]
          · rfl
          · rw [hlater, List.append_assoc, List.append_assoc,
              (hnames member List.mem_cons_self).opens]
            decide

/-- A text that stands for a value is read as that value, up to the blanks behind it. -/
theorem Denotes.readsBack (hvalue : Denotes text value) : ReadsBack text value := by
  induction hvalue with
  | padded hbefore _ hafter ih => exact ih.padded hbefore hafter
  | null | true | false => exact readsBack_of_step (by decide) fun _ _ => rfl
  | number hnumber => exact hnumber.readsBack
  | string hstring =>
      refine readsBack_of_step (Nat.succ_pos _) fun fuel rest => ?_
      rw [List.cons_append, List.cons_append, List.append_assoc, readValue_quote,
        List.singleton_append, readString_append hstring]
      rfl
  | emptyArray hblanks =>
      refine readsBack_of_step (Nat.succ_pos _) fun fuel rest => ?_
      rw [List.cons_append, List.cons_append, List.append_assoc, List.singleton_append,
        readValue_bracket, skipBlanks_append hblanks]
      rfl
  | emptyObject hblanks =>
      refine readsBack_of_step (Nat.succ_pos _) fun fuel rest => ?_
      rw [List.cons_append, List.cons_append, List.append_assoc, List.singleton_append,
        readValue_brace, skipBlanks_append hblanks]
      rfl
  | array hitems ih => exact readsBack_array hitems ih
  | object hnames _ ih => exact readsBack_object hnames ih

/-- A text is read as a value exactly when it stands for that value. -/
theorem read_eq_some_iff {text : String} :
    read text = some value ↔ Denotes text.toList value := by
  rw [read]
  constructor
  · intro hread
    split at hread
    · next other rest hvalue =>
        split at hread
        · next hblank =>
            obtain rfl := Option.some.inj hread
            obtain ⟨spelled, heq, hspelled⟩ := (readsGrammar _).value hvalue
            obtain ⟨blanks, hblanks, hrest⟩ := exists_blanks rest
            rw [hblank, List.append_nil] at hrest
            rw [heq]
            exact hspelled.padded_right (hrest ▸ hblanks)
        · cases hread
    · cases hread
  · intro hvalue
    obtain ⟨later, hread, hlater⟩ :=
      hvalue.readsBack (2 * text.toList.length + 2) [] (by omega) nofun
    rw [List.append_nil] at hread
    rw [hread]
    exact if_pos hlater

end Custody.Json
