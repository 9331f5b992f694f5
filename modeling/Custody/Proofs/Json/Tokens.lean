/-
# Numbers and strings as they are read

What is read as a number or as a string is what the grammar calls one, and the other way round as long
as the text goes on in a way that cannot belong to it.  A number is read as far as it reaches, so
neither a digit nor a point nor the mark of an exponent may follow it.  A string ends with its quote,
and anything may follow that.
-/

import Mathlib.Data.List.TakeWhile
import Custody.Json.Grammar

namespace Custody.Json

variable {text rest : List Char}

theorem blanks_nil : Blanks [] := nofun

theorem skipBlanks_append {blanks : List Char} (hblanks : Blanks blanks) (text : List Char) :
    skipBlanks (blanks ++ text) = skipBlanks text :=
  List.dropWhile_append_of_pos hblanks

theorem skipBlanks_cons {c : Char} (hblank : isBlank c = false) (text : List Char) :
    skipBlanks (c :: text) = c :: text :=
  List.dropWhile_cons_of_neg (by simp [hblank])

/-- What is skipped are blanks. -/
theorem exists_blanks (text : List Char) :
    ∃ blanks, Blanks blanks ∧ text = blanks ++ skipBlanks text :=
  ⟨text.takeWhile isBlank, fun _ => List.mem_takeWhile_imp,
    (List.takeWhile_append_dropWhile ..).symm⟩

theorem skipBlanks_skipBlanks (text : List Char) :
    skipBlanks (skipBlanks text) = skipBlanks text := by
  obtain ⟨blanks, hblanks, htext⟩ := exists_blanks text
  rw [← skipBlanks_append hblanks, ← htext]

/-- No digit comes next. -/
def NoDigit (rest : List Char) : Prop := ∀ c ∈ rest.head?, ¬ c.isDigit = true

theorem NoDigit.takeWhile (hstops : NoDigit rest) :
    rest.takeWhile Char.isDigit = [] ∧ rest.dropWhile Char.isDigit = rest := by
  cases rest with
  | nil => exact ⟨rfl, rfl⟩
  | cons c rest =>
      exact ⟨List.takeWhile_cons_of_neg (hstops c rfl), List.dropWhile_cons_of_neg (hstops c rfl)⟩

/-- Digits are read up to where they end. -/
theorem readDigits_append {digits : List Char} (hdigits : Digits digits) (hstops : NoDigit rest) :
    readDigits (digits ++ rest) = some (digits, rest) := by
  obtain ⟨hsome, hall⟩ := hdigits
  obtain ⟨htake, hdrop⟩ := hstops.takeWhile
  rw [readDigits, List.takeWhile_append_of_pos hall, List.dropWhile_append_of_pos hall, htake,
    hdrop, List.append_nil]
  cases digits with
  | nil => exact absurd rfl hsome
  | cons c digits => rfl

theorem digits_of_readDigits {digits : List Char} (hread : readDigits text = some (digits, rest)) :
    text = digits ++ rest ∧ Digits digits := by
  unfold readDigits at hread
  split at hread
  · cases hread
  · next hsome =>
      obtain ⟨rfl, rfl⟩ := Prod.mk.inj (Option.some.inj hread)
      exact ⟨(List.takeWhile_append_dropWhile ..).symm, hsome, fun _ => List.mem_takeWhile_imp⟩

/-- Digits begin with a digit. -/
theorem Digits.eq_cons (hdigits : Digits text) :
    ∃ digit later, text = digit :: later ∧ digit.isDigit = true := by
  cases text with
  | nil => exact absurd rfl hdigits.1
  | cons digit later => exact ⟨digit, later, rfl, hdigits.2 digit List.mem_cons_self⟩

theorem WholeText.eq_cons (hwhole : WholeText text) :
    ∃ digit later, text = digit :: later ∧ digit.isDigit = true := by
  cases hwhole with
  | zero => exact ⟨'0', [], rfl, rfl⟩
  | digits hdigits => exact hdigits.eq_cons

theorem readWhole_append {whole : List Char} (hwhole : WholeText whole) (hstops : NoDigit rest) :
    readWhole (whole ++ rest) = some (whole, rest) := by
  cases hwhole with
  | zero => rfl
  | digits hdigits hfirst =>
      obtain ⟨digit, later, rfl, -⟩ := hdigits.eq_cons
      unfold readWhole
      split
      · next htext => exact absurd (congrArg some (List.cons.inj htext).1) hfirst
      · exact readDigits_append hdigits hstops

theorem wholeText_of_readWhole {whole : List Char} (hread : readWhole text = some (whole, rest)) :
    text = whole ++ rest ∧ WholeText whole := by
  unfold readWhole at hread
  split at hread
  · obtain ⟨rfl, rfl⟩ := Prod.mk.inj (Option.some.inj hread)
    exact ⟨rfl, .zero⟩
  · next hother =>
      obtain ⟨rfl, hdigits⟩ := digits_of_readDigits hread
      obtain ⟨digit, later, rfl, -⟩ := hdigits.eq_cons
      refine ⟨rfl, .digits hdigits fun hzero => ?_⟩
      exact hother (later ++ rest) (by rw [Option.some.inj hzero, List.cons_append])

theorem readFraction_append {fraction : List Char} (hfraction : FractionText fraction)
    (hstops : NoDigit rest) (hpoint : rest.head? ≠ some '.') :
    readFraction (fraction ++ rest) = some (fraction, rest) := by
  cases hfraction with
  | missing =>
      unfold readFraction
      split
      · next htext =>
          rw [List.nil_append] at htext
          exact absurd (by rw [htext]; rfl) hpoint
      · rfl
  | digits hdigits =>
      rw [List.cons_append, readFraction, readDigits_append hdigits hstops]
      rfl

theorem fractionText_of_readFraction {fraction : List Char}
    (hread : readFraction text = some (fraction, rest)) :
    text = fraction ++ rest ∧ FractionText fraction := by
  unfold readFraction at hread
  split at hread
  · obtain ⟨⟨digits, later⟩, hscan, heq⟩ := Option.map_eq_some_iff.mp hread
    obtain ⟨rfl, rfl⟩ := Prod.mk.inj heq
    obtain ⟨rfl, hdigits⟩ := digits_of_readDigits hscan
    exact ⟨rfl, .digits hdigits⟩
  · obtain ⟨rfl, rfl⟩ := Prod.mk.inj (Option.some.inj hread)
    exact ⟨rfl, .missing⟩

/-- A sign is read if there is one before the digits. -/
theorem readSign_append {sign : List Char} (hsign : sign = [] ∨ sign = ['+'] ∨ sign = ['-'])
    {digits : List Char} (hdigits : Digits digits) (rest : List Char) :
    readSign (sign ++ (digits ++ rest)) = (sign, digits ++ rest) := by
  obtain ⟨digit, later, rfl, hdigit⟩ := hdigits.eq_cons
  rcases hsign with rfl | rfl | rfl
  · unfold readSign
    split
    · next htext =>
        obtain ⟨rfl, -⟩ := List.cons.inj htext
        cases hdigit
    · next htext =>
        obtain ⟨rfl, -⟩ := List.cons.inj htext
        cases hdigit
    · rfl
  · rfl
  · rfl

theorem sign_of_readSign {sign : List Char} (hread : readSign text = (sign, rest)) :
    text = sign ++ rest ∧ (sign = [] ∨ sign = ['+'] ∨ sign = ['-']) := by
  unfold readSign at hread
  split at hread
  all_goals
    obtain ⟨rfl, rfl⟩ := Prod.mk.inj hread
    exact ⟨rfl, by decide⟩

theorem readExponent_append {exponent : List Char} (hexponent : ExponentText exponent)
    (hstops : NoDigit rest) (hmark : ∀ c ∈ rest.head?, ¬ (c = 'e' ∨ c = 'E')) :
    readExponent (exponent ++ rest) = some (exponent, rest) := by
  cases hexponent with
  | missing =>
      cases rest with
      | nil => rfl
      | cons c rest => rw [List.nil_append, readExponent, if_neg (hmark c rfl)]
  | digits hexp hsign hdigits =>
      rw [List.cons_append, List.cons_append, List.append_assoc, readExponent, if_pos hexp,
        readSign_append hsign hdigits]
      dsimp only
      rw [readDigits_append hdigits hstops]
      rfl

theorem exponentText_of_readExponent {exponent : List Char}
    (hread : readExponent text = some (exponent, rest)) :
    text = exponent ++ rest ∧ ExponentText exponent := by
  unfold readExponent at hread
  split at hread
  · next mark after =>
      split at hread
      · next hmark =>
          cases hsplit : readSign after with
          | mk sign unsigned =>
              rw [hsplit] at hread
              obtain ⟨⟨digits, later⟩, hscan, heq⟩ := Option.map_eq_some_iff.mp hread
              obtain ⟨rfl, rfl⟩ := Prod.mk.inj heq
              obtain ⟨rfl, hsign⟩ := sign_of_readSign hsplit
              obtain ⟨rfl, hdigits⟩ := digits_of_readDigits hscan
              exact ⟨by simp, .digits hmark hsign hdigits⟩
      · obtain ⟨rfl, rfl⟩ := Prod.mk.inj (Option.some.inj hread)
        exact ⟨rfl, .missing⟩
  · obtain ⟨rfl, rfl⟩ := Prod.mk.inj (Option.some.inj hread)
    exact ⟨rfl, .missing⟩

/-- What may follow a value: nothing, a blank, or a character that ends it. -/
def Ends (rest : List Char) : Prop :=
  ∀ c ∈ rest.head?, isBlank c = true ∨ c = ',' ∨ c = ']' ∨ c = '\x7d'

theorem ends_cons {c : Char} (hend : isBlank c = true ∨ c = ',' ∨ c = ']' ∨ c = '\x7d')
    (rest : List Char) : Ends (c :: rest) := by
  rintro _ ⟨⟩
  exact hend

theorem ends_comma (rest : List Char) : Ends (',' :: rest) := ends_cons (by decide) rest

theorem Ends.append {blanks : List Char} (hblanks : Blanks blanks) (hends : Ends rest) :
    Ends (blanks ++ rest) := by
  cases blanks with
  | nil => exact hends
  | cons c blanks => exact ends_cons (Or.inl (hblanks c List.mem_cons_self)) _

theorem isBlank_iff {c : Char} : isBlank c = true ↔ c = ' ' ∨ c = '\n' ∨ c = '\t' ∨ c = '\r' := by
  simp [isBlank, or_assoc]

/-- Nothing that belongs to a number may follow a value. -/
theorem Ends.bars (hends : Ends rest) :
    ∀ c ∈ rest.head?, ¬ c.isDigit = true ∧ c ≠ '.' ∧ ¬ (c = 'e' ∨ c = 'E') := by
  intro c hc
  have hends := hends c hc
  rw [isBlank_iff] at hends
  rcases hends with (rfl | rfl | rfl | rfl) | rfl | rfl | rfl <;> decide

/-- Nothing that belongs to the digits before it begins an exponent, if there is one. -/
theorem ExponentText.bars {exponent : List Char} (hexponent : ExponentText exponent)
    (hends : Ends rest) : ∀ c ∈ (exponent ++ rest).head?, ¬ c.isDigit = true ∧ c ≠ '.' := by
  cases hexponent with
  | missing => exact fun c hc => ⟨(hends.bars c hc).1, (hends.bars c hc).2.1⟩
  | digits hmark hsign hdigits =>
      rintro _ ⟨⟩
      rcases hmark with rfl | rfl <;> decide

theorem FractionText.noDigit {fraction : List Char} (hfraction : FractionText fraction)
    (hrest : NoDigit rest) : NoDigit (fraction ++ rest) := by
  cases hfraction with
  | missing => exact hrest
  | digits hdigits =>
      rintro _ ⟨⟩
      decide

/-- A number is read up to where a value may end. -/
theorem readNumber_append {digits : List Char} (hnumber : NumberText digits) (hends : Ends rest) :
    readNumber (digits ++ rest) = some (digits, rest) := by
  cases hnumber with
  | @parts minus whole fraction exponent hminus hwhole hfraction hexponent =>
      have hstops : NoDigit (exponent ++ rest) := fun c hc => (hexponent.bars hends c hc).1
      have hpoint : (exponent ++ rest).head? ≠ some '.' := fun hc =>
        (hexponent.bars hends '.' hc).2 rfl
      have hreadExponent := readExponent_append hexponent (fun c hc => (hends.bars c hc).1)
        fun c hc => (hends.bars c hc).2.2
      have hreadFraction := readFraction_append hfraction hstops hpoint
      have hreadWhole := readWhole_append hwhole (hfraction.noDigit hstops)
      simp only [List.append_assoc]
      rcases hminus with rfl | rfl
      · obtain ⟨digit, later, rfl, hdigit⟩ := hwhole.eq_cons
        unfold readNumber
        split
        next minus unsigned hsign =>
          split at hsign
          · next htext =>
              obtain ⟨rfl, -⟩ := List.cons.inj htext
              cases hdigit
          · obtain ⟨rfl, rfl⟩ := Prod.mk.inj hsign
            rw [List.cons_append] at hreadWhole
            simp [hreadWhole, hreadFraction, hreadExponent]
      · simp [readNumber, hreadWhole, hreadFraction, hreadExponent]

/-- What is read as a number is one. -/
theorem numberText_of_readNumber {digits : List Char}
    (hread : readNumber text = some (digits, rest)) :
    text = digits ++ rest ∧ NumberText digits := by
  unfold readNumber at hread
  split at hread
  next minus unsigned hsign =>
    have hminus : text = minus ++ unsigned ∧ (minus = [] ∨ minus = ['-']) := by
      split at hsign
      all_goals
        obtain ⟨rfl, rfl⟩ := Prod.mk.inj hsign
        exact ⟨rfl, by decide⟩
    simp only [Option.bind_eq_bind, Option.bind_eq_some_iff, Option.pure_def, Option.some.injEq,
      Prod.mk.injEq, Prod.exists] at hread
    obtain ⟨whole, afterWhole, hreadWhole, fraction, afterFraction, hreadFraction, exponent,
      afterExponent, hreadExponent, rfl, rfl⟩ := hread
    obtain ⟨rfl, hminus⟩ := hminus
    obtain ⟨rfl, hwhole⟩ := wholeText_of_readWhole hreadWhole
    obtain ⟨rfl, hfraction⟩ := fractionText_of_readFraction hreadFraction
    obtain ⟨rfl, hexponent⟩ := exponentText_of_readExponent hreadExponent
    exact ⟨by simp, .parts hminus hwhole hfraction hexponent⟩

/-- A number begins with a sign or a digit. -/
theorem NumberText.eq_cons (hnumber : NumberText text) :
    ∃ first later, text = first :: later ∧ (first = '-' ∨ first.isDigit = true) := by
  cases hnumber with
  | parts hminus hwhole hfraction hexponent =>
      obtain ⟨digit, later, rfl, hdigit⟩ := hwhole.eq_cons
      rcases hminus with rfl | rfl
      · exact ⟨digit, _, rfl, Or.inr hdigit⟩
      · exact ⟨'-', _, rfl, Or.inl rfl⟩

/-- A character that needs no escape is read as it is. -/
theorem readString_cons {c : Char} (hquote : c ≠ '"') (hbackslash : c ≠ '\\')
    (hcontrol : ¬ c.toNat < 0x20) (text : List Char) :
    readString (c :: text) =
      (readString text).map fun (points, rest) => (c.toNat :: points, rest) := by
  have hplain : ¬ (c = '\\' ∨ c.toNat < 0x20) := not_or.mpr ⟨hbackslash, hcontrol⟩
  rw [readString, if_neg hplain]
  · exact hquote
  · exact fun _ _ _ _ _ hescape => absurd hescape hbackslash
  · exact fun _ _ hescape => absurd hescape hbackslash

/-- A string is read up to its closing quote. -/
theorem readString_append {points : List Nat} (hstring : StringText text points)
    (rest : List Char) : readString (text ++ '"' :: rest) = some (points, rest) := by
  induction hstring with
  | nothing => rw [List.nil_append, readString]
  | plain hquote hbackslash hcontrol hrest ih =>
      rw [List.cons_append, readString_cons hquote hbackslash hcontrol, ih]
      rfl
  | @short c point text points hescape hrest ih =>
      have hunit : c ≠ 'u' := by
        rintro rfl
        cases hescape
      rw [List.cons_append, List.cons_append, readString, hescape, ih]
      · rfl
      · exact fun _ _ _ _ _ hu => absurd hu hunit
  | unit hunit hrest ih => simp [readString, hunit, ih]

/-- What is read as a string is one. -/
theorem stringText_of_readString {points : List Nat}
    (hread : readString text = some (points, rest)) :
    ∃ spelled, text = spelled ++ '"' :: rest ∧ StringText spelled points := by
  fun_induction readString text generalizing points rest with
  | case1 => cases hread
  | case2 after =>
      obtain ⟨rfl, rfl⟩ := Prod.mk.inj (Option.some.inj hread)
      exact ⟨[], rfl, .nothing⟩
  | case3 a b c d after ih =>
      simp only [Option.bind_eq_bind, Option.bind_eq_some_iff, Option.pure_def, Option.some.injEq,
        Prod.mk.injEq, Prod.exists] at hread
      obtain ⟨unit, hunit, later, _, hlater, rfl, rfl⟩ := hread
      obtain ⟨spelled, rfl, hspelled⟩ := ih hlater
      exact ⟨_, rfl, .unit hunit hspelled⟩
  | case4 c after hunit ih =>
      simp only [Option.bind_eq_bind, Option.bind_eq_some_iff, Option.pure_def, Option.some.injEq,
        Prod.mk.injEq, Prod.exists] at hread
      obtain ⟨point, hescape, later, _, hlater, rfl, rfl⟩ := hread
      obtain ⟨spelled, rfl, hspelled⟩ := ih hlater
      exact ⟨_, rfl, .short hescape hspelled⟩
  | case5 => cases hread
  | case6 c after hquote _ _ hplain ih =>
      obtain ⟨⟨later, _⟩, hlater, heq⟩ := Option.map_eq_some_iff.mp hread
      obtain ⟨rfl, rfl⟩ := Prod.mk.inj heq
      obtain ⟨spelled, rfl, hspelled⟩ := ih hlater
      obtain ⟨hbackslash, hcontrol⟩ := not_or.mp hplain
      exact ⟨_, rfl, .plain hquote hbackslash hcontrol hspelled⟩

end Custody.Json
