/-
# What a pass is yet to offer

A scheduling pass that is not cancelled goes through all that the store lists of the segments that it
gained.  At every point of its work it covers the entries that it has still to take in hand, and the
one in hand even when it was cancelled meanwhile.  Each step of its work keeps what it covers, but for
the step that offers the entry in hand.
-/

import Custody.Store
import Custody.Proofs.Scheduler.Operations

namespace Custody

/-- An entry is stored after another was put there, or the same. -/
theorem Store.contains_insert {K : Type} [DecidableEq K] {store : Store K} {id other : K}
    (deadline : Instant) : (store.insert id deadline).contains other = true ↔
      other = id ∨ store.contains other = true := by
  by_cases hsame : other = id
  · simp [contains, insert, hsame]
  · have hapart : ∀ entry ∈ store.entries, entry.id = other → entry.id ≠ id :=
      fun entry _ hid heq => hsame (hid.symm.trans heq)
    simp only [contains, insert, List.any_append, List.any_filter, Bool.or_eq_true,
      List.any_eq_true, List.mem_singleton]
    constructor
    · rintro (⟨entry, hmem, hboth⟩ | ⟨entry, rfl, hid⟩)
      · simp only [Bool.and_eq_true, decide_eq_true_eq] at hboth
        exact Or.inr ⟨entry, hmem, decide_eq_true hboth.2⟩
      · exact absurd (of_decide_eq_true hid).symm hsame
    · rintro (heq | ⟨entry, hmem, hid⟩)
      · exact absurd heq hsame
      · have hkept := hapart entry hmem (of_decide_eq_true hid)
        exact Or.inl ⟨entry, hmem, Bool.and_eq_true_iff.mpr ⟨decide_eq_true hkept, hid⟩⟩

/-- An item that a pass may well find in the store: a candidate that it gained, stored with a
deadline beyond a horizon. -/
def Item.Fits {K : Type} [DecidableEq K] (gained : SegmentLocality K) (store : Store K)
    (horizon : Instant) (item : Item K) : Prop :=
  ∃ candidate, item = .ok candidate ∧ gained.owns candidate.id = true ∧
    store.contains candidate.id = true ∧ horizon < candidate.deadline

namespace SchedulingPass

variable {K : Type}

/-- Whether an entry is the one in hand. -/
def InHand (id : K) : SchedulingPass K → Prop
  | holding _ candidate _ _ => candidate.id = id
  | _ => False

/-- Whether an entry is still ahead of a pass. -/
def Ahead (id : K) : SchedulingPass K → Prop
  | waiting old new => (new.gainedSince old).owns id = true
  | asking gained => gained.owns id = true
  | reading _ rest _ => ∃ deadline, .ok ⟨id, deadline⟩ ∈ rest
  | holding _ _ rest _ => ∃ deadline, .ok ⟨id, deadline⟩ ∈ rest
  | returned _ => False

/-- Whether a pass will still offer an entry. -/
def Covers (cancelled : Bool) (id : K) (pass : SchedulingPass K) : Prop :=
  pass.InHand id ∨ cancelled = false ∧ pass.Ahead id

variable [DecidableEq K]

/-- Whether all that a pass has yet to offer fits the store. -/
def Fits (store : Store K) (horizon : Instant) : SchedulingPass K → Prop
  | reading gained rest _ => ∀ item ∈ rest, item.Fits gained store horizon
  | holding gained candidate rest _ =>
      ∀ item ∈ .ok candidate :: rest, Item.Fits gained store horizon item
  | _ => True

/-- A fitting pass still fits when the store has more. -/
theorem Fits.of_store {before after : Store K} {horizon : Instant} {pass : SchedulingPass K}
    (hfits : pass.Fits before horizon)
    (hmore : ∀ id, before.contains id = true → after.contains id = true) :
    pass.Fits after horizon := by
  have hitem : ∀ {gained : SegmentLocality K} {item : Item K},
      item.Fits gained before horizon → item.Fits gained after horizon := by
    rintro gained item ⟨candidate, hok, howns, hstored, hdeadline⟩
    exact ⟨candidate, hok, howns, hmore _ hstored, hdeadline⟩
  cases pass with
  | reading gained rest report => exact fun item hmem => hitem (hfits item hmem)
  | holding gained candidate rest report => exact fun item hmem => hitem (hfits item hmem)
  | _ => exact trivial

variable {id : K} {cancelled : Bool} {store : Store K} {horizon : Instant}

omit [DecidableEq K] in
/-- A pass that gained nothing returns at once; otherwise it asks for what it gained. -/
theorem covers_start (old new : SegmentLocality K) :
    (waiting old new).start.Covers cancelled id ↔ (waiting old new).Covers cancelled id := by
  simp only [start]
  split
  · next hempty =>
      have hnothing : (new.gainedSince old).owns id = false := by
        have hnil := List.isEmpty_iff.mp hempty
        simp [SegmentLocality.owns, SegmentLocality.ownsSegment, SegmentSet.contains, hnil]
      simp [Covers, InHand, Ahead, hnothing]
  · exact Iff.rfl

theorem fits_start (old new : SegmentLocality K) : (waiting old new).start.Fits store horizon := by
  simp only [start]
  split
  · exact trivial
  · exact trivial

omit [DecidableEq K] in
/-- The store lists the entries that are asked for, unless it is to fail. -/
theorem answer_eq (hunfailing : store.failure = none) (gained : SegmentLocality K) :
    store.answer gained =
      (.ok ((store.entries.filter fun entry => gained.owns entry.id).map .ok), store) := by
  simp [Store.answer, hunfailing]

omit [DecidableEq K] in
/-- What the store does not list is covered no more. -/
theorem covers_of_covers_answer (hunfailing : store.failure = none) {gained : SegmentLocality K}
    (hcovers : ((asking gained).answer (store.answer gained).1).Covers cancelled id) :
    (asking gained).Covers cancelled id := by
  rw [answer_eq hunfailing] at hcovers
  rcases hcovers with hhand | ⟨hlively, deadline, hmem⟩
  · exact hhand.elim
  · refine Or.inr ⟨hlively, ?_⟩
    obtain ⟨entry, hentry, hsame⟩ := List.mem_map.mp hmem
    obtain rfl := Except.ok.inj hsame
    exact (List.mem_filter.mp hentry).2

/-- What is stored when the store answers stays covered. -/
theorem covers_answer (hunfailing : store.failure = none) {gained : SegmentLocality K}
    (hstored : store.contains id = true) (hcovers : (asking gained).Covers cancelled id) :
    ((asking gained).answer (store.answer gained).1).Covers cancelled id := by
  rw [answer_eq hunfailing]
  rcases hcovers with hhand | ⟨hlively, howns⟩
  · exact hhand.elim
  · obtain ⟨entry, hentry, hsame⟩ := List.any_eq_true.mp hstored
    obtain rfl := of_decide_eq_true hsame
    refine Or.inr ⟨hlively, entry.deadline, List.mem_map.mpr ⟨entry, ?_, rfl⟩⟩
    exact List.mem_filter.mpr ⟨hentry, howns⟩

theorem fits_answer (hunfailing : store.failure = none)
    (hstored : ∀ entry ∈ store.entries, horizon < entry.deadline) (gained : SegmentLocality K) :
    ((asking gained).answer (store.answer gained).1).Fits store horizon := by
  rw [answer_eq hunfailing]
  intro item hitem
  obtain ⟨entry, hentry, rfl⟩ := List.mem_map.mp hitem
  obtain ⟨hmem, howns⟩ := List.mem_filter.mp hentry
  refine ⟨entry, rfl, howns, ?_, hstored entry hmem⟩
  exact List.any_eq_true.mpr ⟨entry, hmem, decide_eq_true rfl⟩

/-- Taking the next entry in hand leaves it covered; a cancelled pass has covered nothing. -/
theorem covers_look {gained : SegmentLocality K} {rest : List (Item K)} {report : Report}
    (hfits : (reading gained rest report).Fits store horizon) :
    ((reading gained rest report).look cancelled).Covers cancelled id ↔
      (reading gained rest report).Covers cancelled id := by
  cases rest with
  | nil => simp [look, Covers, InHand, Ahead]
  | cons item rest =>
      obtain ⟨candidate, rfl, -, -, -⟩ := hfits item List.mem_cons_self
      cases cancelled with
      | true => simp [look, Covers, InHand]
      | false =>
          constructor
          · rintro (rfl | ⟨-, deadline, hmem⟩)
            · exact Or.inr ⟨rfl, candidate.deadline, List.mem_cons_self⟩
            · exact Or.inr ⟨rfl, deadline, List.mem_cons_of_mem _ hmem⟩
          · rintro (hhand | ⟨-, deadline, hmem⟩)
            · exact hhand.elim
            · rcases List.mem_cons.mp hmem with hfirst | hrest
              · exact Or.inl (congrArg Candidate.id (Except.ok.inj hfirst)).symm
              · exact Or.inr ⟨rfl, deadline, hrest⟩

theorem fits_look {gained : SegmentLocality K} {rest : List (Item K)} {report : Report}
    (hfits : (reading gained rest report).Fits store horizon) :
    ((reading gained rest report).look cancelled).Fits store horizon := by
  cases rest with
  | nil => exact trivial
  | cons item rest =>
      obtain ⟨candidate, rfl, -, -, -⟩ := hfits item List.mem_cons_self
      cases cancelled with
      | true => exact trivial
      | false => exact hfits

end SchedulingPass

end Custody
