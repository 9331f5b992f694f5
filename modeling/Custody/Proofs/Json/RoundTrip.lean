/-
# There and back

Snapshots, reports and phases travel as texts.  Whatever is encoded is decoded as it was, a snapshot that
breaks its own rules included.  Many texts are decoded as the same value: those that denote, by the
grammar, a JSON value which spells it, with blanks and escapes of any kind, with fields in any order and
unknown ones among them, or as an array; no other text is decoded at all, so that a field may neither be
missing nor come twice.  Encoding brings all of them to one form, which is left as it is from then on.
-/

import Custody.Proofs.Json.Records
import Custody.Proofs.Snapshot.Decoding

namespace Custody

/-- What is promised of values that travel as texts, where some JSON values spell each of them. -/
structure RoundTrips {α : Type} (encode : α → String) (decode? : String → Option α)
    (SpelledBy : α → Json → Prop) : Prop where
  /-- What is encoded is decoded as it was. -/
  decode_encode : ∀ value, decode? (encode value) = some value
  /-- A text is decoded as a value exactly when it denotes a JSON value that spells it. -/
  decode_iff : ∀ text value, decode? text = some value ↔
    ∃ json, Json.Denotes text.toList json ∧ SpelledBy value json
  /-- Encoding a decoded value gives a text that is decoded as that value. -/
  decode_again : ∀ text, (decode? text).bind (fun value => decode? (encode value)) = decode? text
  /-- A text that was decoded and encoded again stays as it is. -/
  settles : ∀ text,
    ((decode? text).map encode).bind (fun canonical => (decode? canonical).map encode) =
      (decode? text).map encode

namespace RoundTrips

variable {α : Type} {toJson : α → Json} {ofJson? : Json → Option α}
  {SpelledBy : α → Json → Prop}

/-- Values make the round trip when each is written as a value that spells it, and is understood from
the values that spell it and from no others. -/
theorem of_spelling (hplain : ∀ value, (toJson value).Plain)
    (hspells : ∀ value, SpelledBy value (toJson value))
    (hunderstood : ∀ value json, ofJson? json = some value ↔ SpelledBy value json) :
    RoundTrips (fun value => (toJson value).render) (fun text => (Json.read text).bind ofJson?)
      SpelledBy := by
  have hback : ∀ value, (Json.read (toJson value).render).bind ofJson? = some value := by
    intro value
    rw [(hplain value).read_render, Option.bind_some]
    exact (hunderstood value _).mpr (hspells value)
  refine ⟨hback, fun text value => ?_, fun text => ?_, fun text => ?_⟩
  · simp only [Option.bind_eq_some_iff, Json.read_eq_some_iff, hunderstood]
  · cases (Json.read text).bind ofJson? with
    | none => rfl
    | some value => exact hback value
  · cases (Json.read text).bind ofJson? with
    | none => rfl
    | some value =>
        rw [Option.map_some, Option.bind_some, hback value]
        rfl

end RoundTrips

namespace Report

variable {report : Report}

theorem plain_toJson (report : Report) : report.toJson.Plain := by
  refine Json.plain_ofRecord fun field hmem => ?_
  simp only [List.mem_cons, List.not_mem_nil, or_false] at hmem
  rcases hmem with rfl | rfl | rfl | rfl
  · exact Json.plain_ofUInt64 _
  · exact Json.plain_ofUInt64 _
  · exact Json.plain_ofUInt64 _
  · exact .bool _

/-- A report is understood from the values that spell it. -/
theorem ofJson?_eq_some_iff {value : Json} :
    ofJson? value = some report ↔ report.SpelledBy value := by
  have hnames : report.jsonRecord.map Prod.fst = jsonFields := rfl
  rw [SpelledBy, ← Json.asRecord_eq_some_iff (by rw [hnames]; decide), hnames, ofJson?]
  split
  · next visited armed skipped interrupted hfields =>
      rw [hfields]
      simp only [Option.bind_eq_bind, Option.bind_eq_some_iff, Option.pure_def, Option.some.injEq,
        Json.asUInt64_eq_some_iff, Json.asBool_eq_some_iff, jsonRecord, List.map_cons,
        List.map_nil, List.cons.injEq, and_true]
      constructor
      · rintro ⟨_, rfl, _, rfl, _, rfl, _, rfl, rfl⟩
        exact ⟨rfl, rfl, rfl, rfl⟩
      · rintro ⟨hvisited, harmed, hskipped, hinterrupted⟩
        exact ⟨_, hvisited, _, harmed, _, hskipped, _, hinterrupted, rfl⟩
  · next hother => exact iff_of_false nofun fun hfields => hother _ _ _ _ hfields

end Report

namespace Phase

variable {phase : Phase}

theorem ofName?_eq_some_iff {name : String} : ofName? name = some phase ↔ name = phase.name := by
  unfold ofName?
  split
  · next hpre => cases phase <;> simp [hpre, Phase.name]
  · next hpre =>
      split
      · next hpost => cases phase <;> simp [hpost, Phase.name]
      · next hpost => cases phase <;> simp [hpre, hpost]

/-- A phase is understood from the values that spell it. -/
theorem ofJson?_eq_some_iff {value : Json} :
    ofJson? value = some phase ↔ phase.SpelledBy value := by
  unfold ofJson?
  split
  · next points =>
      rw [Option.bind_eq_some_iff]
      simp only [ofName?_eq_some_iff, Json.textOf_eq_some_iff]
      constructor
      · rintro ⟨_, rfl, rfl⟩
        exact Or.inr rfl
      · rintro (hstring | hobject)
        · cases hstring
        · rw [Json.ofRecord, Json.object.injEq] at hobject
          exact ⟨_, (Prod.mk.inj (List.cons.inj hobject).1).1, rfl⟩
  · next hother =>
      rw [Option.bind_eq_some_iff]
      simp only [ofName?_eq_some_iff, Json.asText_eq_some_iff]
      constructor
      · rintro ⟨_, rfl, rfl⟩
        exact Or.inl rfl
      · rintro (rfl | hobject)
        · exact ⟨_, rfl, rfl⟩
        · exact (hother _ hobject).elim

end Phase

/-- Snapshots, whether valid or not, reports and phases make the round trip: what is encoded is decoded as
it was, a text is decoded exactly when it denotes a JSON value that spells the result, and encoding
what was decoded gives a text that decoding and encoding leave as it is. -/
theorem encodings_round_trip :
    RoundTrips Snapshot.encode Snapshot.decode? Snapshot.SpelledBy ∧
      RoundTrips Report.encode Report.decode? Report.SpelledBy ∧
      RoundTrips Phase.encode Phase.decode? Phase.SpelledBy :=
  ⟨.of_spelling Snapshot.plain_toJson Snapshot.spelledBy_toJson
      fun _ _ => Snapshot.ofJson?_eq_some_iff,
    .of_spelling Report.plain_toJson (fun report => Json.spellsRecord_ofRecord report.jsonRecord)
      fun _ _ => Report.ofJson?_eq_some_iff,
    .of_spelling (fun phase => Json.plain_ofText phase.name) (fun _ => Or.inl rfl)
      fun _ _ => Phase.ofJson?_eq_some_iff⟩

/-- Fields out of order, blanks, and an unknown field with half of a surrogate pair in it. -/
example :
    Snapshot.decode? "\x7b \"members\":[1, 2],\"note\":[\"\\ud800\",-1e9],\"segment_owners\":[[2,1],[]],
      \"topology_id\":18446744073709551615\x7d" =
      some ⟨18446744073709551615, [1, 2], [[2, 1], []]⟩ := by decide +kernel

end Custody
