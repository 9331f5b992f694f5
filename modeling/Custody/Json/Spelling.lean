/-
# The JSON values of snapshots, reports and phases

Which JSON values stand for a record or a phase, said without decoding them.  A record is spelled by an
array of its fields in order, or by an object that has each field once; there the order does not matter,
nor do members with other names.  The fields have one form each.
-/

import Custody.Json.Codec

namespace Custody

/-- The values that spell the fields of a record. -/
inductive Json.SpellsRecord (fields : List (String × Json)) : Json → Prop where
  | inOrder : SpellsRecord fields (.array (fields.map Prod.snd))
  /-- Those of the members which have the name of a field are the fields in some order. -/
  | byName {members : List (String × Json)}
      (hfields : (members.filter fun member => member.1 ∈ fields.map Prod.fst).Perm fields) :
      SpellsRecord fields (.ofRecord members)

/-- The fields of a snapshot with their forms. -/
def Snapshot.jsonRecord (snapshot : Snapshot) : List (String × Json) :=
  [("topology_id", .ofUInt64 snapshot.topology),
    ("members", .array (snapshot.members.map .ofUInt64)),
    ("segment_owners", .array (snapshot.owners.map fun owners => .array (owners.map .ofUInt64)))]

/-- Whether a value stands for a snapshot. -/
def Snapshot.SpelledBy (snapshot : Snapshot) (value : Json) : Prop :=
  Json.SpellsRecord snapshot.jsonRecord value

/-- The fields of a report with their forms. -/
def Report.jsonRecord (report : Report) : List (String × Json) :=
  [("visited", .ofUInt64 report.visited), ("armed", .ofUInt64 report.armed),
    ("skipped", .ofUInt64 report.skipped), ("interrupted", .bool report.interrupted)]

/-- Whether a value stands for a report. -/
def Report.SpelledBy (report : Report) (value : Json) : Prop :=
  Json.SpellsRecord report.jsonRecord value

/-- Whether a value stands for a phase: its name alone, or an object that maps it to null. -/
def Phase.SpelledBy (phase : Phase) (value : Json) : Prop :=
  value = .ofText phase.name ∨ value = .ofRecord [(phase.name, .null)]

end Custody
