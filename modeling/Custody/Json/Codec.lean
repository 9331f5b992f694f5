/-
# The JSON forms of snapshots, reports and phases

Records are written as objects with their fields in order and read from objects or arrays; a phase
is written as its name and read from its name alone or from an object that maps the name to null.
Reading does not check a snapshot: what was written by another process is taken as it is.
-/

import Custody.Json.Reader
import Custody.Json.Writer
import Custody.Report
import Custody.Snapshot.Basic

namespace Custody

/-- The JSON form of a number of 64 bits. -/
def Json.ofUInt64 (value : UInt64) : Json := Json.ofNat value.toNat

namespace Snapshot

/-- The fields of a snapshot, in order. -/
def jsonFields : List String := ["topology_id", "members", "segment_owners"]

/-- The JSON form of a snapshot. -/
def toJson (snapshot : Snapshot) : Json :=
  .ofRecord
    [("topology_id", .ofUInt64 snapshot.topology),
      ("members", .array (snapshot.members.map .ofUInt64)),
      ("segment_owners", .array (snapshot.owners.map fun owners =>
        .array (owners.map .ofUInt64)))]

/-- The snapshot with a JSON form. -/
def ofJson? (value : Json) : Option Snapshot :=
  match value.asRecord jsonFields with
  | some [topology, members, owners] => do
      let topology ← topology.asUInt64
      let members ← members.asList Json.asUInt64
      let owners ← owners.asList (Json.asList Json.asUInt64)
      return ⟨topology, members, owners⟩
  | _ => none

/-- The text of a snapshot. -/
def encode (snapshot : Snapshot) : String := snapshot.toJson.render

/-- The snapshot that a text stands for. -/
def decode? (text : String) : Option Snapshot := (Json.read text).bind ofJson?

end Snapshot

namespace Report

/-- The fields of a report, in order. -/
def jsonFields : List String := ["visited", "armed", "skipped", "interrupted"]

/-- The JSON form of a report. -/
def toJson (report : Report) : Json :=
  .ofRecord
    [("visited", .ofUInt64 report.visited), ("armed", .ofUInt64 report.armed),
      ("skipped", .ofUInt64 report.skipped), ("interrupted", .bool report.interrupted)]

/-- The report with a JSON form. -/
def ofJson? (value : Json) : Option Report :=
  match value.asRecord jsonFields with
  | some [visited, armed, skipped, interrupted] => do
      let visited ← visited.asUInt64
      let armed ← armed.asUInt64
      let skipped ← skipped.asUInt64
      let interrupted ← interrupted.asBool
      return ⟨visited, armed, skipped, interrupted⟩
  | _ => none

/-- The text of a report. -/
def encode (report : Report) : String := report.toJson.render

/-- The report that a text stands for. -/
def decode? (text : String) : Option Report := (Json.read text).bind ofJson?

end Report

namespace Phase

/-- The JSON form of a phase. -/
def toJson (phase : Phase) : Json := .ofText phase.name

/-- The phase with a name. -/
def ofName? (name : String) : Option Phase :=
  if name = pre.name then some pre else if name = post.name then some post else none

/-- The phase with a JSON form. -/
def ofJson? : Json → Option Phase
  | .object [(name, .null)] => (Json.textOf name).bind ofName?
  | value => value.asText.bind ofName?

/-- The text of a phase. -/
def encode (phase : Phase) : String := phase.toJson.render

/-- The phase that a text stands for. -/
def decode? (text : String) : Option Phase := (Json.read text).bind ofJson?

end Phase

end Custody
