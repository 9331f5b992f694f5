/-
# Exposition of metrics

The text under which metrics are exported: for each series a line of help, a line with its type and
one line for each of its values.  Timers are exported as a sum of seconds and a count.
-/

import Custody.Decimal.Shortest
import Custody.Metrics.Basic

namespace Custody

/-- The exported name of a series and its line of help. -/
structure SeriesName where
  name : String
  help : String

namespace SeriesName

/-- The two lines that introduce a series. -/
def header (series : SeriesName) (kind : String) : String :=
  "# HELP " ++ series.name ++ " " ++ series.help ++ "\n"
    ++ "# TYPE " ++ series.name ++ " " ++ kind ++ "\n"

end SeriesName

/-- The exported name of a counter. -/
def Counter.series : Counter → SeriesName
  | armed => ⟨"scheduler_entries_armed_total", "Entries armed"⟩
  | cancelled => ⟨"scheduler_entries_cancelled_total", "Entries disarmed by cancellation"⟩
  | fired => ⟨"scheduler_entries_fired_total", "Entries fired"⟩
  | notOwned =>
      ⟨"scheduler_schedule_not_owned_total", "Schedule calls for entries owned elsewhere"⟩
  | duplicate =>
      ⟨"scheduler_schedule_duplicate_total", "Schedule calls for already armed entries"⟩
  | submitted => ⟨"scheduler_schedule_passes_total", "Scheduling passes submitted"⟩
  | superseded =>
      ⟨"scheduler_schedule_passes_superseded_total",
        "Scheduling passes cancelled before completion"⟩
  | failed => ⟨"scheduler_schedule_passes_failed_total", "Scheduling passes failed"⟩
  | slow =>
      ⟨"scheduler_slow_cancel_passes_total", "Cancellation passes over the warn threshold"⟩

/-- The exported name of a level. -/
def Gauge.series : Gauge → SeriesName
  | armedNow => ⟨"scheduler_armed_entries", "Currently armed entries"⟩
  | ownedSegments => ⟨"scheduler_owned_segments", "Owned segments"⟩
  | abandoned =>
      ⟨"scheduler_abandoned_passes", "Superseded scheduling passes still enumerating"⟩

/-- The text of a series with one value. -/
def expositionOfValue (series : SeriesName) (kind value : String) : String :=
  series.header kind ++ series.name ++ " " ++ value ++ "\n"

/-- The text of a timer: the seconds of all passes and their number. -/
def expositionOfTimes (series : SeriesName) (times : PassTimes) : String :=
  series.header "summary" ++ series.name ++ "_sum " ++ Decimal.shortest times.total.seconds ++ "\n"
    ++ series.name ++ "_count " ++ toString times.count ++ "\n"

/-- The text of the failure counts, one line for each kind. -/
def expositionOfFailures (series : SeriesName) (counts : FailureCounts) : String :=
  series.header "counter" ++ String.join (counts.entries.map fun (kind, count) =>
    series.name ++ "\x7bkind=\"" ++ kind ++ "\"\x7d " ++ toString count ++ "\n")

/-- The exported text of all metrics. -/
def Metrics.exposition (metrics : Metrics) : String :=
  String.join (Counter.all.map fun counter =>
      expositionOfValue counter.series "counter" (toString (counter.get metrics)))
    ++ String.join (Gauge.all.map fun gauge =>
      expositionOfValue gauge.series "gauge" (toString (gauge.get metrics)))
    ++ expositionOfTimes ⟨"scheduler_cancel_pass_seconds", "Cancellation pass duration"⟩
      metrics.transitions.cancelPasses.times
    ++ expositionOfTimes ⟨"scheduler_schedule_pass_seconds", "Completed scheduling pass duration"⟩
      metrics.passes.completed.times
    ++ expositionOfFailures ⟨"scheduler_errors_total", "Errors by kind"⟩ metrics.passes.failures

end Custody
