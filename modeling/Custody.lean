import Custody.Cluster
import Custody.Executor.Session
import Custody.Json.Codec
import Custody.Json.Grammar
import Custody.Json.Spelling
import Custody.Listener.Session
import Custody.Metrics.Exposition
import Custody.Node.Action
import Custody.Node.Session
import Custody.Notifier.Session
import Custody.Polling
import Custody.Ring
import Custody.Scheduler.Session
import Custody.Snapshot.Builder
import Custody.Transition
import Custody.Proofs.Node.Steps
import Custody.Proofs.Node.Stage
import Custody.Proofs.Node.Ownership
import Custody.Fleet
import Custody.Proofs.Node.Moves
import Custody.Proofs.Fleet
import Custody.Proofs.Scheduler.Accounts
import Custody.Proofs.Scheduler.Endings
import Custody.Proofs.Executor.Orderly
import Custody.Proofs.Scheduler.Coverage
import Custody.Proofs.Node.Coverage
import Custody.Proofs.Node.Calm
import Custody.Proofs.Node.LeftBehind
import Custody.Proofs.Executor.Begun
import Custody.Proofs.Executor.Discipline
import Custody.Proofs.Node.Sessions
import Custody.Proofs.Node.Gate
import Custody.Proofs.Scheduler.Placement
import Custody.Proofs.Executor.Rest
import Custody.Proofs.Executor.Fate
import Custody.Proofs.Executor.Supersession
import Custody.Proofs.Scheduler.Replay
import Custody.Proofs.Node.Delivery
import Custody.Proofs.Node.Regular
import Custody.Proofs.Node.Exchange
import Custody.Notifier.Course
import Custody.Notifier.Diary
import Custody.Node.Registration
import Custody.Proofs.Executor.Account
import Custody.Proofs.Executor.Service
import Custody.Proofs.Executor.Tally
import Custody.Proofs.Executor.Outliving
import Custody.Proofs.Notifier.Rounds
import Custody.Proofs.Notifier.Deliveries
import Custody.Proofs.Notifier.Sessions
import Custody.Proofs.Node.Listing
import Custody.Proofs.Node.Registration
import Custody.Proofs.Scheduler.Tally
import Custody.Ring.History
import Custody.Proofs.Ring.Points
import Custody.Proofs.Ring.Determination
import Custody.Proofs.FirstOccurrences
import Custody.Proofs.Ring.Walk
import Custody.Proofs.Snapshot.Origins
import Custody.Proofs.Ring.Movement
import Custody.Proofs.Ring.Selection
import Custody.Proofs.Scheduler.Passes
import Custody.Proofs.Scheduler.Grants
import Custody.Proofs.Handle
import Custody.Proofs.Json.Tokens
import Custody.Proofs.Json.Reading
import Custody.Proofs.Json.Writing
import Custody.Proofs.Json.Records
import Custody.Proofs.Snapshot.Decoding
import Custody.Proofs.Json.RoundTrip
import Custody.Proofs.Snapshot.Building
