/-
# Configuration

The settings of a node.  Settings are taken as they come and checked once, in a fixed order, when
something is built from them.
-/

import Custody.Duration
import Custody.Error

namespace Custody

/-- The settings of a node. -/
structure Config where
  /-- The number of segments of the key space. -/
  segmentCount : Nat := 256
  /-- The number of owners of a segment; only the first runs its entries. -/
  numOwners : Nat := 2
  /-- How long closing a registration waits for a pass that is running. -/
  stopTimeout : Duration := Duration.ofSeconds 30
  /-- A cancellation pass that takes longer than this is slow. -/
  cancelWarnThreshold : Duration := Duration.ofSeconds 1
  /-- The name of the executor. -/
  workerName : String := "scheduler-reconciler"
deriving DecidableEq, Repr

namespace Config

/-- One setting with its value. -/
inductive Setting where
  | segmentCount (count : Nat)
  | numOwners (count : Nat)
  | stopTimeout (timeout : Duration)
  | cancelWarnThreshold (threshold : Duration)
  | workerName (name : String)
deriving Repr

/-- Replace one setting. -/
def set (config : Config) : Setting → Config
  | .segmentCount count => { config with segmentCount := count }
  | .numOwners count => { config with numOwners := count }
  | .stopTimeout timeout => { config with stopTimeout := timeout }
  | .cancelWarnThreshold threshold => { config with cancelWarnThreshold := threshold }
  | .workerName name => { config with workerName := name }

/-- The defaults with some settings replaced, later ones last. -/
def ofSettings (settings : List Setting) : Config := settings.foldl set {}

/-- Refuse settings that no node can run with, the first offence in order. -/
def validate (config : Config) : Except Error Unit :=
  if config.segmentCount = 0 then .error (.config "segment_count must be greater than 0")
  else if config.numOwners = 0 then .error (.config "num_owners must be greater than 0")
  else if config.workerName.isEmpty then .error (.config "worker_name must not be empty")
  else .ok ()

end Config

end Custody
