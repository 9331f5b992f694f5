/-
# The entry store

The store keeps entries with their deadlines, whether they are armed anywhere or not.  A scheduling
pass asks it for the entries under a locality.  The store can be paused, and then an enumeration
that has begun waits; it can be told to fail, and then the next enumeration that goes on fails.
What an enumeration lists is what is stored when it goes on, not when it began.
-/

import Custody.Scheduler.Pass

namespace Custody

/-- Entries with their deadlines, and the controls of their enumeration. -/
structure Store (K : Type) where
  /-- The entries, each of them once. -/
  entries : List (Candidate K) := []
  /-- Why the next enumeration fails, if it does. -/
  failure : Option String := none
  /-- Whether enumerations wait. -/
  paused : Bool := false
  /-- The number of enumerations that have begun. -/
  enumerations : Nat := 0

namespace Store

variable {K : Type}

/-- The number of entries. -/
def size (store : Store K) : Nat := store.entries.length

/-- An enumeration begins. -/
def beginEnumeration (store : Store K) : Store K :=
  { store with enumerations := store.enumerations + 1 }

/-- An enumeration goes on and lists the entries under a locality, unless it is to fail. -/
def answer (store : Store K) (locality : SegmentLocality K) :
    Except Error (List (Item K)) × Store K :=
  match store.failure with
  | some detail => (.error (.enumeration detail), { store with failure := none })
  | none =>
      (.ok ((store.entries.filter fun entry => locality.owns entry.id).map .ok), store)

/-- Let the next enumeration fail. -/
def failNext (store : Store K) (detail : String) : Store K :=
  { store with failure := some detail }

/-- Let enumerations wait, or go on. -/
def setPaused (store : Store K) (paused : Bool) : Store K := { store with paused := paused }

/-- The structural text of a store. -/
def structuralText (store : Store K) : String :=
  Text.record "InMemoryEntrySource"
    [("entries", toString store.size), ("enumerations", toString store.enumerations)]

variable [DecidableEq K]

/-- Whether an entry is stored. -/
def contains (store : Store K) (id : K) : Bool := store.entries.any fun entry => entry.id = id

/-- Store an entry, in place of what was stored for it before. -/
def insert (store : Store K) (id : K) (deadline : Instant) : Store K :=
  { store with
    entries := (store.entries.filter fun entry => entry.id ≠ id) ++ [⟨id, deadline⟩] }

/-- Remove an entry, if it is stored. -/
def remove (store : Store K) (id : K) : Bool × Store K :=
  (store.contains id, { store with entries := store.entries.filter fun entry => entry.id ≠ id })

end Store

end Custody
