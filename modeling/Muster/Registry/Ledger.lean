/-!
# The ledger of retired clusters

A cluster that comes back goes on counting its views where it stopped.  The
ledger remembers the latest view number of each cluster that is gone, the
oldest first, up to its capacity.  What it forgets raises its floor, and
clusters without an entry count from there, so that numbers may skip ahead but
never repeat.
-/

namespace Muster

/-- The latest view numbers of retired clusters. -/
structure Ledger where
  /-- names with numbers, the oldest first -/
  entries : List (String × UInt64)
  /-- the highest number that was forgotten -/
  floor : UInt64
  /-- how many names are remembered -/
  capacity : Nat
  deriving DecidableEq, Repr

namespace Ledger

/-- How many names are remembered unless stated otherwise. -/
def defaultCapacity : Nat := 10000

/-- Remembers nothing yet.  At least one name can always be remembered. -/
def empty (capacity : Nat) : Ledger :=
  ⟨[], 0, max capacity 1⟩

def size (ledger : Ledger) : Nat :=
  ledger.entries.length

def without (ledger : Ledger) (name : String) : List (String × UInt64) :=
  ledger.entries.filter fun entry => entry.1 ≠ name

/-- The number that a cluster of this name goes on from. -/
def resume (ledger : Ledger) (name : String) : UInt64 :=
  (ledger.entries.lookup name).getD ledger.floor

def take (ledger : Ledger) (name : String) : UInt64 × Ledger :=
  (ledger.resume name, { ledger with entries := ledger.without name })

/-- Forgets the oldest entries beyond the capacity. -/
def trim (ledger : Ledger) : Ledger :=
  let excess := ledger.size - ledger.capacity
  { ledger with
    entries := ledger.entries.drop excess
    floor := (ledger.entries.take excess).foldl (fun floor entry => max floor entry.2)
      ledger.floor }

/-- Notes the latest number of a cluster that is gone. -/
def record (ledger : Ledger) (name : String) (lastViewId : UInt64) : Ledger :=
  trim { ledger with entries := ledger.without name ++ [(name, lastViewId)] }

end Ledger

end Muster
