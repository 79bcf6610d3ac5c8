import Muster.Address.Basic

/-!
# Views

A view is a snapshot of a cluster: its members in order of seniority, a number
that grows with every change, and the coordinator.  Views made here have their
first member as coordinator and at least one member.  A view that arrives in a
frame is taken as it is.
-/

namespace Muster

open Json Text

/-- An ordered snapshot of a cluster. -/
structure View where
  viewId : UInt64
  coordinator : Address
  members : List Address
  deriving DecidableEq, Repr, Inhabited

namespace View

/-- The view over a list of members, which must not be empty. -/
def ofMembers? (viewId : UInt64) : List Address → Option View
  | [] => none
  | coordinator :: members => some ⟨viewId, coordinator, coordinator :: members⟩

def bare (view : View) : View :=
  { view with coordinator := view.coordinator.bare, members := view.members.map Address.bare }

def size (view : View) : Nat :=
  view.members.length

def isEmpty (view : View) : Bool :=
  view.members.isEmpty

def contains (view : View) (address : Address) : Bool :=
  address.isIn view.members

/-- Coordinator, number, size and members: `[A|3] (2) [A, B]`. -/
def display (view : View) : String :=
  "[" ++ view.coordinator.display ++ "|" ++ decimal view.viewId.toNat ++ "] (" ++
    decimal view.size ++ ") " ++ Address.displayAll view.members

def record : Record View where
  title := "View"
  fields :=
    .cons "viewId" .required (.scalar .u64) <|
    .cons "coordinator" .required Address.record.schema <|
    .cons "members" .required (.list Address.record.schema) .nil
  build := fun (viewId, coordinator, members, ()) => ⟨viewId, coordinator, members⟩
  split := fun view => (view.viewId, view.coordinator, view.members, ())

end View

end Muster
