import Muster.Session.Basic
import Muster.View

/-!
# Membership of a cluster

The members of one cluster in the order they entered, each with the session it
is reached through, and the number of the latest view.  A member that is known
only from a view of somebody else has no session.  Members are told apart by
their identities alone, and the address of a member stays the one it entered
with.
-/

namespace Muster

/-- A member of a cluster. -/
structure Member where
  address : Address
  /-- how the member is reached, if it is connected to this relay -/
  session : Option SessionId
  deriving DecidableEq, Repr

/-- Somebody to write to. -/
structure Recipient where
  address : Address
  session : SessionId
  deriving DecidableEq, Repr

/-- The recipient that a member is, if it can be reached. -/
def Member.recipient? (member : Member) : Option Recipient :=
  member.session.map fun session => ⟨member.address, session⟩

/-- The members of a cluster. -/
structure Membership where
  members : List Member
  /-- the number of the latest view, zero before the first one -/
  lastViewId : UInt64
  deriving DecidableEq, Repr

namespace Membership

/-- Nobody, with views numbered from the one after `lastViewId`. -/
def startingFrom (lastViewId : UInt64) : Membership :=
  ⟨[], lastViewId⟩

def size (membership : Membership) : Nat :=
  membership.members.length

def isEmpty (membership : Membership) : Bool :=
  membership.members.isEmpty

/-- The addresses in order of seniority. -/
def addresses (membership : Membership) : List Address :=
  membership.members.map Member.address

def find? (membership : Membership) (address : Address) : Option Member :=
  membership.members.find? fun member => address.same member.address

def contains (membership : Membership) (address : Address) : Bool :=
  (membership.find? address).isSome

def sessionOf? (membership : Membership) (address : Address) : Option SessionId :=
  (membership.find? address).bind Member.session

/-- The membership with one more member at the end. -/
def add (membership : Membership) (member : Member) : Membership :=
  { membership with members := membership.members ++ [member] }

/-- Lets a newcomer in.  `none` if it is a member already. -/
def join? (membership : Membership) (address : Address) (session : SessionId) :
    Option Membership :=
  if membership.contains address then none
  else some (membership.add ⟨address, some session⟩)

/-- Adds an address that is not a member yet, without a session. -/
def expect (membership : Membership) (address : Address) : Membership :=
  if membership.contains address then membership else membership.add ⟨address, none⟩

/-- Reaches a member through a session from now on. -/
def bind (membership : Membership) (address : Address) (session : SessionId) : Membership :=
  if membership.contains address then
    { membership with
      members := membership.members.map fun member =>
        if address.same member.address then { member with session := some session } else member }
  else membership.add ⟨address, some session⟩

/-- Adds the members of a view known elsewhere, and the one that brings it. -/
def registerView (membership : Membership) (bulk : List Address) (address : Address)
    (session : SessionId) : Membership :=
  (bulk.foldl expect membership).bind address session

/-- Removes a member.  The others keep their order. -/
def leave (membership : Membership) (address : Address) : Option Member × Membership :=
  (membership.find? address,
    { membership with
      members := membership.members.filter fun member => !address.same member.address })

/-- Removes several members, one after the other. -/
def leaveAll (membership : Membership) : List Address → List Member × Membership
  | [] => ([], membership)
  | address :: addresses =>
    let (member?, membership) := membership.leave address
    let (departed, membership) := membership.leaveAll addresses
    (member?.toList ++ departed, membership)

/-- Removes everybody who is reached through a session. -/
def removeSession (membership : Membership) (session : SessionId) : List Address × Membership :=
  let (gone, staying) := membership.members.partition fun member => member.session = some session
  (gone.map Member.address, { membership with members := staying })

def view? (membership : Membership) : Option View :=
  View.ofMembers? membership.lastViewId membership.addresses

/-- The membership with the number of its latest view raised by one. -/
def bumped (membership : Membership) : Membership :=
  { membership with lastViewId := membership.lastViewId + 1 }

/-- The next view.  No number is used up while there are no members. -/
def nextView (membership : Membership) : Option View × Membership :=
  if membership.isEmpty then (none, membership)
  else (membership.bumped.view?, membership.bumped)

/-- The members that can be reached and are not among the excluded ones. -/
def recipients (membership : Membership) (excluded : List Address) : List Recipient :=
  (membership.members.filter fun member => !member.address.isIn excluded).filterMap
    Member.recipient?

end Membership

end Muster
