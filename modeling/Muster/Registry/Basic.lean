import Muster.Membership
import Muster.Message.Envelope
import Muster.Registry.Ledger
import Muster.Total

/-!
# The registry

All clusters known to one relay.  A cluster appears with its first member and
is retired, its latest view number noted in the ledger, as soon as its last
member leaves.  Every operation that changes who belongs to a cluster also
makes the next view, together with the recipients as they are at that moment.
-/

namespace Muster

open Text

/-- A new view and whom it must reach. -/
structure ViewChange where
  cluster : String
  view : View
  recipients : List Recipient
  deriving DecidableEq, Repr

/-- What a departure comes to. -/
structure Departure where
  /-- the members that were removed -/
  departed : List Member
  /-- the view of those that remain -/
  change : Option ViewChange
  deriving DecidableEq, Repr

namespace Departure

def nothing : Departure := ⟨[], none⟩

def sessions (departure : Departure) : List SessionId :=
  departure.departed.filterMap Member.session

end Departure

/-- Where an envelope goes. -/
inductive Route
  | unknownCluster
  /-- the destination is no member, or cannot be reached -/
  | unknownDestination (destination : Address)
  | unicast (recipient : Recipient)
  | multicast (recipients : List Recipient)
  deriving DecidableEq, Repr

def Route.recipients : Route → List Recipient
  | unknownCluster => []
  | unknownDestination _ => []
  | unicast recipient => [recipient]
  | multicast recipients => recipients

/-- The clusters of a relay. -/
structure Registry where
  /-- the live clusters by name -/
  clusters : List (String × Membership)
  retired : Ledger
  deriving DecidableEq, Repr

namespace Registry

/-- No clusters, with a ledger of the given capacity. -/
def empty (capacity : Nat) : Registry :=
  ⟨[], .empty capacity⟩

def size (registry : Registry) : Nat :=
  registry.clusters.length

def population (registry : Registry) : Nat :=
  total (registry.clusters.map fun entry => entry.2.size)

def find? (registry : Registry) (cluster : String) : Option Membership :=
  registry.clusters.lookup cluster

def contains (registry : Registry) (cluster : String) : Bool :=
  (registry.find? cluster).isSome

/-- The table with the membership of one cluster replaced or added. -/
def replace (cluster : String) (membership : Membership) :
    List (String × Membership) → List (String × Membership)
  | [] => [(cluster, membership)]
  | (name, other) :: clusters =>
    if name = cluster then (cluster, membership) :: clusters
    else (name, other) :: replace cluster membership clusters

/-- Notes the membership of a cluster.  An empty cluster is retired. -/
def store (registry : Registry) (cluster : String) (membership : Membership) : Registry :=
  if membership.isEmpty then
    { clusters := registry.clusters.filter fun entry => entry.1 ≠ cluster
      retired := registry.retired.record cluster membership.lastViewId }
  else { registry with clusters := replace cluster membership registry.clusters }

/-- Works on a cluster, which is created if it does not exist. -/
def withCluster {α : Type} (registry : Registry) (cluster : String)
    (work : Membership → α × Membership) : α × Registry :=
  match registry.find? cluster with
  | some membership =>
    let (result, membership) := work membership
    (result, registry.store cluster membership)
  | none =>
    let (lastViewId, retired) := registry.retired.take cluster
    let (result, membership) := work (.startingFrom lastViewId)
    (result, { registry with retired }.store cluster membership)

def withExisting {α : Type} (registry : Registry) (cluster : String)
    (work : Membership → α × Membership) : Option α × Registry :=
  match registry.find? cluster with
  | some membership =>
    let (result, membership) := work membership
    (some result, registry.store cluster membership)
  | none => (none, registry)

/-- The next view of a membership and whom it must reach. -/
def announce (cluster : String) (membership : Membership) : Option ViewChange × Membership :=
  let (view?, membership) := membership.nextView
  (view?.map fun view => ⟨cluster, view, membership.recipients []⟩, membership)

/-- Lets a newcomer in and announces it.  A member that joins again changes
nothing. -/
def enroll (address : Address) (session : SessionId) (cluster : String) (membership : Membership) :
    Option ViewChange × Membership :=
  match membership.join? address session with
  | none => (none, membership)
  | some membership => announce cluster membership

/-- Removes several members and announces it to the others.  If none of them
was a member nothing changes. -/
def dismiss (addresses : List Address) (cluster : String) (membership : Membership) :
    Departure × Membership :=
  let (departed, membership) := membership.leaveAll addresses
  if departed.isEmpty then (.nothing, membership)
  else
    let (change, membership) := announce cluster membership
    (⟨departed, change⟩, membership)

/-- Removes everybody who is reached through a session and announces it to the
others. -/
def dismissSession (session : SessionId) (cluster : String) (membership : Membership) :
    Option ViewChange × Membership :=
  let (removed, membership) := membership.removeSession session
  if removed.isEmpty then (none, membership) else announce cluster membership

/-- Where an envelope goes from a cluster with the given members. -/
def direct (envelope : Envelope) (membership : Membership) : Route :=
  match envelope.destination with
  | some destination =>
    match membership.sessionOf? destination with
    | some session => .unicast ⟨destination, session⟩
    | none => .unknownDestination destination
  | none => .multicast (membership.recipients envelope.exclusions)

/-- Lets a newcomer into a cluster, and says whom to tell. -/
def join (registry : Registry) (cluster : String) (address : Address) (session : SessionId) :
    Option ViewChange × Registry :=
  registry.withCluster cluster (enroll address session cluster)

/-- Seeds a cluster with a view known elsewhere.  No view is made. -/
def registerView (registry : Registry) (cluster : String) (bulk : List Address) (address : Address)
    (session : SessionId) : Registry :=
  (registry.withCluster cluster fun membership =>
    ((), membership.registerView bulk address session)).2

/-- Removes several members at once and makes one view for the others. -/
def leaveAll (registry : Registry) (cluster : String) (addresses : List Address) :
    Departure × Registry :=
  let (departure?, registry) := registry.withExisting cluster (dismiss addresses cluster)
  (departure?.getD .nothing, registry)

def leave (registry : Registry) (cluster : String) (address : Address) : Departure × Registry :=
  registry.leaveAll cluster [address]

/-- Removes everybody who is reached through a session from the clusters with
the given names. -/
def removeSessionAmong (session : SessionId) : List String → Registry → List ViewChange × Registry
  | [], registry => ([], registry)
  | cluster :: clusters, registry =>
    let (change?, registry) := registry.withExisting cluster (dismissSession session cluster)
    let (changes, registry) := removeSessionAmong session clusters registry
    (change?.join.toList ++ changes, registry)

/-- Removes everybody who is reached through a session, cluster by cluster. -/
def removeSession (registry : Registry) (session : SessionId) : List ViewChange × Registry :=
  removeSessionAmong session (registry.clusters.map Prod.fst) registry

def getView (registry : Registry) (cluster : String) : Option View × Registry :=
  let (view?, registry) := registry.withExisting cluster fun membership =>
    (membership.view?, membership)
  (view?.join, registry)

def route (registry : Registry) (envelope : Envelope) : Route × Registry :=
  let (route?, registry) := registry.withExisting envelope.cluster fun membership =>
    (direct envelope membership, membership)
  (route?.getD .unknownCluster, registry)

def line (entry : String × Membership) : String :=
  entry.1 ++ ": " ++ Address.displayAll entry.2.addresses ++ "\n"

/-- A listing of all clusters in the order of their names. -/
def dump (registry : Registry) : String :=
  "members:\n" ++
    joined "" ((registry.clusters.mergeSort fun a b => a.1 ≤ b.1).map line)

end Registry

end Muster
