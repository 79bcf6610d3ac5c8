import Muster.Registry.Basic

/-!
# The operations of a registry

Everything a registry can be asked for is an operation, and everything it can
answer is a reply.  Work on a single cluster does not depend on how the cluster
was found, so `Operation.work` states it for a membership alone.  The registry
runs this work on the cluster it finds or creates, and so does every caller of a
registry that is shared by several of them.
-/

namespace Muster

/-- What a registry is asked for.  Removing a session goes through the clusters
in the order in which the table happens to list them. -/
inductive Operation
  | join (cluster : String) (address : Address) (session : SessionId)
  | registerView (cluster : String) (bulk : List Address) (address : Address)
      (session : SessionId)
  | leave (cluster : String) (address : Address)
  | leaveAll (cluster : String) (addresses : List Address)
  | removeSession (session : SessionId) (clusters : List String)
  | getView (cluster : String)
  | route (envelope : Envelope)
  | dump
  deriving DecidableEq, Repr

inductive Reply
  | joined (change : Option ViewChange)
  | registered
  | departed (departure : Departure)
  | removed (changes : List ViewChange)
  | viewed (view : Option View)
  | routed (route : Route)
  | listed (lines : String)
  deriving DecidableEq, Repr

/-- The views that an operation has made, in the order of their making. -/
def Reply.announced : Reply → List ViewChange
  | joined change => change.toList
  | departed departure => departure.change.toList
  | removed changes => changes
  | registered | viewed _ | routed _ | listed _ => []

namespace Operation

/-- The cluster that an operation is about, unless it goes through all of them. -/
def cluster? : Operation → Option String
  | join cluster _ _ => some cluster
  | registerView cluster _ _ _ => some cluster
  | leave cluster _ => some cluster
  | leaveAll cluster _ => some cluster
  | getView cluster => some cluster
  | route envelope => some envelope.cluster
  | removeSession _ _ | dump => none

def creates : Operation → Bool
  | join _ _ _ | registerView _ _ _ _ => true
  | _ => false

def fallback : Operation → Reply
  | join _ _ _ => .joined none
  | registerView _ _ _ _ => .registered
  | leave _ _ | leaveAll _ _ => .departed .nothing
  | removeSession _ _ => .removed []
  | getView _ => .viewed none
  | route _ => .routed .unknownCluster
  | dump => .listed ""

/-- What an operation does to the members of a cluster. -/
def work (operation : Operation) (cluster : String) (membership : Membership) :
    Reply × Membership :=
  match operation with
  | join _ address session =>
    let (change, membership) := Registry.enroll address session cluster membership
    (.joined change, membership)
  | registerView _ bulk address session =>
    (.registered, membership.registerView bulk address session)
  | leave _ address =>
    let (departure, membership) := Registry.dismiss [address] cluster membership
    (.departed departure, membership)
  | leaveAll _ addresses =>
    let (departure, membership) := Registry.dismiss addresses cluster membership
    (.departed departure, membership)
  | removeSession session _ =>
    let (change, membership) := Registry.dismissSession session cluster membership
    (.removed change.toList, membership)
  | getView _ => (.viewed membership.view?, membership)
  | route envelope => (.routed (Registry.direct envelope membership), membership)
  | dump => (.listed (Registry.line (cluster, membership)), membership)

@[simp] theorem announced_fallback (operation : Operation) :
    operation.fallback.announced = [] := by
  cases operation <;> rfl

end Operation

namespace Registry

def perform (registry : Registry) : Operation → Reply × Registry
  | .join cluster address session =>
    let (change, registry) := registry.join cluster address session
    (.joined change, registry)
  | .registerView cluster bulk address session =>
    (.registered, registry.registerView cluster bulk address session)
  | .leave cluster address =>
    let (departure, registry) := registry.leave cluster address
    (.departed departure, registry)
  | .leaveAll cluster addresses =>
    let (departure, registry) := registry.leaveAll cluster addresses
    (.departed departure, registry)
  | .removeSession session clusters =>
    let (changes, registry) := removeSessionAmong session clusters registry
    (.removed changes, registry)
  | .getView cluster =>
    let (view, registry) := registry.getView cluster
    (.viewed view, registry)
  | .route envelope =>
    let (route, registry) := registry.route envelope
    (.routed route, registry)
  | .dump => (.listed registry.dump, registry)

def after (registry : Registry) (operations : List Operation) : Registry :=
  operations.foldl (fun registry operation => (registry.perform operation).2) registry

/-- The views made by some operations, in the order of their making. -/
def announcements (registry : Registry) : List Operation → List ViewChange
  | [] => []
  | operation :: operations =>
    (registry.perform operation).1.announced ++
      (registry.perform operation).2.announcements operations

/-- With the table's own order of names, this is how a session is removed. -/
theorem perform_removeSession (registry : Registry) (session : SessionId) :
    registry.perform (.removeSession session (registry.clusters.map Prod.fst)) =
      (.removed (registry.removeSession session).1, (registry.removeSession session).2) := by
  rfl

@[simp] theorem after_nil (registry : Registry) : registry.after [] = registry := by
  rfl

@[simp] theorem after_cons
    (registry : Registry) (operation : Operation) (operations : List Operation) :
    registry.after (operation :: operations) =
      (registry.perform operation).2.after operations := by
  rfl

theorem after_snoc (registry : Registry) (operations : List Operation) (last : Operation) :
    registry.after (operations ++ [last]) = ((registry.after operations).perform last).2 :=
  List.foldl_append

theorem announcements_append (registry : Registry) (earlier later : List Operation) :
    registry.announcements (earlier ++ later) =
      registry.announcements earlier ++ (registry.after earlier).announcements later := by
  induction earlier generalizing registry with
  | nil => rfl
  | cons operation earlier ih =>
      rw [List.cons_append, announcements, announcements, ih, List.append_assoc, after_cons]

/-! ## Operations on one cluster -/

theorem perform_of_creates
    (registry : Registry) {operation : Operation} {cluster : String}
    (hcluster : operation.cluster? = some cluster) (hcreates : operation.creates = true) :
    registry.perform operation = registry.withCluster cluster (operation.work cluster) := by
  cases operation <;> simp [Operation.creates] at hcreates
  all_goals
    simp only [Operation.cluster?, Option.some.injEq] at hcluster
    subst hcluster
    simp only [perform, join, registerView, withCluster, Operation.work]
    split <;> rfl

theorem perform_of_existing
    (registry : Registry) {operation : Operation} {cluster : String}
    (hcluster : operation.cluster? = some cluster) (hcreates : operation.creates = false) :
    registry.perform operation =
      ((registry.withExisting cluster (operation.work cluster)).1.getD operation.fallback,
        (registry.withExisting cluster (operation.work cluster)).2) := by
  cases operation <;>
    simp [Operation.creates, Operation.cluster?] at hcreates hcluster
  all_goals
    subst hcluster
    simp only [perform, leave, leaveAll, getView, route, withExisting, Operation.work,
      Operation.fallback]
    split <;> rfl

theorem perform_of_found
    (registry : Registry) {operation : Operation} {cluster : String} {membership : Membership}
    (hcluster : operation.cluster? = some cluster)
    (hfind : registry.find? cluster = some membership) :
    registry.perform operation =
      ((operation.work cluster membership).1,
        registry.store cluster (operation.work cluster membership).2) := by
  cases hcreates : operation.creates with
  | true => rw [perform_of_creates registry hcluster hcreates, withCluster, hfind]
  | false =>
      rw [perform_of_existing registry hcluster hcreates, withExisting, hfind]
      rfl

theorem perform_of_missing
    (registry : Registry) {operation : Operation} {cluster : String}
    (hcluster : operation.cluster? = some cluster) (hcreates : operation.creates = false)
    (hfind : registry.find? cluster = none) :
    registry.perform operation = (operation.fallback, registry) := by
  rw [perform_of_existing registry hcluster hcreates, withExisting, hfind]
  rfl

/-- Removing a session is work on one cluster after the other. -/
theorem perform_removeSession_cons
    (registry : Registry) (session : SessionId) (cluster : String) (clusters : List String) :
    registry.perform (.removeSession session (cluster :: clusters)) =
      let first := registry.withExisting cluster
        ((Operation.removeSession session clusters).work cluster)
      let rest := first.2.perform (.removeSession session clusters)
      (.removed ((first.1.getD (.removed [])).announced ++ rest.1.announced), rest.2) := by
  simp only [perform, removeSessionAmong, withExisting, Operation.work]
  cases registry.find? cluster with
  | none => rfl
  | some membership => simp [Reply.announced]

end Registry

end Muster
