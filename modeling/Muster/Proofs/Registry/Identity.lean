import Muster.Proofs.Registry.Binding

/-!
# Only the identity decides

Taking name, site and coordinator flag from all addresses turns a registry into a bare one, an
operation into a bare operation and its answer into a bare answer.  Every function of a
membership and of the registry commutes with this, because it compares addresses by their
identities only.  So two runs of operations that become the same bare operations go through the
same bare registries and give the same bare answers.

The listing shows the names, so nothing but its being a listing is left of a bare one.
-/

namespace Muster

@[simp] theorem Address.same_bare (a b : Address) : a.bare.same b.bare = a.same b := by
  rfl

@[simp] theorem Address.isIn_map_bare (address : Address) (addresses : List Address) :
    address.bare.isIn (addresses.map Address.bare) = address.isIn addresses := by
  rw [isIn, List.any_map]
  rfl

def Member.bare (member : Member) : Member :=
  { member with address := member.address.bare }

def Recipient.bare (recipient : Recipient) : Recipient :=
  { recipient with address := recipient.address.bare }

/-! ## A membership -/

namespace Membership

def bare (membership : Membership) : Membership :=
  { membership with members := membership.members.map Member.bare }

/-- Who the members are, in their order, and how they are reached. -/
def roster (membership : Membership) : List (Uuid × Option SessionId) :=
  membership.members.map fun member => (member.address.uuid, member.session)

variable (membership : Membership)

@[simp] theorem roster_bare : membership.bare.roster = membership.roster := by
  rw [roster, bare, List.map_map]
  rfl

@[simp] theorem isEmpty_bare : membership.bare.isEmpty = membership.isEmpty :=
  List.isEmpty_map

@[simp] theorem addresses_bare :
    membership.bare.addresses = membership.addresses.map Address.bare := by
  simp only [addresses, bare, List.map_map]
  rfl

@[simp] theorem find?_bare (address : Address) :
    membership.bare.find? address.bare = (membership.find? address).map Member.bare := by
  rw [find?, bare, List.find?_map]
  rfl

@[simp] theorem contains_bare (address : Address) :
    membership.bare.contains address.bare = membership.contains address := by
  rw [contains, find?_bare, Option.isSome_map]
  rfl

@[simp] theorem sessionOf?_bare (address : Address) :
    membership.bare.sessionOf? address.bare = membership.sessionOf? address := by
  rw [sessionOf?, find?_bare, Option.bind_map]
  rfl

theorem add_bare (member : Member) :
    membership.bare.add member.bare = (membership.add member).bare := by
  simp only [add, bare, List.map_append, List.map_singleton]

theorem join?_bare (address : Address) (session : SessionId) :
    membership.bare.join? address.bare session =
      (membership.join? address session).map bare := by
  rw [join?, join?, contains_bare]
  split
  · rfl
  · exact congrArg some (membership.add_bare ⟨address, some session⟩)

theorem expect_bare (address : Address) :
    membership.bare.expect address.bare = (membership.expect address).bare := by
  rw [expect, expect, contains_bare]
  split
  · rfl
  · exact membership.add_bare ⟨address, none⟩

theorem foldl_expect_bare (bulk : List Address) :
    (bulk.map Address.bare).foldl expect membership.bare = (bulk.foldl expect membership).bare := by
  induction bulk generalizing membership with
  | nil => rfl
  | cons address bulk ih => rw [List.map_cons, List.foldl_cons, expect_bare, ih, List.foldl_cons]

theorem bind_bare (address : Address) (session : SessionId) :
    membership.bare.bind address.bare session = (membership.bind address session).bare := by
  rw [bind, bind, contains_bare]
  split
  · simp only [bare, List.map_map, mk.injEq, and_true]
    refine List.map_congr_left fun member _ => ?_
    simp only [Function.comp_apply, Member.bare, Address.same_bare]
    split <;> rfl
  · exact membership.add_bare ⟨address, some session⟩

theorem registerView_bare (bulk : List Address) (address : Address) (session : SessionId) :
    membership.bare.registerView (bulk.map Address.bare) address.bare session =
      (membership.registerView bulk address session).bare := by
  rw [registerView, foldl_expect_bare, bind_bare, registerView]

theorem leave_bare (address : Address) :
    membership.bare.leave address.bare =
      Prod.map (Option.map Member.bare) bare (membership.leave address) := by
  simp only [leave, find?_bare, Prod.map_apply, Prod.mk.injEq, true_and]
  simp only [bare, List.filter_map, mk.injEq, and_true]
  rfl

theorem leaveAll_bare (addresses : List Address) :
    membership.bare.leaveAll (addresses.map Address.bare) =
      Prod.map (List.map Member.bare) bare (membership.leaveAll addresses) := by
  induction addresses generalizing membership with
  | nil => rfl
  | cons address addresses ih =>
      simp only [List.map_cons, leaveAll, leave_bare, Prod.map_fst, Prod.map_snd, ih,
        Prod.map_apply, List.map_append, Option.toList_map]

theorem removeSession_bare (session : SessionId) :
    membership.bare.removeSession session =
      Prod.map (List.map Address.bare) bare (membership.removeSession session) := by
  simp only [removeSession, bare, List.partition_eq_filter_filter, List.filter_map, List.map_map,
    Prod.map_apply]
  rfl

theorem view?_bare : membership.bare.view? = membership.view?.map View.bare := by
  rw [view?, view?, addresses_bare]
  cases membership.addresses <;> rfl

theorem nextView_bare :
    membership.bare.nextView = Prod.map (Option.map View.bare) bare membership.nextView := by
  rw [nextView, nextView, isEmpty_bare]
  split
  · rfl
  · exact congrArg (·, membership.bumped.bare) membership.bumped.view?_bare

theorem recipients_bare (excluded : List Address) :
    membership.bare.recipients (excluded.map Address.bare) =
      (membership.recipients excluded).map Recipient.bare := by
  simp only [recipients, bare, List.filter_map, List.filterMap_map, List.map_filterMap]
  congr 1
  · funext member
    simp only [Function.comp_apply, Member.recipient?, Option.map_map]
    rfl
  · refine List.filter_congr fun member _ => ?_
    exact congrArg not (member.address.isIn_map_bare excluded)

end Membership

/-! ## The registry -/

def ViewChange.bare (change : ViewChange) : ViewChange :=
  { change with
    view := change.view.bare
    recipients := change.recipients.map Recipient.bare }

def Departure.bare (departure : Departure) : Departure :=
  ⟨departure.departed.map Member.bare, departure.change.map ViewChange.bare⟩

def Route.bare : Route → Route
  | unknownCluster => unknownCluster
  | unknownDestination destination => unknownDestination destination.bare
  | unicast recipient => unicast recipient.bare
  | multicast recipients => multicast (recipients.map Recipient.bare)

def Operation.bare : Operation → Operation
  | join cluster address session => join cluster address.bare session
  | registerView cluster bulk address session =>
    registerView cluster (bulk.map Address.bare) address.bare session
  | leave cluster address => leave cluster address.bare
  | leaveAll cluster addresses => leaveAll cluster (addresses.map Address.bare)
  | removeSession session clusters => removeSession session clusters
  | getView cluster => getView cluster
  | route envelope => route envelope.bare
  | dump => dump

def Reply.bare : Reply → Reply
  | joined change => joined (change.map ViewChange.bare)
  | registered => registered
  | departed departure => departed departure.bare
  | removed changes => removed (changes.map ViewChange.bare)
  | viewed view => viewed (view.map View.bare)
  | routed route => routed route.bare
  | listed _ => listed ""

namespace Registry

def bare (registry : Registry) : Registry :=
  { registry with clusters := registry.clusters.map (Prod.map id Membership.bare) }

theorem announce_bare (cluster : String) (membership : Membership) :
    announce cluster membership.bare =
      Prod.map (Option.map ViewChange.bare) Membership.bare (announce cluster membership) := by
  simp only [announce, Membership.nextView_bare, Prod.map_apply, Prod.map_fst, Prod.map_snd,
    Option.map_map, Prod.mk.injEq, and_true]
  congr 1
  funext view
  exact congrArg (ViewChange.mk cluster view.bare) (Membership.recipients_bare _ [])

theorem enroll_bare (address : Address) (session : SessionId) (cluster : String)
    (membership : Membership) :
    enroll address.bare session cluster membership.bare =
      Prod.map (Option.map ViewChange.bare) Membership.bare
        (enroll address session cluster membership) := by
  rw [enroll, enroll, Membership.join?_bare]
  cases membership.join? address session with
  | none => rfl
  | some membership => exact announce_bare cluster membership

theorem dismiss_bare (addresses : List Address) (cluster : String) (membership : Membership) :
    dismiss (addresses.map Address.bare) cluster membership.bare =
      Prod.map Departure.bare Membership.bare (dismiss addresses cluster membership) := by
  simp only [dismiss, Membership.leaveAll_bare, Prod.map_fst, Prod.map_snd, List.isEmpty_map,
    announce_bare]
  split <;> rfl

theorem dismissSession_bare (session : SessionId) (cluster : String) (membership : Membership) :
    dismissSession session cluster membership.bare =
      Prod.map (Option.map ViewChange.bare) Membership.bare
        (dismissSession session cluster membership) := by
  simp only [dismissSession, Membership.removeSession_bare, Prod.map_fst, Prod.map_snd,
    List.isEmpty_map, announce_bare]
  split <;> rfl

theorem direct_bare (envelope : Envelope) (membership : Membership) :
    direct envelope.bare membership.bare = (direct envelope membership).bare := by
  have hexclusions : envelope.bare.exclusions = envelope.exclusions.map Address.bare := by
    cases hcorrelation : envelope.correlation <;>
      simp [Envelope.exclusions, Envelope.bare, hcorrelation, CorrelationHeader.bare]
  have hdestination : envelope.bare.destination = envelope.destination.map Address.bare := rfl
  rw [direct, direct, hdestination, hexclusions]
  cases envelope.destination with
  | none => exact congrArg Route.multicast (membership.recipients_bare envelope.exclusions)
  | some destination =>
      simp only [Option.map_some, Membership.sessionOf?_bare]
      cases membership.sessionOf? destination <;> rfl

variable (registry : Registry)

@[simp] theorem names_bare :
    registry.bare.clusters.map Prod.fst = registry.clusters.map Prod.fst := by
  rw [bare, List.map_map]
  rfl

@[simp] theorem find?_bare (cluster : String) :
    registry.bare.find? cluster = (registry.find? cluster).map Membership.bare := by
  simp only [find?, bare]
  induction registry.clusters with
  | nil => rfl
  | cons entry clusters ih =>
      obtain ⟨name, membership⟩ := entry
      simp only [List.map_cons, Prod.map_apply, id_eq, List.lookup_cons]
      split <;> simp_all

@[simp] theorem current_bare (cluster : String) :
    registry.bare.current cluster = (registry.current cluster).bare := by
  rw [current, current, find?_bare]
  cases registry.find? cluster <;> rfl

theorem replace_bare (cluster : String) (membership : Membership)
    (clusters : List (String × Membership)) :
    replace cluster membership.bare (clusters.map (Prod.map id Membership.bare)) =
      (replace cluster membership clusters).map (Prod.map id Membership.bare) := by
  induction clusters with
  | nil => rfl
  | cons entry clusters ih =>
      simp only [List.map_cons, replace, Prod.map_fst, Prod.map_snd, id_eq, ih]
      split <;> rfl

theorem store_bare (cluster : String) (membership : Membership) :
    registry.bare.store cluster membership.bare = (registry.store cluster membership).bare := by
  rw [store, store, Membership.isEmpty_bare]
  split
  · refine congrArg (Registry.mk · _) ?_
    simp only [bare, List.filter_map]
    rfl
  · exact congrArg (Registry.mk · registry.retired) (replace_bare cluster membership _)

end Registry

namespace Operation

@[simp] theorem cluster?_bare (operation : Operation) :
    operation.bare.cluster? = operation.cluster? := by
  cases operation <;> rfl

@[simp] theorem creates_bare (operation : Operation) :
    operation.bare.creates = operation.creates := by
  cases operation <;> rfl

@[simp] theorem fallback_bare (operation : Operation) :
    operation.bare.fallback = operation.fallback.bare := by
  cases operation <;> rfl

theorem bare_eq_dump_iff {operation : Operation} : operation.bare = dump ↔ operation = dump := by
  cases operation <;> simp [bare]

/-- But for the line that it shows of a cluster, an operation does the same to a bare one. -/
theorem work_bare {operation : Operation} (hdecides : operation ≠ dump) (cluster : String)
    (membership : Membership) :
    operation.bare.work cluster membership.bare =
      Prod.map Reply.bare Membership.bare (operation.work cluster membership) := by
  cases operation with
  | join _ address session =>
      simp only [bare, work, Registry.enroll_bare]
      rfl
  | registerView _ bulk address session =>
      simp only [bare, work, Membership.registerView_bare]
      rfl
  | leave _ address =>
      have hdismiss := Registry.dismiss_bare [address] cluster membership
      simp only [List.map_singleton] at hdismiss
      simp only [bare, work, hdismiss]
      rfl
  | leaveAll _ addresses =>
      simp only [bare, work, Registry.dismiss_bare]
      rfl
  | removeSession session _ =>
      simp only [bare, work, Registry.dismissSession_bare, Prod.map_fst, Prod.map_snd,
        Option.toList_map]
      rfl
  | getView _ =>
      simp only [bare, work, Membership.view?_bare]
      rfl
  | route envelope =>
      simp only [bare, work, Registry.direct_bare]
      rfl
  | dump => contradiction

end Operation

namespace Registry

theorem removeSessionAmong_bare (session : SessionId) (clusters : List String)
    (registry : Registry) :
    removeSessionAmong session clusters registry.bare =
      Prod.map (List.map ViewChange.bare) bare
        (removeSessionAmong session clusters registry) := by
  induction clusters generalizing registry with
  | nil => rfl
  | cons cluster clusters ih =>
      simp only [removeSessionAmong, withExisting, find?_bare]
      cases registry.find? cluster with
      | none => exact ih registry
      | some membership =>
          simp only [Option.map_some, dismissSession_bare, Prod.map_fst, Prod.map_snd, store_bare,
            ih, Option.join_some, Option.toList_map, Prod.map_apply, List.map_append]

theorem perform_bare_of_cluster (registry : Registry) {operation : Operation} {cluster : String}
    (hcluster : operation.cluster? = some cluster) (hdecides : operation ≠ .dump) :
    registry.bare.perform operation.bare =
      Prod.map Reply.bare bare (registry.perform operation) := by
  have hsame : operation.bare.cluster? = some cluster :=
    operation.cluster?_bare.trans hcluster
  have hbare := registry.find?_bare cluster
  cases hfind : registry.find? cluster with
  | some membership =>
      rw [hfind, Option.map_some] at hbare
      rw [perform_of_found registry hcluster hfind, perform_of_found registry.bare hsame hbare,
        Operation.work_bare hdecides, Prod.map_snd, store_bare]
      rfl
  | none =>
      rw [hfind, Option.map_none] at hbare
      cases hcreates : operation.creates with
      | true =>
          have hstore := store_bare { registry with retired := (registry.retired.take cluster).2 }
            cluster (operation.work cluster (registry.current cluster)).2
          rw [perform_of_created registry hcluster hcreates hfind,
            perform_of_created registry.bare hsame (operation.creates_bare.trans hcreates) hbare,
            current_bare, Operation.work_bare hdecides]
          exact congrArg (Prod.mk _) hstore
      | false =>
          rw [perform_of_missing registry hcluster hcreates hfind,
            perform_of_missing registry.bare hsame (operation.creates_bare.trans hcreates) hbare,
            operation.fallback_bare]
          rfl

/-- One operation on a bare registry is the operation itself, but for the names it shows. -/
theorem perform_bare (registry : Registry) {operation : Operation} (hdecides : operation ≠ .dump) :
    registry.bare.perform operation.bare =
      Prod.map Reply.bare bare (registry.perform operation) := by
  cases operation with
  | removeSession session clusters =>
      simp only [Operation.bare, perform, removeSessionAmong_bare]
      rfl
  | dump => contradiction
  | _ => exact registry.perform_bare_of_cluster rfl hdecides

/-! ## Two runs -/

variable {one other : Registry}

/-- Registries and operations that differ in names and the like only give answers, and become
registries, that differ in these only. -/
theorem bare_perform_congr {operation renamed : Operation} (hregistry : one.bare = other.bare)
    (hoperation : operation.bare = renamed.bare) :
    (one.perform operation).1.bare = (other.perform renamed).1.bare ∧
      (one.perform operation).2.bare = (other.perform renamed).2.bare := by
  -- The names in a listing differ, so bare answers are compared and not those of bare registries.
  by_cases hdump : operation = .dump
  · have hrenamed : renamed = .dump :=
      Operation.bare_eq_dump_iff.mp (hoperation ▸ Operation.bare_eq_dump_iff.mpr hdump)
    rw [hdump, hrenamed]
    exact ⟨rfl, hregistry⟩
  · have hrenamed : renamed ≠ .dump := fun hrenamed =>
      hdump (Operation.bare_eq_dump_iff.mp
        (hoperation.trans (Operation.bare_eq_dump_iff.mpr hrenamed)))
    have hsame := (one.perform_bare hdump).symm.trans
      ((congrArg₂ perform hregistry hoperation).trans (other.perform_bare hrenamed))
    exact Prod.mk.inj hsame

/-- What each of some operations is answered, and what the registry is after it. -/
def trace (registry : Registry) : List Operation → List (Reply × Registry)
  | [] => []
  | operation :: operations =>
    registry.perform operation :: (registry.perform operation).2.trace operations

/-- Two answers, with the registries after them, that agree but for names and the like. -/
structure SameDecisions (one other : Reply × Registry) : Prop where
  /-- the same members let in and removed, the same views for the same recipients, the same
  routes -/
  reply : one.1.bare = other.1.bare
  /-- the same clusters live and retired -/
  clusters : one.2.clusters.map Prod.fst = other.2.clusters.map Prod.fst
  /-- the same members in the same order, reached through the same sessions -/
  roster : ∀ cluster, (one.2.current cluster).roster = (other.2.current cluster).roster
  lastViewId : ∀ cluster, (one.2.current cluster).lastViewId = (other.2.current cluster).lastViewId
  retired : one.2.retired = other.2.retired

theorem sameDecisions_of_bare_eq {one other : Reply × Registry} (hreply : one.1.bare = other.1.bare)
    (hregistry : one.2.bare = other.2.bare) : SameDecisions one other := by
  have hcurrent (cluster : String) :
      (one.2.current cluster).bare = (other.2.current cluster).bare := by
    rw [← current_bare, hregistry, current_bare]
  constructor
  case reply => exact hreply
  case clusters => rw [← names_bare one.2, hregistry, names_bare]
  case roster =>
    intro cluster
    rw [← Membership.roster_bare, hcurrent, Membership.roster_bare]
  case lastViewId =>
    intro cluster
    have hlast := congrArg Membership.lastViewId (hcurrent cluster)
    exact hlast
  case retired =>
    have hretired := congrArg retired hregistry
    exact hretired

theorem sameDecisions_trace {history renamed : List Operation} (hregistry : one.bare = other.bare)
    (halike : history.map Operation.bare = renamed.map Operation.bare) :
    List.Forall₂ SameDecisions (one.trace history) (other.trace renamed) := by
  induction history generalizing one other renamed with
  | nil =>
      obtain rfl := List.map_eq_nil_iff.mp halike.symm
      exact .nil
  | cons operation history ih =>
      obtain ⟨first, rest, rfl, hfirst, hrest⟩ := List.map_eq_cons_iff.mp halike.symm
      obtain ⟨hreply, hafter⟩ := bare_perform_congr hregistry hfirst.symm
      exact .cons (sameDecisions_of_bare_eq hreply hafter) (ih hafter hrest.symm)

/-- Two histories whose addresses have the same identities are taken for the same at every step,
whatever the names, sites and coordinator flags in them are. -/
theorem identity_decides (capacity : Nat) {history renamed : List Operation}
    (halike : history.map Operation.bare = renamed.map Operation.bare) :
    List.Forall₂ SameDecisions ((empty capacity).trace history)
      ((empty capacity).trace renamed) :=
  sameDecisions_trace rfl halike

/-- A member joins under one name, is expected and excluded under another one, and leaves
under a third. -/
theorem identity_decides_renamed :
    let first := Address.ofUuid ⟨0, 1⟩
    let second := Address.ofUuid ⟨0, 2⟩
    let multicast (excluded : Address) : Envelope :=
      ⟨"a", some first, none, [], some ⟨0, 0, 0, [excluded]⟩, none⟩
    let history : List Operation :=
      [.join "a" first ⟨1⟩, .registerView "a" [first, second] second ⟨2⟩,
        .route (multicast first), .leave "a" first, .dump, .removeSession ⟨2⟩ ["a"]]
    let renamed : List Operation :=
      [.join "a" (first.withName "one") ⟨1⟩,
        .registerView "a" [first.withName "two", second.withSite "site" true] second ⟨2⟩,
        .route (multicast (first.withSite "site" false)), .leave "a" (first.withName "three"),
        .dump, .removeSession ⟨2⟩ ["a"]]
    history.map Operation.bare = renamed.map Operation.bare ∧
      (empty 1).trace history ≠ (empty 1).trace renamed ∧
      List.Forall₂ SameDecisions ((empty 1).trace history) ((empty 1).trace renamed) := by
  intro first second multicast history renamed
  have halike : history.map Operation.bare = renamed.map Operation.bare := by decide
  exact ⟨halike, by decide, identity_decides 1 halike⟩

end Registry

end Muster
