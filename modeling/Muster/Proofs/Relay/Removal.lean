import Muster.Proofs.Registry.Alone
import Muster.Proofs.Relay.PassingOn

/-!
# Two ways of losing members

The end of a session takes everybody away who is reached through it, cluster by cluster.
Calling for these members to leave, cluster by cluster and by their addresses, comes to the
same: the same members stay, the same views are made, and the same clusters are retired.  It
does so in whichever order the clusters are gone through, and each order retires them, and
forgets what it retired, in its own way.

What is lost are the members that are bound to the session and no others.
-/

namespace Muster

namespace Membership

/-- The addresses of the members that are bound to a session. -/
def boundTo (membership : Membership) (session : SessionId) : List Address :=
  (membership.members.filter fun member => member.session = some session).map Member.address

/-- The membership without everybody who is bound to a session, and with the next view if
anybody is left. -/
def withoutSession (membership : Membership) (session : SessionId) : Membership :=
  let left : Membership :=
    { membership with
      members := membership.members.filter fun member => member.session ≠ some session }
  if left.isEmpty then left else left.bumped

variable {membership : Membership} {session : SessionId}

theorem boundTo_eq_nil_iff :
    membership.boundTo session = [] ↔
      ∀ member ∈ membership.members, member.session ≠ some session := by
  simp [boundTo]

@[simp] theorem members_withoutSession (membership : Membership) (session : SessionId) :
    (membership.withoutSession session).members =
      membership.members.filter fun member => member.session ≠ some session := by
  unfold withoutSession
  simp only
  split <;> rfl

theorem lastViewId_withoutSession (hsome : (membership.withoutSession session).isEmpty = false) :
    (membership.withoutSession session).lastViewId = membership.lastViewId + 1 := by
  unfold withoutSession at hsome ⊢
  simp only at hsome ⊢
  split at hsome
  next hempty =>
    rw [hempty] at hsome
    contradiction
  next hempty =>
    rw [if_neg hempty]
    rfl

theorem removeSession_eq (membership : Membership) (session : SessionId) :
    membership.removeSession session =
      (membership.boundTo session,
        { membership with
          members := membership.members.filter fun member => member.session ≠ some session }) := by
  simp only [removeSession, boundTo, List.partition_eq_filter_filter, Prod.mk.injEq, true_and,
    Membership.mk.injEq, and_true]
  apply List.filter_congr
  intro member _
  simp

theorem change?_of_isEmpty (hempty : membership.isEmpty = true) (cluster : String) :
    membership.change? cluster = none := by
  obtain ⟨members, lastViewId⟩ := membership
  obtain rfl : members = [] := List.isEmpty_iff.mp hempty
  rfl

/-- Nobody is lost, and nothing changes. -/
theorem dismissSession_of_unbound (hunbound : membership.boundTo session = [])
    (cluster : String) :
    Registry.dismissSession session cluster membership = (none, membership) := by
  have hremoved : (membership.removeSession session).1 = [] := by
    rw [removeSession_eq]
    exact hunbound
  have hstays := removeSession_of_nobody hremoved
  simp only [Registry.dismissSession, hremoved, hstays, List.isEmpty_nil, if_true]

/-- All are lost in one view step. -/
theorem dismissSession_of_bound (hbound : membership.boundTo session ≠ []) (cluster : String) :
    Registry.dismissSession session cluster membership =
      ((membership.withoutSession session).change? cluster,
        membership.withoutSession session) := by
  simp only [Registry.dismissSession, removeSession_eq, List.isEmpty_iff, hbound, if_false,
    announce_eq]
  rfl

/-- The addresses of the bound members stand for nobody else. -/
theorem Distinct.without_boundTo (hdistinct : membership.Distinct) (session : SessionId) :
    membership.without (membership.boundTo session) = membership.withoutSession session := by
  have hsame : membership.members.filter (fun member =>
        member.address.uuid ∉ (membership.boundTo session).map Address.uuid) =
      membership.members.filter fun member => member.session ≠ some session := by
    apply List.filter_congr
    intro member hmember
    rw [decide_eq_decide, not_iff_not]
    constructor
    · intro hlisted
      obtain ⟨address, haddress, hidentity⟩ := List.mem_map.mp hlisted
      obtain ⟨other, hother, rfl⟩ := List.mem_map.mp haddress
      obtain ⟨hother, hbound⟩ := List.mem_filter.mp hother
      rw [hdistinct.eq_of_uuid_eq hmember hother hidentity.symm]
      simpa using hbound
    · intro hbound
      refine List.mem_map.mpr ⟨member.address, List.mem_map.mpr ⟨member, ?_, rfl⟩, rfl⟩
      exact List.mem_filter.mpr ⟨hmember, by simpa using hbound⟩
  simp only [without, withoutSession, hsame]

theorem Distinct.dismiss_boundTo (hdistinct : membership.Distinct) (session : SessionId)
    (cluster : String) :
    ((Registry.dismiss (membership.boundTo session) cluster membership).1.change,
        (Registry.dismiss (membership.boundTo session) cluster membership).2) =
      Registry.dismissSession session cluster membership := by
  by_cases hbound : membership.boundTo session = []
  · rw [dismissSession_of_unbound hbound, hbound]
    rfl
  · obtain ⟨address, haddress⟩ := List.exists_mem_of_ne_nil _ hbound
    obtain ⟨member, hmember, rfl⟩ := List.mem_map.mp haddress
    have hidentity : member.address.uuid ∈ membership.identities :=
      List.mem_map.mpr ⟨member, (List.mem_filter.mp hmember).1, rfl⟩
    obtain ⟨hchange, hleft⟩ := hdistinct.dismiss_eq haddress hidentity cluster
    rw [hchange, hleft, hdistinct.without_boundTo, dismissSession_of_bound hbound]

end Membership

namespace Registry

/-- The addresses of the members of a cluster that are bound to a session. -/
def boundTo (registry : Registry) (session : SessionId) (cluster : String) : List Address :=
  (registry.current cluster).boundTo session

/-- Calls for some members of each cluster to leave, one cluster after the other. -/
def leaveEach (addresses : String → List Address) :
    List String → Registry → List ViewChange × Registry
  | [], registry => ([], registry)
  | cluster :: clusters, registry =>
    let (departure, registry) := registry.leaveAll cluster (addresses cluster)
    let (changes, registry) := leaveEach addresses clusters registry
    (departure.change.toList ++ changes, registry)

variable {registry : Registry} {session : SessionId}

theorem removeSessionAmong_cons (session : SessionId) (cluster : String)
    (clusters : List String) (registry : Registry) :
    removeSessionAmong session (cluster :: clusters) registry =
      let first := registry.withExisting cluster (dismissSession session cluster)
      let rest := removeSessionAmong session clusters first.2
      (first.1.join.toList ++ rest.1, rest.2) :=
  rfl

theorem leaveEach_cons (addresses : String → List Address) (cluster : String)
    (clusters : List String) (registry : Registry) :
    leaveEach addresses (cluster :: clusters) registry =
      let first := registry.leaveAll cluster (addresses cluster)
      let rest := leaveEach addresses clusters first.2
      (first.1.change.toList ++ rest.1, rest.2) :=
  rfl

theorem leaveAll_boundTo (hdistinct : registry.DistinctMembers) (session : SessionId)
    (cluster : String) :
    let first := registry.withExisting cluster (dismissSession session cluster)
    let departure := registry.leaveAll cluster (registry.boundTo session cluster)
    first.1.join = departure.1.change ∧ first.2 = departure.2 := by
  cases hfind : registry.find? cluster with
  | none => simp [withExisting, leaveAll, hfind, Departure.nothing]
  | some membership =>
      have hsame := (hdistinct _ _ hfind).dismiss_boundTo session cluster
      simp only [boundTo, current_of_find? hfind, leaveAll_of_find? hfind, withExisting, hfind,
        ← hsame, Option.join_some, and_self]

/-- What one cluster loses does not matter to the others. -/
theorem boundTo_leaveAll_of_ne {cluster other : String} (hother : other ≠ cluster)
    (addresses : List Address) :
    (registry.leaveAll cluster addresses).2.boundTo session other =
      registry.boundTo session other := by
  have hfind : (registry.perform (.leaveAll cluster addresses)).2.find? other =
      registry.find? other :=
    find?_perform_of_ne rfl hother
  have hmembers := members_current_congr hfind
  change ((registry.leaveAll cluster addresses).2.current other).members = _ at hmembers
  rw [boundTo, Membership.boundTo, hmembers]
  rfl

theorem removeSessionAmong_eq_leaveEach (hdistinct : registry.DistinctMembers)
    {clusters : List String} (hnodup : clusters.Nodup) {addresses : String → List Address}
    (haddresses : ∀ cluster ∈ clusters, addresses cluster = registry.boundTo session cluster) :
    removeSessionAmong session clusters registry = leaveEach addresses clusters registry := by
  induction clusters generalizing registry with
  | nil => rfl
  | cons cluster clusters ih =>
      obtain ⟨hfresh, hrest⟩ := List.nodup_cons.mp hnodup
      obtain ⟨hfirst, hlater⟩ := List.forall_mem_cons.mp haddresses
      obtain ⟨hchange, hregistry⟩ := leaveAll_boundTo hdistinct session cluster
      have hkept : (registry.leaveAll cluster (registry.boundTo session cluster)).2.DistinctMembers :=
        hdistinct.perform (.leaveAll cluster (registry.boundTo session cluster))
      rw [removeSessionAmong_cons, leaveEach_cons, hfirst]
      simp only [hchange, hregistry]
      rw [ih hkept hrest]
      intro other hother
      have hne : other ≠ cluster := fun hsame => hfresh (hsame ▸ hother)
      rw [hlater other hother, boundTo_leaveAll_of_ne hne]

/-! ## What becomes of one cluster -/

/-- The view changes of a list that are about one cluster. -/
def changesOf (cluster : String) (changes : List ViewChange) : List ViewChange :=
  changes.filter fun change => change.cluster = cluster

theorem changesOf_append (cluster : String) (first second : List ViewChange) :
    changesOf cluster (first ++ second) = changesOf cluster first ++ changesOf cluster second :=
  List.filter_append ..

/-- The view change that a cluster is in for when a session ends. -/
def removalChange? (registry : Registry) (session : SessionId) (cluster : String) :
    Option ViewChange :=
  (registry.find? cluster).bind fun membership => (dismissSession session cluster membership).1

theorem join_fst_withExisting (registry : Registry) (session : SessionId) (cluster : String) :
    (registry.withExisting cluster (dismissSession session cluster)).1.join =
      registry.removalChange? session cluster := by
  rw [fst_withExisting, removalChange?]
  cases registry.find? cluster <;> rfl

theorem cluster_of_removalChange? {cluster : String} {change : ViewChange}
    (hchange : registry.removalChange? session cluster = some change) :
    change.cluster = cluster := by
  obtain ⟨membership, -, hdismissed⟩ := Option.bind_eq_some_iff.mp hchange
  have hmade : change ∈
      ((Operation.removeSession session []).work cluster membership).1.announced :=
    Option.mem_toList.mpr hdismissed
  exact Operation.cluster_of_mem_announced hmade

theorem changesOf_removalChange? (registry : Registry) (session : SessionId)
    (cluster name : String) :
    changesOf cluster (registry.removalChange? session name).toList =
      if cluster = name then (registry.removalChange? session name).toList else [] := by
  cases hchange : registry.removalChange? session name with
  | none => simp [changesOf]
  | some change =>
      have hname := cluster_of_removalChange? hchange
      by_cases hsame : cluster = name
      · simp [changesOf, hname, hsame]
      · simp [changesOf, hname, hsame, Ne.symm hsame]

theorem removeSessionAmong_of_not_mem {clusters : List String} {cluster : String}
    (hcluster : cluster ∉ clusters) (session : SessionId) (registry : Registry) :
    (removeSessionAmong session clusters registry).2.find? cluster = registry.find? cluster ∧
      changesOf cluster (removeSessionAmong session clusters registry).1 = [] := by
  induction clusters generalizing registry with
  | nil => exact ⟨rfl, rfl⟩
  | cons name clusters ih =>
      rw [List.mem_cons, not_or] at hcluster
      obtain ⟨hne, hrest⟩ := hcluster
      obtain ⟨hfind, hchanges⟩ :=
        ih hrest (registry.withExisting name (dismissSession session name)).2
      rw [removeSessionAmong_cons]
      simp only [hfind, find?_withExisting_of_ne hne, changesOf_append, hchanges,
        join_fst_withExisting, changesOf_removalChange?, if_neg hne, List.append_nil, and_self]

/-- A cluster that is gone through is worked on once. -/
theorem removeSessionAmong_of_mem {clusters : List String} (hnodup : clusters.Nodup)
    {cluster : String} (hcluster : cluster ∈ clusters) (registry : Registry) :
    (removeSessionAmong session clusters registry).2.find? cluster =
        ((registry.find? cluster).map fun membership =>
          (dismissSession session cluster membership).2).filter
            (fun membership => !membership.isEmpty) ∧
      changesOf cluster (removeSessionAmong session clusters registry).1 =
        (registry.removalChange? session cluster).toList := by
  induction clusters generalizing registry with
  | nil => contradiction
  | cons name clusters ih =>
      obtain ⟨hfresh, hrest⟩ := List.nodup_cons.mp hnodup
      rw [removeSessionAmong_cons]
      by_cases hne : cluster = name
      · subst hne
        obtain ⟨hfind, hchanges⟩ := removeSessionAmong_of_not_mem hfresh session
          (registry.withExisting cluster (dismissSession session cluster)).2
        simp only [hfind, find?_withExisting_self, changesOf_append, hchanges,
          join_fst_withExisting, changesOf_removalChange?, if_true, List.append_nil, and_self]
      · obtain ⟨hfind, hchanges⟩ := ih hrest ((List.mem_cons.mp hcluster).resolve_left hne)
          (registry.withExisting name (dismissSession session name)).2
        have hsame := find?_withExisting_of_ne hne registry (dismissSession session name)
        rw [removalChange?, hsame] at hchanges
        rw [hsame] at hfind
        simp only [hfind, changesOf_append, hchanges, join_fst_withExisting,
          changesOf_removalChange?, if_neg hne, List.nil_append, true_and]
        rfl

/-! ## What a session takes away -/

/-- What the end of a session comes to. -/
structure Removal (before : Registry) (session : SessionId) (after : Registry)
    (changes : List ViewChange) : Prop where
  unbound : after.Throughout fun _ membership => membership.boundTo session = []
  /-- nobody else is lost, and those who stay keep their order and their sessions -/
  members : ∀ cluster, (after.current cluster).members =
    (before.current cluster).members.filter fun member => member.session ≠ some session
  unaffected : ∀ cluster, before.boundTo session cluster = [] →
    after.find? cluster = before.find? cluster ∧ changesOf cluster changes = []
  deserted : ∀ cluster, before.boundTo session cluster ≠ [] →
    (after.current cluster).members = [] →
      after.find? cluster = none ∧ changesOf cluster changes = []
  affected : ∀ cluster, before.boundTo session cluster ≠ [] →
    (after.current cluster).members ≠ [] →
      ∃ membership view, after.find? cluster = some membership ∧
        membership.lastViewId = (before.current cluster).lastViewId + 1 ∧
        membership.view? = some view ∧
        changesOf cluster changes = [⟨cluster, view, membership.recipients []⟩]

/-- The three things that can become of a cluster. -/
theorem removal_cases (hoccupied : registry.Occupied) (hdistinct : registry.Distinct)
    {names : List String} (hnames : names.Perm (registry.clusters.map Prod.fst))
    (session : SessionId) (cluster : String) :
    let removed := removeSessionAmong session names registry
    (registry.boundTo session cluster = [] ∧
        removed.2.find? cluster = registry.find? cluster ∧ changesOf cluster removed.1 = []) ∨
      registry.boundTo session cluster ≠ [] ∧
        let left := (registry.current cluster).withoutSession session
        (left.isEmpty = true ∧ removed.2.find? cluster = none ∧
            changesOf cluster removed.1 = []) ∨
          left.isEmpty = false ∧ removed.2.find? cluster = some left ∧
            changesOf cluster removed.1 = (left.change? cluster).toList := by
  intro removed
  have hnodup : names.Nodup := hnames.nodup_iff.mpr hdistinct
  have hlisted : cluster ∈ names ↔ registry.find? cluster ≠ none :=
    hnames.mem_iff.trans mem_names_iff
  cases hfind : registry.find? cluster with
  | none =>
      have hfresh : cluster ∉ names := fun hmem => hlisted.mp hmem hfind
      obtain ⟨hafter, hchanges⟩ := removeSessionAmong_of_not_mem hfresh session registry
      refine .inl ⟨?_, hafter.trans hfind, hchanges⟩
      rw [boundTo, current_of_find?_none hfind]
      rfl
  | some membership =>
      have hmem : cluster ∈ names := hlisted.mpr (by simp [hfind])
      obtain ⟨hafter, hchanges⟩ :=
        @removeSessionAmong_of_mem session names hnodup cluster hmem registry
      rw [removalChange?, hfind] at hchanges
      rw [hfind] at hafter
      rw [boundTo, current_of_find? hfind]
      by_cases hbound : membership.boundTo session = []
      · have hquiet := Membership.dismissSession_of_unbound hbound cluster
        refine .inl ⟨hbound, ?_, ?_⟩
        · rw [hafter, Option.map_some, hquiet]
          simp [hoccupied _ _ hfind]
        · rw [hchanges, Option.bind_some, hquiet]
          rfl
      · have htold := Membership.dismissSession_of_bound hbound cluster
        rw [Option.map_some, htold] at hafter
        rw [Option.bind_some, htold] at hchanges
        refine .inr ⟨hbound, ?_⟩
        cases hempty : (membership.withoutSession session).isEmpty with
        | true =>
            rw [Membership.change?_of_isEmpty hempty] at hchanges
            exact .inl ⟨hempty, hafter.trans (by simp [Option.filter_some, hempty]), hchanges⟩
        | false =>
            exact .inr ⟨hempty, hafter.trans (by simp [Option.filter_some, hempty]), hchanges⟩

theorem members_current_removed (hoccupied : registry.Occupied) (hdistinct : registry.Distinct)
    {names : List String} (hnames : names.Perm (registry.clusters.map Prod.fst))
    (session : SessionId) (cluster : String) :
    ((removeSessionAmong session names registry).2.current cluster).members =
      (registry.current cluster).members.filter fun member =>
        member.session ≠ some session := by
  rcases removal_cases hoccupied hdistinct hnames session cluster with
    ⟨hunbound, hsame, -⟩ | ⟨-, ⟨hempty, hnone, -⟩ | ⟨-, hleft, -⟩⟩
  · rw [members_current_congr hsame, eq_comm, List.filter_eq_self]
    simpa using Membership.boundTo_eq_nil_iff.mp hunbound
  · rw [current_of_find?_none hnone, ← Membership.members_withoutSession, List.isEmpty_iff.mp hempty]
    rfl
  · rw [current_of_find? hleft, Membership.members_withoutSession]

theorem removal_removeSessionAmong (hoccupied : registry.Occupied)
    (hdistinct : registry.Distinct) {names : List String}
    (hnames : names.Perm (registry.clusters.map Prod.fst)) (session : SessionId) :
    registry.Removal session (removeSessionAmong session names registry).2
      (removeSessionAmong session names registry).1 := by
  have hmembers := members_current_removed hoccupied hdistinct hnames session
  have hcases := removal_cases hoccupied hdistinct hnames session
  constructor
  case members => exact hmembers
  case unbound =>
    intro cluster membership hfind
    have hleft := hmembers cluster
    rw [current_of_find? hfind] at hleft
    rw [Membership.boundTo_eq_nil_iff, hleft]
    intro member hmember
    simpa using (List.mem_filter.mp hmember).2
  case unaffected =>
    intro cluster hunbound
    rcases hcases cluster with ⟨-, hsame⟩ | ⟨hbound, -⟩
    · exact hsame
    · exact absurd hunbound hbound
  case deserted =>
    intro cluster hbound hnobody
    rcases hcases cluster with ⟨hunbound, -⟩ | ⟨-, ⟨-, hgone⟩ | ⟨hsome, hleft, -⟩⟩
    · exact absurd hunbound hbound
    · exact hgone
    · rw [current_of_find? hleft] at hnobody
      rw [Membership.isEmpty, hnobody] at hsome
      contradiction
  case affected =>
    intro cluster hbound hsomebody
    rcases hcases cluster with ⟨hunbound, -⟩ | ⟨-, ⟨-, hnone, -⟩ | ⟨hsome, hleft, hchanges⟩⟩
    · exact absurd hunbound hbound
    · rw [current_of_find?_none hnone] at hsomebody
      contradiction
    · obtain ⟨view, hview⟩ := Membership.exists_view?_of_isEmpty_eq_false hsome
      refine ⟨_, view, hleft, Membership.lastViewId_withoutSession hsome, hview, ?_⟩
      rw [hchanges, Membership.change?, hview]
      rfl

/-- In whichever order the clusters are gone through, the end of a session comes to the same as
calling, in this order, for the members that are bound to it to leave.  The order of the table
itself is the one that `removeSession` takes. -/
theorem removeSession_eq_leaveEach (capacity : Nat) (history : List Operation)
    (session : SessionId) {names : List String}
    (hnames : names.Perm (((empty capacity).after history).clusters.map Prod.fst)) :
    let registry := (empty capacity).after history
    let removed := removeSessionAmong session names registry
    removed = leaveEach (registry.boundTo session) names registry ∧
      registry.Removal session removed.2 removed.1 := by
  intro registry removed
  have hdistinct : registry.Distinct := (distinct_empty capacity).after history
  have hmembers : registry.DistinctMembers := (distinctMembers_empty capacity).after history
  have hoccupied : registry.Occupied := (occupied_empty capacity).after history
  exact ⟨removeSessionAmong_eq_leaveEach hmembers (hnames.nodup_iff.mpr hdistinct)
    fun _ _ => rfl, removal_removeSessionAmong hoccupied hdistinct hnames session⟩

/-- Two clusters are deserted in one removal, and the ledger has room for one of them. -/
theorem removeSession_eq_leaveEach_twice_deserted :
    let leaver := Address.ofUuid ⟨0, 1⟩
    let stayer := Address.ofUuid ⟨0, 2⟩
    let history : List Operation :=
      [.join "a" leaver ⟨1⟩, .join "b" leaver ⟨1⟩, .join "b" stayer ⟨2⟩, .join "c" leaver ⟨1⟩]
    let registry := (empty 1).after history
    let names := ["c", "b", "a"]
    let removed := removeSessionAmong ⟨1⟩ names registry
    names.Perm (registry.clusters.map Prod.fst) ∧
      removed.1 = [⟨"b", ⟨3, stayer, [stayer]⟩, [⟨stayer, ⟨2⟩⟩]⟩] ∧
      removed.2.retired = ⟨[("a", 1)], 1, 1⟩ ∧
      removed = leaveEach (registry.boundTo ⟨1⟩) names registry ∧
      registry.Removal ⟨1⟩ removed.2 removed.1 := by
  intro leaver stayer history registry names removed
  have hnames : names.Perm (registry.clusters.map Prod.fst) := by decide
  exact ⟨hnames, by decide, by decide, removeSession_eq_leaveEach 1 history ⟨1⟩ hnames⟩

end Registry

end Muster
