import Muster.Proofs.Registry.Members
import Muster.Proofs.Registry.ViewNumbers

/-!
# Members and their sessions

A member is reached through the session it is bound to.  Two kinds of work make
such bonds: a newcomer that joins, and a registration, which rebinds a member that
is there already and lists strangers that no session reaches.  All other work
keeps the bond of everybody who stays.

A recipient remembers the bond of a member as it was when a frame was addressed.
The bond is intact as long as no operation makes another one for this identity.
-/

namespace Muster

namespace Membership

theorem mem_bind {membership : Membership} {address : Address} {session : SessionId}
    {member : Member} (hmember : member ∈ (membership.bind address session).members) :
    (member ∈ membership.members ∧ member.address.uuid ≠ address.uuid) ∨
      (member.address.uuid = address.uuid ∧ member.session = some session) := by
  unfold bind at hmember
  by_cases hcontains : membership.contains address = true
  · rw [if_pos hcontains] at hmember
    obtain ⟨old, hold, hnew⟩ := List.mem_map.mp hmember
    by_cases hsame : address.same old.address = true
    · rw [if_pos hsame] at hnew
      rw [← hnew]
      exact Or.inr ⟨(Address.same_iff.mp hsame).symm, rfl⟩
    · rw [if_neg hsame] at hnew
      rw [← hnew]
      exact Or.inl ⟨hold, fun heq => hsame (Address.same_iff.mpr heq.symm)⟩
  · rw [if_neg hcontains] at hmember
    rcases List.mem_append.mp hmember with hold | hnew
    · exact Or.inl ⟨hold, fun heq => hcontains (contains_of_mem hold heq)⟩
    · rw [List.mem_singleton.mp hnew]
      exact Or.inr ⟨rfl, rfl⟩

theorem mem_foldl_expect {bulk : List Address} {membership : Membership} {member : Member}
    (hmember : member ∈ (bulk.foldl expect membership).members) :
    member ∈ membership.members ∨
      (membership.contains member.address = false ∧ member.address ∈ bulk ∧
        member.session = none) := by
  induction bulk generalizing membership with
  | nil => exact Or.inl hmember
  | cons address bulk ih =>
      rw [List.foldl_cons] at hmember
      have hgrown : membership.identities <+: (membership.expect address).identities :=
        identities_prefix_foldl_expect [address] membership
      rcases ih hmember with hold | ⟨hstranger, hlisted, hunreached⟩
      · unfold expect at hold
        split at hold
        · exact Or.inl hold
        next hcontains =>
          rcases List.mem_append.mp hold with hold | hnew
          · exact Or.inl hold
          · rw [List.mem_singleton.mp hnew]
            exact Or.inr ⟨by simpa using hcontains, List.mem_cons_self, rfl⟩
      · refine Or.inr ⟨?_, List.mem_cons_of_mem _ hlisted, hunreached⟩
        rw [Bool.eq_false_iff] at hstranger ⊢
        exact fun hcontains => hstranger (contains_of_prefix_identities hgrown hcontains)

end Membership

/-! ## Making bonds -/

namespace Operation

/-- Whether work on the given members makes somebody a member or binds a member
anew. -/
def Brings (operation : Operation) (membership : Membership) (member : Member) : Prop :=
  match operation with
  | join _ address session =>
    membership.contains address = false ∧ member = ⟨address, some session⟩
  | registerView _ bulk address session =>
    if member.address.uuid = address.uuid then member.session = some session
    else membership.contains member.address = false ∧ member.address ∈ bulk ∧
      member.session = none
  | _ => False

theorem mem_work {operation : Operation} {cluster : String} {membership : Membership}
    {member : Member} (hmember : member ∈ (operation.work cluster membership).2.members) :
    member ∈ membership.members ∨ operation.Brings membership member := by
  cases operation with
  | join _ address session =>
      change member ∈ (Registry.enroll address session cluster membership).2.members at hmember
      unfold Registry.enroll Membership.join? at hmember
      cases hcontains : membership.contains address with
      | true =>
          simp only [hcontains, if_true] at hmember
          exact Or.inl hmember
      | false =>
          simp only [hcontains, Bool.false_eq_true, if_false, Membership.members_announce]
            at hmember
          rcases List.mem_append.mp hmember with hold | hnew
          · exact Or.inl hold
          · exact Or.inr ⟨hcontains, List.mem_singleton.mp hnew⟩
  | registerView _ bulk address session =>
      change member ∈ ((bulk.foldl Membership.expect membership).bind address session).members
        at hmember
      rcases Membership.mem_bind hmember with ⟨hexpected, hother⟩ | ⟨hsame, hsession⟩
      · rcases Membership.mem_foldl_expect hexpected with hold | hlisted
        · exact Or.inl hold
        · refine Or.inr ?_
          rw [Brings, if_neg hother]
          exact hlisted
      · refine Or.inr ?_
        rw [Brings, if_pos hsame]
        exact hsession
  | leave _ address =>
      change member ∈ (Registry.dismiss [address] cluster membership).2.members at hmember
      rw [Membership.members_dismiss] at hmember
      exact Or.inl (List.mem_filter.mp hmember).1
  | leaveAll _ addresses =>
      change member ∈ (Registry.dismiss addresses cluster membership).2.members at hmember
      rw [Membership.members_dismiss] at hmember
      exact Or.inl (List.mem_filter.mp hmember).1
  | removeSession session _ =>
      change member ∈ (Registry.dismissSession session cluster membership).2.members at hmember
      rw [Membership.members_dismissSession] at hmember
      exact Or.inl (List.mem_filter.mp hmember).1
  | getView _ | route _ | dump => exact Or.inl hmember

theorem distinct_work {membership : Membership} (hdistinct : membership.Distinct)
    (operation : Operation) (cluster : String) :
    (operation.work cluster membership).2.Distinct := by
  cases operation with
  | join _ address session =>
      change (Registry.enroll address session cluster membership).2.identities.Nodup
      rw [Membership.identities_enroll]
      split
      · exact hdistinct
      next hnew =>
        rw [← List.concat_eq_append]
        exact List.Nodup.concat hnew hdistinct
  | registerView _ bulk address session => exact hdistinct.registerView bulk address session
  | leave _ address =>
      apply hdistinct.of_members_sublist
      change (Registry.dismiss [address] cluster membership).2.members.Sublist _
      rw [Membership.members_dismiss]
      exact List.filter_sublist
  | leaveAll _ addresses =>
      apply hdistinct.of_members_sublist
      change (Registry.dismiss addresses cluster membership).2.members.Sublist _
      rw [Membership.members_dismiss]
      exact List.filter_sublist
  | removeSession session _ =>
      apply hdistinct.of_members_sublist
      change (Registry.dismissSession session cluster membership).2.members.Sublist _
      rw [Membership.members_dismissSession]
      exact List.filter_sublist
  | getView _ | route _ | dump => exact hdistinct

end Operation

/-! ## All clusters of a registry -/

namespace Registry

/-- The members that an operation on a cluster meets. -/
def current (registry : Registry) (cluster : String) : Membership :=
  (registry.find? cluster).getD (.startingFrom (registry.retired.resume cluster))

theorem current_of_find? {registry : Registry} {cluster : String} {membership : Membership}
    (hfind : registry.find? cluster = some membership) :
    registry.current cluster = membership := by
  rw [current, hfind, Option.getD_some]

theorem current_of_find?_none {registry : Registry} {cluster : String}
    (hfind : registry.find? cluster = none) :
    registry.current cluster = .startingFrom (registry.retired.resume cluster) := by
  rw [current, hfind, Option.getD_none]

theorem eq_of_find?_store_self {registry : Registry} {cluster : String}
    {stored membership : Membership}
    (hfind : (registry.store cluster stored).find? cluster = some membership) :
    membership = stored := by
  rw [find?_store_self] at hfind
  split at hfind
  · contradiction
  · exact (Option.some.inj hfind).symm

theorem perform_of_created (registry : Registry) {operation : Operation} {cluster : String}
    (hcluster : operation.cluster? = some cluster) (hcreates : operation.creates = true)
    (hfind : registry.find? cluster = none) :
    registry.perform operation =
      ((operation.work cluster (registry.current cluster)).1,
        ({ registry with retired := (registry.retired.take cluster).2 } : Registry).store cluster
          (operation.work cluster (registry.current cluster)).2) := by
  rw [perform_of_creates registry hcluster hcreates, withCluster, hfind,
    current_of_find?_none hfind]
  rfl

/-- What an operation keeps, a run of operations keeps. -/
theorem after_keeps {P : Registry → Prop}
    (hkeeps : ∀ registry operation, P registry → P (registry.perform operation).2)
    {registry : Registry} (hstart : P registry) (operations : List Operation) :
    P (registry.after operations) := by
  induction operations generalizing registry with
  | nil => exact hstart
  | cons operation operations ih => exact ih (hkeeps registry operation hstart)

/-- What storing a cluster keeps, be it one of the table or one that is taken from the ledger,
every operation keeps. -/
theorem perform_keeps_stored {P : Registry → Prop}
    (hfound : ∀ registry cluster before after, registry.find? cluster = some before →
      P registry → P (registry.store cluster after))
    (hcreated : ∀ registry cluster after, registry.find? cluster = none → P registry →
      P (({ registry with retired := (registry.retired.take cluster).2 } : Registry).store
        cluster after))
    {registry : Registry} (hstart : P registry) (operation : Operation) :
    P (registry.perform operation).2 := by
  cases hcluster : operation.cluster? with
  | some cluster =>
      cases hfind : registry.find? cluster with
      | some membership =>
          rw [perform_of_found registry hcluster hfind]
          exact hfound registry cluster membership _ hfind hstart
      | none =>
          cases hcreates : operation.creates with
          | true =>
              rw [perform_of_created registry hcluster hcreates hfind]
              exact hcreated registry cluster _ hfind hstart
          | false =>
              rw [perform_of_missing registry hcluster hcreates hfind]
              exact hstart
  | none =>
      cases operation with
      | removeSession session clusters =>
          induction clusters generalizing registry with
          | nil => exact hstart
          | cons cluster clusters ih =>
              rw [perform_removeSession_cons]
              refine ih ?_ rfl
              unfold withExisting
              split
              next membership hfind => exact hfound registry cluster membership _ hfind hstart
              · exact hstart
      | dump => exact hstart
      | _ => simp [Operation.cluster?] at hcluster

/-- What storing a cluster keeps, and what does not depend on the ledger, every operation
keeps. -/
theorem perform_keeps {P : Registry → Prop}
    (hstore : ∀ registry cluster membership, P registry → P (registry.store cluster membership))
    (hretired : ∀ registry retired, P registry → P { registry with retired := retired })
    {registry : Registry} (hstart : P registry) (operation : Operation) :
    P (registry.perform operation).2 :=
  perform_keeps_stored (fun before cluster _ after _ hbefore => hstore before cluster after hbefore)
    (fun before cluster after _ hbefore => hstore _ cluster after (hretired before _ hbefore))
    hstart operation

theorem eq_of_find?_perform_self {registry : Registry} {operation : Operation}
    {cluster : String} {membership : Membership}
    (hcluster : operation.cluster? = some cluster)
    (hfind : (registry.perform operation).2.find? cluster = some membership) :
    membership = (operation.work cluster (registry.current cluster)).2 := by
  cases hbefore : registry.find? cluster with
  | some found =>
      rw [perform_of_found registry hcluster hbefore] at hfind
      rw [current_of_find? hbefore]
      exact eq_of_find?_store_self hfind
  | none =>
      cases hcreates : operation.creates with
      | true =>
          rw [perform_of_created registry hcluster hcreates hbefore] at hfind
          exact eq_of_find?_store_self hfind
      | false =>
          rw [perform_of_missing registry hcluster hcreates hbefore, hbefore] at hfind
          contradiction

theorem find?_perform_of_ne {registry : Registry} {operation : Operation}
    {cluster other : String} (hcluster : operation.cluster? = some cluster)
    (hne : other ≠ cluster) :
    (registry.perform operation).2.find? other = registry.find? other := by
  cases hbefore : registry.find? cluster with
  | some found =>
      rw [perform_of_found registry hcluster hbefore]
      exact find?_store_of_ne registry hne _
  | none =>
      cases hcreates : operation.creates with
      | true =>
          rw [perform_of_created registry hcluster hcreates hbefore]
          exact find?_store_of_ne _ hne _
      | false => rw [perform_of_missing registry hcluster hcreates hbefore]

theorem members_current_store (registry : Registry) (cluster : String)
    (membership : Membership) :
    ((registry.store cluster membership).current cluster).members = membership.members := by
  rw [current, find?_store_self]
  split
  next hempty =>
    rw [List.isEmpty_iff.mp hempty]
    rfl
  · rfl

theorem members_current_congr {first second : Registry}
    (hfind : first.find? cluster = second.find? cluster) :
    (first.current cluster).members = (second.current cluster).members := by
  rw [current, hfind, current]
  cases second.find? cluster <;> rfl

theorem members_current_work (registry : Registry) {operation : Operation} {cluster : String}
    (hcluster : operation.cluster? = some cluster) :
    ((registry.perform operation).2.current cluster).members =
      (operation.work cluster (registry.current cluster)).2.members := by
  cases hfind : registry.find? cluster with
  | some membership =>
      rw [perform_of_found registry hcluster hfind, members_current_store,
        current_of_find? hfind]
  | none =>
      cases hcreates : operation.creates with
      | true => rw [perform_of_created registry hcluster hcreates hfind, members_current_store]
      | false =>
          -- Nobody is there, and nobody is let in.
          have hnobody : (operation.work cluster (registry.current cluster)).2.members = [] := by
            rw [List.eq_nil_iff_forall_not_mem]
            intro member hmember
            rcases Operation.mem_work hmember with hold | hbrought
            · rw [current_of_find?_none hfind] at hold
              contradiction
            · cases operation <;> first | exact hbrought | contradiction
          rw [perform_of_missing registry hcluster hcreates hfind, hnobody,
            current_of_find?_none hfind]
          rfl

theorem members_current_of_ne {registry : Registry} {operation : Operation}
    {cluster name : String} (hname : operation.cluster? = some name) (hne : cluster ≠ name) :
    ((registry.perform operation).2.current cluster).members =
      (registry.current cluster).members :=
  members_current_congr (find?_perform_of_ne hname hne)

/-- What holds of every cluster that a registry has. -/
def Throughout (registry : Registry) (P : String → Membership → Prop) : Prop :=
  ∀ cluster membership, registry.find? cluster = some membership → P cluster membership

variable {P : String → Membership → Prop}

theorem Throughout.store {registry : Registry} (hall : registry.Throughout P)
    {cluster : String} {membership : Membership} (hnew : P cluster membership) :
    (registry.store cluster membership).Throughout P := by
  intro other found hfind
  by_cases hother : other = cluster
  · subst hother
    rw [eq_of_find?_store_self hfind]
    exact hnew
  · rw [find?_store_of_ne registry hother] at hfind
    exact hall other found hfind

theorem Throughout.removeSession {registry : Registry} (hall : registry.Throughout P)
    {session : SessionId}
    (hwork : ∀ cluster membership, P cluster membership →
      P cluster (dismissSession session cluster membership).2)
    (clusters : List String) :
    (registry.perform (.removeSession session clusters)).2.Throughout P := by
  induction clusters generalizing registry with
  | nil => exact hall
  | cons cluster clusters ih =>
      rw [perform_removeSession_cons]
      apply ih
      unfold withExisting
      cases hfind : registry.find? cluster with
      | none => exact hall
      | some membership => exact hall.store (hwork cluster membership (hall cluster _ hfind))

theorem Throughout.perform {registry : Registry} (hall : registry.Throughout P)
    (hstart : ∀ cluster lastViewId, P cluster (.startingFrom lastViewId))
    {operation : Operation}
    (hwork : ∀ cluster membership, P cluster membership →
      P cluster (operation.work cluster membership).2) :
    (registry.perform operation).2.Throughout P := by
  cases hcluster : operation.cluster? with
  | some cluster =>
      intro other membership hfind
      by_cases hother : other = cluster
      · subst hother
        rw [eq_of_find?_perform_self hcluster hfind]
        apply hwork
        cases hbefore : registry.find? other with
        | some found =>
            rw [current_of_find? hbefore]
            exact hall other found hbefore
        | none =>
            rw [current_of_find?_none hbefore]
            exact hstart other _
      · rw [find?_perform_of_ne hcluster hother] at hfind
        exact hall other membership hfind
  | none =>
      cases operation with
      | removeSession session clusters => exact hall.removeSession hwork clusters
      | dump => exact hall
      | _ => simp [Operation.cluster?] at hcluster

/-- No identity stands for two members of one cluster. -/
def DistinctMembers (registry : Registry) : Prop :=
  registry.Throughout fun _ membership => membership.Distinct

theorem DistinctMembers.perform {registry : Registry} (hdistinct : registry.DistinctMembers)
    (operation : Operation) : (registry.perform operation).2.DistinctMembers :=
  Throughout.perform hdistinct (fun _ => Membership.distinct_startingFrom)
    fun cluster _ hmembers => operation.distinct_work hmembers cluster

theorem DistinctMembers.after {registry : Registry} (hdistinct : registry.DistinctMembers)
    (operations : List Operation) : (registry.after operations).DistinctMembers :=
  after_keeps (fun _ operation hbefore => hbefore.perform operation) hdistinct operations

theorem distinctMembers_empty (capacity : Nat) : (empty capacity).DistinctMembers :=
  fun _ _ hfind => by contradiction

end Registry

end Muster
