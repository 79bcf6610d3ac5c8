import Muster.Proofs.Registry.Annals
import Muster.Proofs.Relay.PassingOn

/-!
# Clusters are isolated

A piece of work asks the registry for one operation at most, so that whatever a relay does, its
registry goes through a run of operations.

A request is about one cluster, and so is everything that follows from it: whoever is not
reached is evicted from this cluster, and the views of an eviction are views of this cluster,
for its members.  An operation on one cluster neither touches another one of the table nor
lowers the number of any other name.

Nobody is written to, and no session is closed, but that of the request and those that members
of the cluster are bound to when it arrives.  A request binds members to its own session only,
and nothing that follows binds anybody.
-/

namespace Muster

/-- Whether the members that are reached at all are reached through some sessions only. -/
def Membership.Within (audience : SessionId → Prop) (membership : Membership) : Prop :=
  ∀ member ∈ membership.members, ∀ session, member.session = some session → audience session

/-- Whether an operation is about one cluster, and binds members to some sessions only. -/
structure Operation.Within (audience : SessionId → Prop) (cluster : String)
    (operation : Operation) : Prop where
  cluster : operation.cluster? = some cluster
  session : ∀ session, operation.session? = some session → audience session

/-- Whether a piece of work is about one cluster, and writes to some sessions only. -/
def Work.Within (audience : SessionId → Prop) (cluster : String) : Work → Prop
  | serve session request => request.cluster? = some cluster ∧ audience session
  | reply session _ => audience session
  | push change =>
    change.cluster = cluster ∧ ∀ recipient ∈ change.recipients, audience recipient.session
  | relay envelope => envelope.cluster = cluster
  | evict name _ => name = cluster
  | close sessions => ∀ session ∈ sessions, audience session
  | forget _ => False

variable {audience : SessionId → Prop} {cluster : String}

namespace Membership

variable {membership : Membership}

theorem Within.congr {other : Membership} (hwithin : membership.Within audience)
    (hmembers : other.members = membership.members) : other.Within audience := by
  unfold Within
  rw [hmembers]
  exact hwithin

theorem Within.recipients (hwithin : membership.Within audience) (excluded : List Address) :
    ∀ recipient ∈ membership.recipients excluded, audience recipient.session := by
  intro recipient hrecipient
  obtain ⟨member, hmember, hreached⟩ := List.mem_filterMap.mp hrecipient
  obtain ⟨session, hsession, rfl⟩ := Option.map_eq_some_iff.mp hreached
  exact hwithin member (List.mem_filter.mp hmember).1 session hsession

theorem Within.direct (hwithin : membership.Within audience) (envelope : Envelope) :
    ∀ recipient ∈ (Registry.direct envelope membership).recipients,
      audience recipient.session := by
  unfold Registry.direct
  cases envelope.destination with
  | none => exact hwithin.recipients envelope.exclusions
  | some destination =>
      simp only
      cases hsession : membership.sessionOf? destination with
      | none => exact fun _ hrecipient => by contradiction
      | some session =>
          obtain ⟨member, hfind, hbound⟩ := Option.bind_eq_some_iff.mp hsession
          exact List.forall_mem_singleton.mpr
            (hwithin member (List.mem_of_find?_eq_some hfind) session hbound)

/-- Members are bound anew to the session of the operation only. -/
theorem Within.work (hwithin : membership.Within audience) {operation : Operation}
    (hoperation : operation.Within audience cluster) :
    (operation.work cluster membership).2.Within audience := by
  intro member hmember session hbound
  rcases Operation.mem_work hmember with hold | hbrought
  · exact hwithin member hold session hbound
  · cases operation with
    | join _ address own =>
        rw [hbrought.2] at hbound
        exact hoperation.session session hbound
    | registerView _ bulk address own =>
        by_cases hsame : member.address.uuid = address.uuid
        · rw [Operation.Brings, if_pos hsame] at hbrought
          exact hoperation.session session (hbrought.symm.trans hbound)
        · rw [Operation.Brings, if_neg hsame] at hbrought
          have hnone := hbrought.2.2.symm.trans hbound
          contradiction
    | _ => contradiction

end Membership

namespace Registry

variable {registry : Registry} {operation : Operation}

theorem cluster_of_mem_announced (hcluster : operation.cluster? = some cluster)
    {change : ViewChange} (hchange : change ∈ (registry.perform operation).1.announced) :
    change.cluster = cluster := by
  cases hfind : registry.find? cluster with
  | some membership =>
      rw [perform_of_found registry hcluster hfind] at hchange
      exact Operation.cluster_of_mem_announced hchange
  | none =>
      cases hcreates : operation.creates with
      | true =>
          rw [perform_of_created registry hcluster hcreates hfind] at hchange
          exact Operation.cluster_of_mem_announced hchange
      | false =>
          rw [perform_of_missing registry hcluster hcreates hfind,
            Operation.announced_fallback] at hchange
          contradiction

theorem within_current_perform (hwithin : (registry.current cluster).Within audience)
    (hoperation : operation.Within audience cluster) :
    ((registry.perform operation).2.current cluster).Within audience :=
  (hwithin.work hoperation).congr (members_current_work registry hoperation.cluster)

theorem within_push_of_announced (hwithin : (registry.current cluster).Within audience)
    (hoperation : operation.Within audience cluster) {change : ViewChange}
    (hchange : change ∈ (registry.perform operation).1.announced) :
    (Work.push change).Within audience cluster := by
  have hname := cluster_of_mem_announced hoperation.cluster hchange
  refine ⟨hname, ?_⟩
  have hafter := within_current_perform hwithin hoperation
  obtain ⟨membership, hfind, -, hrecipients⟩ := upToDate_of_mem_announced operation hchange
  rw [hname] at hfind
  rw [current_of_find? hfind] at hafter
  rw [hrecipients]
  exact hafter.recipients []

theorem within_sessions_leaveAll (hwithin : (registry.current cluster).Within audience)
    (addresses : List Address) :
    ∀ session ∈ (registry.leaveAll cluster addresses).1.sessions, audience session := by
  intro session hsession
  obtain ⟨member, hmember, hbound⟩ := List.mem_filterMap.mp hsession
  cases hfind : registry.find? cluster with
  | none =>
      simp only [leaveAll, withExisting, hfind] at hmember
      contradiction
  | some membership =>
      rw [leaveAll_of_find? hfind, Membership.departed_dismiss] at hmember
      rw [current_of_find? hfind] at hwithin
      exact hwithin member (Membership.of_mem_departed hmember).1 session hbound

theorem within_route {envelope : Envelope}
    (hwithin : (registry.current envelope.cluster).Within audience) :
    ∀ recipient ∈ (registry.route envelope).1.recipients, audience recipient.session := by
  cases hfind : registry.find? envelope.cluster with
  | none =>
      rw [route_of_find?_none hfind]
      exact fun _ hrecipient => by contradiction
  | some membership =>
      rw [current_of_find? hfind] at hwithin
      simp only [route, withExisting, hfind]
      exact hwithin.direct envelope

/-- Up to the highest number there is, an operation does not lower the number of its own
cluster. -/
theorem number_le_number_perform (hdistinct : registry.retired.Distinct)
    (hcluster : operation.cluster? = some cluster) (hnext : HasNext (registry.number cluster)) :
    registry.number cluster ≤ (registry.perform operation).2.number cluster := by
  have hraised : registry.number cluster ≤
      (operation.work cluster (registry.current cluster)).2.lastViewId := by
    rw [number_eq_current] at hnext ⊢
    have hmoves := operation.moves_work cluster (registry.current cluster)
    generalize (operation.work cluster (registry.current cluster)).1.announced = changes at hmoves
    cases hmoves with
    | quiet hsame =>
        rw [hsame]
        exact UInt64.le_refl _
    | told hbumped _ =>
        rw [hbumped]
        exact UInt64.le_of_lt hnext.lt_add_one
  cases hfind : registry.find? cluster with
  | some membership =>
      rw [current_of_find? hfind] at hraised
      rw [perform_of_found registry hcluster hfind]
      exact UInt64.le_trans hraised (le_number_store_self hdistinct cluster _)
  | none =>
      cases hcreates : operation.creates with
      | true =>
          rw [perform_of_created registry hcluster hcreates hfind]
          exact UInt64.le_trans hraised
            (le_number_store_self (hdistinct.take cluster) cluster _)
      | false =>
          rw [perform_of_missing registry hcluster hcreates hfind]
          exact UInt64.le_refl _

end Registry

namespace Sessions

theorem get_foldl_write_of_ne {writes : List Write} {id : SessionId}
    (hothers : ∀ write ∈ writes, write.session ≠ id) (sessions : Sessions) :
    (writes.foldl Sessions.write sessions).get id = sessions.get id := by
  induction writes generalizing sessions with
  | nil => rfl
  | cons write writes ih =>
      rw [List.forall_mem_cons] at hothers
      rw [List.foldl_cons, ih hothers.2, Sessions.write, get_put_send, if_neg hothers.1.symm]

end Sessions

namespace Relay

/-! ## What is asked of the registry -/

/-- What a piece of work asks the registry for. -/
def operation? (relay : Relay) : Work → Option Operation
  | .serve session (.join request) => some (.join request.cluster request.address session)
  | .serve _ (.leave request) => some (.leave request.cluster request.address)
  | .serve session (.registerView request) =>
    some (.registerView request.cluster request.view.members request.address session)
  | .serve _ (.getView request) => some (.getView request.cluster)
  | .serve _ .dump => some .dump
  | .relay envelope => some (.route envelope)
  | .evict cluster failed => some (.leaveAll cluster failed)
  | .forget session => some (.removeSession session (relay.registry.clusters.map Prod.fst))
  | .serve _ (.message _) | .reply _ _ | .push _ | .close _ => none

theorem registry_step (relay : Relay) (piece : Work) :
    (relay.step piece).relay.registry =
      relay.registry.after (relay.operation? piece).toList := by
  cases piece with
  | serve session request => cases request <;> rfl
  | relay envelope =>
      rw [step, passOn_snd]
      rfl
  | close sessions => cases sessions <;> rfl
  | _ => rfl

variable {relay : Relay} {piece : Work}

theorem within_operation (hwithin : piece.Within audience cluster) {operation : Operation}
    (hoperation : relay.operation? piece = some operation) :
    operation.Within audience cluster := by
  cases piece with
  | serve session request =>
      obtain ⟨hcluster, hsession⟩ := hwithin
      have hown (other : SessionId) (hother : some session = some other) : audience other :=
        Option.some.inj hother ▸ hsession
      cases request with
      | join | registerView =>
          obtain rfl := Option.some.inj hoperation
          exact ⟨hcluster, hown⟩
      | leave | getView =>
          obtain rfl := Option.some.inj hoperation
          exact ⟨hcluster, fun _ hnone => by contradiction⟩
      | message | dump => contradiction
  | relay | evict =>
      obtain rfl := Option.some.inj hoperation
      exact ⟨congrArg some hwithin, fun _ hnone => by contradiction⟩
  | reply | push | close | forget => contradiction

/-! ## One step -/

/-- A relay in which all that is left to do is about one cluster and for some sessions. -/
structure Confined (audience : SessionId → Prop) (cluster : String) (relay : Relay)
    (work : List Work) : Prop where
  members : (relay.registry.current cluster).Within audience
  pieces : ∀ piece ∈ work, piece.Within audience cluster

theorem within_afterDeparture {operation : Operation} {departure : Departure}
    (hmembers : (relay.registry.current cluster).Within audience)
    (hoperation : operation.Within audience cluster)
    (hannounced : (relay.registry.perform operation).1.announced = departure.change.toList)
    (hsessions : ∀ session ∈ departure.sessions, audience session) :
    ∀ next ∈ afterDeparture departure, next.Within audience cluster := by
  refine List.forall_mem_cons.mpr ⟨hsessions, ?_⟩
  intro next hnext
  rw [Option.toList_map] at hnext
  obtain ⟨change, hchange, rfl⟩ := List.mem_map.mp hnext
  exact Registry.within_push_of_announced hmembers hoperation (hannounced ▸ hchange)

/-- What follows from work within a cluster is within it as well. -/
theorem within_next (hmembers : (relay.registry.current cluster).Within audience)
    (hwithin : piece.Within audience cluster) :
    ∀ next ∈ (relay.step piece).next, next.Within audience cluster := by
  have hoperation {operation : Operation} (hasked : relay.operation? piece = some operation) :=
    within_operation hwithin hasked
  cases piece with
  | serve session request =>
      obtain ⟨hcluster, hsession⟩ := hwithin
      cases request with
      | join request =>
          intro next hnext
          change next ∈ (Option.map Work.push _).toList at hnext
          rw [Option.toList_map] at hnext
          obtain ⟨change, hchange, rfl⟩ := List.mem_map.mp hnext
          exact Registry.within_push_of_announced hmembers (hoperation rfl) hchange
      | leave request =>
          obtain rfl : request.cluster = cluster := Option.some.inj hcluster
          refine List.forall_mem_cons.mpr ⟨hsession, ?_⟩
          exact within_afterDeparture hmembers (hoperation rfl) rfl
            (Registry.within_sessions_leaveAll hmembers [request.address])
      | registerView request => exact List.forall_mem_singleton.mpr hsession
      | getView request => exact List.forall_mem_singleton.mpr hsession
      | message envelope => exact List.forall_mem_singleton.mpr (Option.some.inj hcluster)
      | dump => contradiction
  | reply session response => exact fun _ hnext => by contradiction
  | push change =>
      intro next hnext
      rw [eq_of_mem_next_spread hnext]
      exact hwithin.1
  | relay envelope =>
      intro next hnext
      rw [step, passOn_snd] at hnext
      rw [eq_of_mem_next_spread hnext]
      exact hwithin
  | evict name failed =>
      obtain rfl : name = cluster := hwithin
      exact within_afterDeparture hmembers (hoperation rfl) rfl
        (Registry.within_sessions_leaveAll hmembers failed)
  | close sessions =>
      cases sessions with
      | nil => exact fun _ hnext => by contradiction
      | cons session others =>
          exact List.forall_mem_singleton.mpr (List.forall_mem_cons.mp hwithin).2
  | forget => contradiction

theorem Confined.step {others : List Work}
    (hconfined : Confined audience cluster relay (piece :: others)) :
    Confined audience cluster (relay.step piece).relay ((relay.step piece).next ++ others) := by
  obtain ⟨hmembers, hpieces⟩ := hconfined
  rw [List.forall_mem_cons] at hpieces
  refine ⟨?_, List.forall_mem_append.mpr ⟨within_next hmembers hpieces.1, hpieces.2⟩⟩
  rw [registry_step]
  cases hasked : relay.operation? piece with
  | none => exact hmembers
  | some operation =>
      exact Registry.within_current_perform hmembers (within_operation hpieces.1 hasked)

theorem within_writes (hmembers : (relay.registry.current cluster).Within audience)
    (hwithin : piece.Within audience cluster) :
    ∀ write ∈ relay.writes piece, audience write.session := by
  cases piece with
  | reply session response => exact List.forall_mem_singleton.mpr hwithin
  | push change =>
      intro write hwrite
      obtain ⟨recipient, hrecipient, rfl⟩ := List.mem_map.mp hwrite
      exact hwithin.2 recipient hrecipient
  | relay envelope =>
      obtain rfl : envelope.cluster = cluster := hwithin
      intro write hwrite
      obtain ⟨recipient, hrecipient, rfl⟩ := List.mem_map.mp hwrite
      exact Registry.within_route hmembers recipient hrecipient
  | _ => exact fun _ hwrite => by contradiction

theorem get_step_of_not_audience (hmembers : (relay.registry.current cluster).Within audience)
    (hwithin : piece.Within audience cluster) {id : SessionId} (hid : ¬audience id) :
    (relay.step piece).relay.sessions.get id = relay.sessions.get id := by
  cases hclosing : piece.isClosing with
  | false =>
      rw [sessions_eq_foldl_write relay hclosing]
      apply Sessions.get_foldl_write_of_ne
      rintro write hwrite rfl
      exact hid (within_writes hmembers hwithin write hwrite)
  | true =>
      cases piece with
      | close sessions =>
          cases sessions with
          | nil => rfl
          | cons session others =>
              have hsession := (List.forall_mem_cons.mp hwithin).1
              simp only [step, Sessions.get_close]
              rw [if_neg]
              rintro rfl
              exact hid hsession
      | _ => contradiction

/-! ## The whole course -/

/-- What work leaves alone when it takes some steps and ends in some state. -/
structure Isolates (audience : SessionId → Prop) (cluster : String) (relay : Relay)
    (steps : List (Relay × Work)) (last : Relay) : Prop where
  /-- every other cluster has the members it had, and its number, or is still missing -/
  others : ∀ other, other ≠ cluster → last.registry.find? other = relay.registry.find? other
  /-- no other name starts from a lower number -/
  resume : ∀ other, other ≠ cluster →
    relay.registry.retired.resume other ≤ last.registry.retired.resume other
  /-- nor does the cluster itself, as long as there are higher numbers -/
  number : (∀ step ∈ steps, HasNext (step.1.registry.number cluster)) →
    relay.registry.number cluster ≤ last.registry.number cluster
  written : ∀ write ∈ Relay.written steps, audience write.session
  /-- all other sessions have received what they had and are as open as they were -/
  sessions : ∀ id, ¬audience id → last.sessions.get id = relay.sessions.get id

/-- What one piece of work within a cluster leaves alone in the registry. -/
theorem registry_step_leaves {capacity : Nat} (hwithin : piece.Within audience cluster)
    (horderly : relay.registry.retired.Orderly capacity) :
    let next := (relay.step piece).relay.registry
    next.retired.Orderly capacity ∧
      (∀ other, other ≠ cluster → next.find? other = relay.registry.find? other) ∧
      (∀ other, other ≠ cluster →
        relay.registry.retired.resume other ≤ next.retired.resume other) ∧
      (HasNext (relay.registry.number cluster) →
        relay.registry.number cluster ≤ next.number cluster) := by
  intro next
  rw [show next = _ from relay.registry_step piece]
  cases hasked : relay.operation? piece with
  | none =>
      exact ⟨horderly, fun _ _ => rfl, fun _ _ => UInt64.le_refl _, fun _ => UInt64.le_refl _⟩
  | some operation =>
      have hcluster := (within_operation hwithin hasked).cluster
      simp only [Option.toList_some, Registry.after_cons, Registry.after_nil]
      refine ⟨?_, ?_, ?_, ?_⟩
      · rw [Registry.retired_perform]
        exact horderly.foldl_book _
      · exact fun _ hother => Registry.find?_perform_of_ne hcluster hother
      · exact fun _ hother => Registry.resume_le_resume_perform horderly hcluster hother
      · exact fun hnext => Registry.number_le_number_perform horderly.distinct hcluster hnext

theorem Confined.isolates {capacity : Nat} {last : Relay} {work : List Work}
    {steps : List (Relay × Work)} (hcourse : relay.Course work steps last)
    (hconfined : Confined audience cluster relay work)
    (horderly : relay.registry.retired.Orderly capacity) :
    Isolates audience cluster relay steps last := by
  induction hcourse with
  | rest relay =>
      exact
        { others := fun _ _ => rfl
          resume := fun _ _ => UInt64.le_refl _
          number := fun _ => UInt64.le_refl _
          written := fun _ hwrite => by contradiction
          sessions := fun _ _ => rfl }
  | @step relay last piece others steps hrest ih =>
      have hwithin := hconfined.pieces piece List.mem_cons_self
      obtain ⟨hnext, hothers, hresume, hnumber⟩ := registry_step_leaves hwithin horderly
      have hlater := ih hconfined.step hnext
      refine ⟨?_, ?_, ?_, ?_, ?_⟩
      · exact fun other hother => (hlater.others other hother).trans (hothers other hother)
      · exact fun other hother =>
          UInt64.le_trans (hresume other hother) (hlater.resume other hother)
      · intro hhigher
        rw [List.forall_mem_cons] at hhigher
        exact UInt64.le_trans (hnumber hhigher.1) (hlater.number hhigher.2)
      · rw [written_cons]
        exact List.forall_mem_append.mpr
          ⟨within_writes hconfined.members hwithin, hlater.written⟩
      · exact fun id hid => (hlater.sessions id hid).trans
          (get_step_of_not_audience hconfined.members hwithin hid)

/-- However the other ends behave, all that comes of a request leaves every other cluster as
it is, lowers the number of no name that is not in the table, and writes to nobody but the
session of the request and those that members of the cluster are bound to. -/
theorem clusters_isolated (capacity : Nat) (history : List Operation) (sessions : Sessions)
    (session : SessionId) {request : Request} (hcluster : request.cluster? = some cluster) :
    let relay : Relay := ⟨(Registry.empty capacity).after history, sessions⟩
    let last := (relay.finish [.serve session request]).1
    let audience (id : SessionId) : Prop :=
      id = session ∨ ∃ member ∈ (relay.registry.current cluster).members,
        member.session = some id
    ∃ steps, relay.Course [.serve session request] steps last ∧
      Isolates audience cluster relay steps last := by
  intro relay last audience
  obtain ⟨steps, hcourse⟩ := relay.exists_course [.serve session request]
  refine ⟨steps, hcourse, Confined.isolates hcourse ⟨?_, ?_⟩ (Registry.orderly_after _ history)⟩
  · exact fun member hmember id hbound => .inr ⟨member, hmember, hbound⟩
  · exact List.forall_mem_singleton.mpr ⟨hcluster, .inl rfl⟩

/-- The member that stays cannot be told and is evicted, which retires the cluster.  That makes
the ledger forget another name, and the session that is closed stays bound elsewhere. -/
theorem clusters_isolated_deserted :
    let leaver := Address.ofUuid ⟨0, 1⟩
    let stayer := Address.ofUuid ⟨0, 2⟩
    let history : List Operation :=
      [.join "c" stayer ⟨2⟩, .leave "c" stayer, .join "a" leaver ⟨1⟩, .join "a" stayer ⟨2⟩,
        .join "b" stayer ⟨2⟩]
    let broken := (Session.fresh ⟨2⟩).withFates fun _ => .broken
    let relay : Relay := ⟨(Registry.empty 1).after history, ⟨[Session.fresh ⟨1⟩, broken]⟩⟩
    let request : Request := .leave ⟨"a", leaver⟩
    let last := (relay.finish [.serve ⟨1⟩ request]).1
    let audience (id : SessionId) : Prop :=
      id = ⟨1⟩ ∨ ∃ member ∈ (relay.registry.current "a").members, member.session = some id
    request.cluster? = some "a" ∧
      relay.registry.retired = ⟨[("c", 1)], 0, 1⟩ ∧
      last.registry = ⟨[("b", ⟨[⟨stayer, some ⟨2⟩⟩], 1⟩)], ⟨[("a", 3)], 1, 1⟩⟩ ∧
      ∃ steps, relay.Course [.serve ⟨1⟩ request] steps last ∧
        Isolates audience "a" relay steps last := by
  intro leaver stayer history broken relay request last audience
  exact ⟨rfl, by decide, by decide, clusters_isolated 1 history _ ⟨1⟩ rfl⟩

end Relay

end Muster
