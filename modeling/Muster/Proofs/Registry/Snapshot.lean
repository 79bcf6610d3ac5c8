import Muster.Proofs.Registry.Binding

/-!
# Snapshots of recipients

A frame is addressed while a cluster is worked on and written afterwards.  The
recipients it is addressed to are a snapshot: at that moment each of them is bound
to the session it was found with, and no two of them are the same member.  From
then on the snapshot ages, and the bond of a recipient is intact for as long as
nobody lets its identity in, or registers it, over another session.
-/

namespace Muster

namespace Membership

/-- Whether a recipient, as far as it is a member, is reached through the session
of the snapshot. -/
def Bound (membership : Membership) (recipient : Recipient) : Prop :=
  ∀ member ∈ membership.members, member.address.uuid = recipient.address.uuid →
    member.session = some recipient.session

theorem Distinct.bound {membership : Membership} (hdistinct : membership.Distinct)
    {member : Member} {recipient : Recipient} (hmember : member ∈ membership.members)
    (hsame : member.address.uuid = recipient.address.uuid)
    (hsession : member.session = some recipient.session) : membership.Bound recipient := by
  intro other hother hidentity
  have heq : other = member :=
    hdistinct.eq_of_uuid_eq hother hmember (hidentity.trans hsame.symm)
  rw [heq]
  exact hsession

theorem identities_recipients_sublist (members : List Member) :
    ((members.filterMap Member.recipient?).map fun recipient =>
      recipient.address.uuid).Sublist (members.map fun member => member.address.uuid) := by
  induction members with
  | nil => exact List.Sublist.refl _
  | cons member members ih =>
      rw [List.map_cons]
      cases hsession : member.session with
      | none =>
          have hunreached : member.recipient? = none := by rw [Member.recipient?, hsession]; rfl
          rw [List.filterMap_cons_none hunreached]
          exact ih.cons _
      | some session =>
          have hreached : member.recipient? = some ⟨member.address, session⟩ := by
            rw [Member.recipient?, hsession]
            rfl
          rw [List.filterMap_cons_some hreached, List.map_cons]
          exact ih.cons_cons _

theorem Distinct.nodup_recipients {membership : Membership} (hdistinct : membership.Distinct)
    (excluded : List Address) :
    ((membership.recipients excluded).map fun recipient => recipient.address.uuid).Nodup :=
  hdistinct.sublist
    ((identities_recipients_sublist _).trans (List.filter_sublist.map _))

theorem Distinct.bound_of_mem_recipients {membership : Membership}
    (hdistinct : membership.Distinct) {excluded : List Address} {recipient : Recipient}
    (hrecipient : recipient ∈ membership.recipients excluded) : membership.Bound recipient := by
  obtain ⟨member, hmember, hreached⟩ := List.mem_filterMap.mp hrecipient
  obtain ⟨session, hsession, rfl⟩ := Option.map_eq_some_iff.mp hreached
  exact hdistinct.bound (List.mem_filter.mp hmember).1 rfl hsession

theorem Distinct.bound_of_sessionOf? {membership : Membership}
    (hdistinct : membership.Distinct) {address : Address} {session : SessionId}
    (hsession : membership.sessionOf? address = some session) :
    membership.Bound ⟨address, session⟩ := by
  obtain ⟨member, hfind, hbound⟩ := Option.bind_eq_some_iff.mp hsession
  have hsame : address.same member.address = true := by
    simpa using List.find?_some hfind
  exact hdistinct.bound (List.mem_of_find?_eq_some hfind)
    (Address.same_iff.mp hsame).symm hbound

end Membership

namespace Registry

/-- Whether a recipient, as far as it is a member of a cluster, is reached through
the session of the snapshot. -/
def Bound (registry : Registry) (cluster : String) (recipient : Recipient) : Prop :=
  ∀ membership, registry.find? cluster = some membership → membership.Bound recipient

/-- Whether an operation lets nobody in, and binds nobody anew, who would pass for
a recipient but is not reached through its session. -/
def Spares (registry : Registry) (cluster : String) (recipient : Recipient)
    (operation : Operation) : Prop :=
  operation.cluster? = some cluster →
    ∀ member, operation.Brings (registry.current cluster) member →
      member.address.uuid = recipient.address.uuid → member.session = some recipient.session

def SparesAll (registry : Registry) (cluster : String) (recipient : Recipient) :
    List Operation → Prop
  | [] => True
  | operation :: operations =>
    registry.Spares cluster recipient operation ∧
      (registry.perform operation).2.SparesAll cluster recipient operations

theorem Bound.removeSession {registry : Registry} {cluster : String} {recipient : Recipient}
    (hbound : registry.Bound cluster recipient) (session : SessionId)
    (clusters : List String) :
    (registry.perform (.removeSession session clusters)).2.Bound cluster recipient := by
  have hall : registry.Throughout fun name membership =>
      name = cluster → membership.Bound recipient := by
    intro name membership hfind hname
    exact hbound membership (hname ▸ hfind)
  intro membership hfind
  refine hall.removeSession ?_ clusters cluster membership hfind rfl
  intro name before hbefore hname member hmember
  rw [Membership.members_dismissSession] at hmember
  exact hbefore hname member (List.mem_filter.mp hmember).1

theorem Bound.perform {registry : Registry} {cluster : String} {recipient : Recipient}
    (hbound : registry.Bound cluster recipient) {operation : Operation}
    (hspared : registry.Spares cluster recipient operation) :
    (registry.perform operation).2.Bound cluster recipient := by
  cases hcluster : operation.cluster? with
  | some name =>
      intro membership hfind
      by_cases hname : cluster = name
      · subst hname
        rw [eq_of_find?_perform_self hcluster hfind]
        intro member hmember hsame
        rcases Operation.mem_work hmember with hold | hbrought
        · cases hbefore : registry.find? cluster with
          | some found =>
              rw [current_of_find? hbefore] at hold
              exact hbound found hbefore member hold hsame
          | none =>
              rw [current_of_find?_none hbefore] at hold
              contradiction
        · exact hspared hcluster member hbrought hsame
      · rw [find?_perform_of_ne hcluster hname] at hfind
        exact hbound membership hfind
  | none =>
      cases operation with
      | removeSession session clusters => exact hbound.removeSession session clusters
      | dump => exact hbound
      | _ => simp [Operation.cluster?] at hcluster

theorem Bound.after {registry : Registry} {cluster : String} {recipient : Recipient}
    (hbound : registry.Bound cluster recipient) {operations : List Operation}
    (hspared : registry.SparesAll cluster recipient operations) :
    (registry.after operations).Bound cluster recipient := by
  induction operations generalizing registry with
  | nil => exact hbound
  | cons operation operations ih => exact ih (hbound.perform hspared.1) hspared.2

/-! ## What is sent after an operation -/

structure Snapshot (registry : Registry) (cluster : String) (recipients : List Recipient) :
    Prop where
  bound : ∀ recipient ∈ recipients, registry.Bound cluster recipient
  distinct : (recipients.map fun recipient => recipient.address.uuid).Nodup

end Registry

/-- To whom something is written after an operation: an envelope that was routed,
or the views that were made. -/
def Operation.deliveries (operation : Operation) (reply : Reply) :
    List (String × List Recipient) :=
  match operation, reply with
  | .route envelope, .routed found => [(envelope.cluster, found.recipients)]
  | _, reply => reply.announced.map fun change => (change.cluster, change.recipients)

namespace Registry

theorem snapshot_nil (registry : Registry) (cluster : String) :
    registry.Snapshot cluster [] where
  bound := fun _ hrecipient => by contradiction
  distinct := List.nodup_nil

theorem Snapshot.of_recipients {registry : Registry} {cluster : String}
    {membership : Membership} (hdistinct : membership.Distinct)
    (hstored : ∀ found, registry.find? cluster = some found → found = membership)
    (excluded : List Address) :
    registry.Snapshot cluster (membership.recipients excluded) where
  bound := by
    intro recipient hrecipient found hfind
    rw [hstored found hfind]
    exact hdistinct.bound_of_mem_recipients hrecipient
  distinct := hdistinct.nodup_recipients excluded

theorem Snapshot.of_route {registry : Registry} {envelope : Envelope}
    {membership : Membership} (hdistinct : membership.Distinct)
    (hstored : ∀ found, registry.find? envelope.cluster = some found → found = membership) :
    registry.Snapshot envelope.cluster (direct envelope membership).recipients := by
  unfold direct
  cases envelope.destination with
  | none => exact .of_recipients hdistinct hstored envelope.exclusions
  | some destination =>
      cases hsession : membership.sessionOf? destination with
      | none =>
          simp only [hsession]
          exact snapshot_nil registry envelope.cluster
      | some session =>
          simp only [hsession]
          refine ⟨?_, List.nodup_singleton _⟩
          intro recipient hrecipient found hfind
          rw [List.mem_singleton.mp hrecipient, hstored found hfind]
          exact hdistinct.bound_of_sessionOf? hsession

/-- A view is addressed to the members as they are once the work is done. -/
theorem Snapshot.of_announced {registry : Registry} {operation : Operation}
    {cluster : String} {membership : Membership} (hdistinct : membership.Distinct)
    (hstored : ∀ found, registry.find? cluster = some found →
      found = (operation.work cluster membership).2)
    {change : ViewChange} (hchange : change ∈ (operation.work cluster membership).1.announced) :
    registry.Snapshot change.cluster change.recipients := by
  have hdone := operation.distinct_work hdistinct cluster
  have hmoves := operation.moves_work cluster membership
  generalize (operation.work cluster membership).1.announced = changes at hmoves hchange
  cases hmoves with
  | quiet => contradiction
  | told =>
      rw [List.mem_singleton.mp hchange]
      exact .of_recipients hdone hstored []

theorem Snapshot.of_work {registry : Registry} {operation : Operation} {cluster : String}
    {membership : Membership} (hcluster : operation.cluster? = some cluster)
    (hdistinct : membership.Distinct)
    (hstored : ∀ found, registry.find? cluster = some found →
      found = (operation.work cluster membership).2)
    {delivery : String × List Recipient}
    (hdelivery : delivery ∈ operation.deliveries (operation.work cluster membership).1) :
    registry.Snapshot delivery.1 delivery.2 := by
  cases operation with
  | route envelope =>
      obtain rfl : envelope.cluster = cluster := by
        simpa [Operation.cluster?] using hcluster
      rw [List.mem_singleton.mp hdelivery]
      exact .of_route hdistinct hstored
  | _ =>
      obtain ⟨change, hchange, rfl⟩ := List.mem_map.mp hdelivery
      exact .of_announced hdistinct hstored hchange

/-- The clusters that come later in a removal do not let anybody in, so that the
recipients in the earlier ones stay as they were found. -/
theorem Snapshot.of_removeSession {registry : Registry} (hdistinct : registry.DistinctMembers)
    (session : SessionId) (clusters : List String) {change : ViewChange}
    (hchange :
      change ∈ (registry.perform (.removeSession session clusters)).1.announced) :
    (registry.perform (.removeSession session clusters)).2.Snapshot
      change.cluster change.recipients := by
  induction clusters generalizing registry with
  | nil => contradiction
  | cons cluster clusters ih =>
      rw [perform_removeSession_cons] at hchange ⊢
      cases hfind : registry.find? cluster with
      | none =>
          simp only [withExisting, hfind] at hchange ⊢
          exact ih hdistinct hchange
      | some membership =>
          simp only [withExisting, hfind, Option.getD_some] at hchange ⊢
          have hmembers : membership.Distinct := hdistinct cluster membership hfind
          rcases List.mem_append.mp hchange with hfirst | hrest
          · have hsnapshot := Snapshot.of_announced hmembers
              (fun _ hstored => @eq_of_find?_store_self registry cluster _ _ hstored) hfirst
            exact ⟨fun recipient hrecipient =>
              (hsnapshot.bound recipient hrecipient).removeSession session clusters,
              hsnapshot.distinct⟩
          · exact ih (Throughout.store hdistinct
              (Operation.distinct_work hmembers _ cluster)) hrest

theorem snapshot_of_mem_deliveries {registry : Registry}
    (hdistinct : registry.DistinctMembers) {operation : Operation}
    {delivery : String × List Recipient}
    (hdelivery : delivery ∈ operation.deliveries (registry.perform operation).1) :
    (registry.perform operation).2.Snapshot delivery.1 delivery.2 := by
  cases hcluster : operation.cluster? with
  | some cluster =>
      cases hfind : registry.find? cluster with
      | some membership =>
          rw [perform_of_found registry hcluster hfind] at hdelivery ⊢
          exact .of_work hcluster (hdistinct cluster membership hfind)
            (fun _ hstored => eq_of_find?_store_self hstored) hdelivery
      | none =>
          cases hcreates : operation.creates with
          | true =>
              rw [perform_of_created registry hcluster hcreates hfind,
                current_of_find?_none hfind] at hdelivery ⊢
              exact .of_work hcluster (Membership.distinct_startingFrom _)
                (fun _ hstored => eq_of_find?_store_self hstored) hdelivery
          | false =>
              rw [perform_of_missing registry hcluster hcreates hfind] at hdelivery ⊢
              cases operation with
              | route envelope =>
                  rw [List.mem_singleton.mp hdelivery]
                  exact snapshot_nil registry envelope.cluster
              | _ =>
                  obtain ⟨change, hchange, rfl⟩ := List.mem_map.mp hdelivery
                  rw [Operation.announced_fallback] at hchange
                  contradiction
  | none =>
      cases operation with
      | removeSession session clusters =>
          obtain ⟨change, hchange, rfl⟩ := List.mem_map.mp hdelivery
          exact .of_removeSession hdistinct session clusters hchange
      | dump => contradiction
      | _ => simp [Operation.cluster?] at hcluster

end Registry

end Muster
