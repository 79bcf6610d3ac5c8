import Muster.Proofs.Registry.Snapshot
import Muster.Relay.Work

/-!
# Evicting recipients

A recipient to whom a write fails is treated as having left.  The write fails for
a session, but the departure is carried out for an address, and the registry is
free to change between the two.  An eviction therefore hits the member that goes
by this address now, whichever session it is reached through.

What decides is the bond.  If every failed recipient that is still a member is
bound to the session of the failed write, the eviction hits nobody else, and if
one of them is not, somebody is removed who has done nothing wrong.  Bonds last
as long as nobody joins or registers under the same identity over another session.
-/

namespace Muster

namespace Membership

theorem of_mem_departed {addresses : List Address} {membership : Membership} {member : Member}
    (hmember : member ∈ (membership.leaveAll addresses).1) :
    member ∈ membership.members ∧ member.address.isIn addresses = true := by
  induction addresses generalizing membership with
  | nil => contradiction
  | cons address addresses ih =>
      rw [Address.isIn_iff]
      rcases List.mem_append.mp hmember with hfirst | hrest
      · have hfind : membership.find? address = some member := Option.mem_toList.mp hfirst
        have hsame : address.same member.address = true := by
          simpa using List.find?_some hfind
        exact ⟨List.mem_of_find?_eq_some hfind, address, List.mem_cons_self,
          (Address.same_iff.mp hsame).symm⟩
      · obtain ⟨hstaying, hlisted⟩ := ih hrest
        obtain ⟨other, hother, hsame⟩ := Address.isIn_iff.mp hlisted
        exact ⟨(List.mem_filter.mp hstaying).1, other, List.mem_cons_of_mem _ hother, hsame⟩

/-- A departure takes along one member for every address, so that it takes all of
them only if no two members share an identity. -/
theorem Distinct.mem_departed {addresses : List Address} {membership : Membership}
    (hdistinct : membership.Distinct) {member : Member} (hmember : member ∈ membership.members)
    (hlisted : member.address.isIn addresses = true) :
    member ∈ (membership.leaveAll addresses).1 := by
  induction addresses generalizing membership with
  | nil => simp [Address.isIn] at hlisted
  | cons address addresses ih =>
      apply List.mem_append.mpr
      by_cases hsame : address.same member.address = true
      · left
        obtain ⟨found, hfind⟩ : ∃ found, membership.find? address = some found :=
          Option.isSome_iff_exists.mp (List.find?_isSome.mpr ⟨member, hmember, hsame⟩)
        have hfound : address.same found.address = true := by
          simpa using List.find?_some hfind
        have heq : found = member := by
          apply hdistinct.eq_of_uuid_eq (List.mem_of_find?_eq_some hfind) hmember
          exact (Address.same_iff.mp hfound).symm.trans (Address.same_iff.mp hsame)
        rw [← heq]
        exact Option.mem_toList.mpr hfind
      · right
        apply ih
        · exact hdistinct.leave address
        · exact List.mem_filter.mpr ⟨hmember, by simpa using hsame⟩
        · obtain ⟨other, hother, hidentity⟩ := Address.isIn_iff.mp hlisted
          rcases List.mem_cons.mp hother with rfl | hrest
          · exact absurd (Address.same_iff.mpr hidentity.symm) hsame
          · exact Address.isIn_iff.mpr ⟨other, hrest, hidentity⟩

theorem departed_dismiss (addresses : List Address) (cluster : String)
    (membership : Membership) :
    (Registry.dismiss addresses cluster membership).1.departed =
      (membership.leaveAll addresses).1 := by
  unfold Registry.dismiss
  simp only
  split
  next hnobody =>
    rw [List.isEmpty_iff.mp hnobody]
    rfl
  · rfl

end Membership

/-- Whether a departure hits only the connections of failed recipients: whoever is
removed is bound to the session of a failed write, and so is every session that is
closed. -/
structure Departure.Only (departure : Departure) (failed : List Recipient) : Prop where
  departed : ∀ member ∈ departure.departed, ∃ recipient ∈ failed,
    member.address.uuid = recipient.address.uuid ∧ member.session = some recipient.session
  sessions : ∀ session ∈ departure.sessions, ∃ recipient ∈ failed, session = recipient.session

theorem Departure.only_of_departed {departure : Departure} {failed : List Recipient}
    (hdeparted : ∀ member ∈ departure.departed, ∃ recipient ∈ failed,
      member.address.uuid = recipient.address.uuid ∧
        member.session = some recipient.session) :
    departure.Only failed where
  departed := hdeparted
  sessions := by
    intro session hsession
    obtain ⟨member, hmember, hbound⟩ := List.mem_filterMap.mp hsession
    obtain ⟨recipient, hrecipient, _, hfailed⟩ := hdeparted member hmember
    rw [hbound] at hfailed
    exact ⟨recipient, hrecipient, Option.some.inj hfailed⟩

/-- The session that an operation is carried out for, if it names one. -/
def Operation.session? : Operation → Option SessionId
  | join _ _ session => some session
  | registerView _ _ _ session => some session
  | removeSession session _ => some session
  | leave _ _ | leaveAll _ _ | getView _ | route _ | dump => none

namespace Registry

theorem mem_departed_iff {registry : Registry} (hdistinct : registry.DistinctMembers)
    {cluster : String} {addresses : List Address} {member : Member} :
    member ∈ (registry.leaveAll cluster addresses).1.departed ↔
      ∃ membership, registry.find? cluster = some membership ∧
        member ∈ membership.members ∧ member.address.isIn addresses = true := by
  unfold leaveAll withExisting
  cases hfind : registry.find? cluster with
  | none =>
      constructor
      · intro hmember
        contradiction
      · rintro ⟨_, hnone, _⟩
        contradiction
  | some membership =>
      simp only [Option.getD_some, Membership.departed_dismiss]
      constructor
      · intro hmember
        exact ⟨membership, rfl, Membership.of_mem_departed hmember⟩
      · rintro ⟨other, hother, hmember, hlisted⟩
        obtain rfl : membership = other := Option.some.inj hother
        exact (hdistinct cluster _ hfind).mem_departed hmember hlisted

theorem leaveAll_only_iff {registry : Registry} (hdistinct : registry.DistinctMembers)
    (cluster : String) {failed : List Recipient}
    (hfailed : (failed.map fun recipient => recipient.address.uuid).Nodup) :
    (registry.leaveAll cluster (failed.map Recipient.address)).1.Only failed ↔
      ∀ recipient ∈ failed, registry.Bound cluster recipient := by
  constructor
  · intro honly recipient hrecipient membership hfind member hmember hsame
    have hlisted : member.address.isIn (failed.map Recipient.address) = true :=
      Address.isIn_iff.mpr ⟨_, List.mem_map_of_mem hrecipient, hsame⟩
    have hdeparted := (mem_departed_iff hdistinct).mpr ⟨membership, hfind, hmember, hlisted⟩
    obtain ⟨other, hother, hidentity, hsession⟩ := honly.departed member hdeparted
    have heq : other = recipient :=
      List.inj_on_of_nodup_map hfailed hother hrecipient (hidentity.symm.trans hsame)
    rw [← heq]
    exact hsession
  · intro hbound
    apply Departure.only_of_departed
    intro member hdeparted
    obtain ⟨membership, hfind, hmember, hlisted⟩ :=
      (mem_departed_iff hdistinct).mp hdeparted
    obtain ⟨address, haddress, hsame⟩ := Address.isIn_iff.mp hlisted
    obtain ⟨recipient, hrecipient, rfl⟩ := List.mem_map.mp haddress
    exact ⟨recipient, hrecipient, hsame,
      hbound recipient hrecipient membership hfind member hmember hsame⟩

/-- Between the snapshot and the eviction anything may happen to the registry.  The
eviction hits only the connections that failed exactly if, by then, no failed
recipient is a member over another session, and nothing but an operation that lets
its identity in or binds it anew makes it one. -/
theorem eviction_hits_failed_iff (capacity : Nat) (history : List Operation)
    (operation : Operation) (others : List Operation) {delivery : String × List Recipient}
    {failed : List Recipient}
    (hdelivery : delivery ∈
      operation.deliveries (((empty capacity).after history).perform operation).1)
    (hfailed : failed.Sublist delivery.2) :
    let taken := (((empty capacity).after history).perform operation).2
    let later := taken.after others
    let departure := (later.leaveAll delivery.1 (failed.map Recipient.address)).1
    (departure.Only failed ↔ ∀ recipient ∈ failed, later.Bound delivery.1 recipient) ∧
      ((∀ recipient ∈ failed, taken.SparesAll delivery.1 recipient others) →
        departure.Only failed) := by
  intro taken later departure
  have hreached : ((empty capacity).after history).DistinctMembers :=
    (distinctMembers_empty capacity).after history
  have hsnapshot : taken.Snapshot delivery.1 delivery.2 :=
    snapshot_of_mem_deliveries hreached hdelivery
  have hlater : later.DistinctMembers := (hreached.perform operation).after others
  have honly := leaveAll_only_iff hlater delivery.1
    (hsnapshot.distinct.sublist (hfailed.map _))
  refine ⟨honly, ?_⟩
  intro hspared
  apply honly.mpr
  intro recipient hrecipient
  exact (hsnapshot.bound recipient (hfailed.subset hrecipient)).after
    (hspared recipient hrecipient)

/-- While a write to the second member is under way a third one joins, and the
second one is removed as it should. -/
theorem eviction_hits_failed_iff_third_joins :
    let first : Recipient := ⟨.ofUuid ⟨0, 1⟩, ⟨1⟩⟩
    let second : Recipient := ⟨.ofUuid ⟨0, 2⟩, ⟨2⟩⟩
    let before := (empty 1).after [.join "a" first.address first.session]
    let joining : Operation := .join "a" second.address second.session
    let taken := (before.perform joining).2
    let later := taken.after [.join "a" (.ofUuid ⟨0, 3⟩) ⟨3⟩]
    ("a", [first, second]) ∈ joining.deliveries (before.perform joining).1 ∧
      [second].Sublist [first, second] ∧
      (later.leaveAll "a" [second.address]).1.departed = [⟨second.address, some ⟨2⟩⟩] ∧
      (later.leaveAll "a" [second.address]).1.Only [second] := by
  intro first second before joining taken later
  have hdelivery : ("a", [first, second]) ∈ joining.deliveries (before.perform joining).1 := by
    decide
  have hfailed : [second].Sublist [first, second] := by decide
  refine ⟨hdelivery, hfailed, by decide, ?_⟩
  refine (eviction_hits_failed_iff 1 [.join "a" first.address first.session] joining
    [.join "a" (.ofUuid ⟨0, 3⟩) ⟨3⟩] hdelivery hfailed).2 ?_
  intro recipient hrecipient
  obtain rfl := List.mem_singleton.mp hrecipient
  refine ⟨?_, trivial⟩
  rintro - member ⟨-, rfl⟩ hsame
  exact absurd hsame (by decide)

/-- The second member comes back over another session while the write to the old
one is failing, and the eviction removes it and closes the new session.  All of
this is asked for through other sessions than the failed one. -/
theorem eviction_hits_rejoined :
    ¬∀ (capacity : Nat) (history : List Operation) (operation : Operation)
        (others : List Operation) (delivery : String × List Recipient)
        (failed : List Recipient),
      delivery ∈ operation.deliveries (((empty capacity).after history).perform operation).1 →
      failed.Sublist delivery.2 →
      (∀ other ∈ others, ∀ recipient ∈ failed, other.session? ≠ some recipient.session) →
      let later := (((empty capacity).after history).perform operation).2.after others
      (later.leaveAll delivery.1 (failed.map Recipient.address)).1.Only failed := by
  intro hclaim
  let first : Recipient := ⟨(Address.ofUuid ⟨0, 65⟩).withName "A", ⟨1⟩⟩
  let second : Recipient := ⟨(Address.ofUuid ⟨0, 66⟩).withName "B", ⟨2⟩⟩
  have honly := hclaim 10000 [.join "k" first.address first.session]
    (.join "k" second.address second.session)
    [.leave "k" second.address, .join "k" second.address ⟨3⟩]
    ("k", [first, second]) [second] (by decide) (by decide) (by decide)
  obtain ⟨recipient, hrecipient, hsession⟩ := honly.sessions ⟨3⟩ (by decide)
  rw [List.mem_singleton.mp hrecipient] at hsession
  exact absurd hsession (by decide)

end Registry

/-! ## Deliveries that fail -/

/-- The recipients to whom the write of a frame fails. -/
def unreached (frame : Frame) : List Recipient → Sessions → List Recipient
  | [], _ => []
  | recipient :: recipients, sessions =>
    let (after, result) := (sessions.get recipient.session).send frame
    let others := unreached frame recipients (sessions.put after)
    match result with
    | .ok () => others
    | .error _ => recipient :: others

theorem unreached_sublist (frame : Frame) (recipients : List Recipient) (sessions : Sessions) :
    (unreached frame recipients sessions).Sublist recipients := by
  induction recipients generalizing sessions with
  | nil => exact List.Sublist.refl _
  | cons recipient recipients ih =>
      simp only [unreached]
      cases ((sessions.get recipient.session).send frame).2 with
      | ok => exact (ih _).cons _
      | error => exact (ih _).cons_cons _

theorem failed_deliver (frame : Frame) (recipients : List Recipient) (sessions : Sessions) :
    (deliver frame recipients sessions).failed =
      (unreached frame recipients sessions).map Recipient.address := by
  induction recipients generalizing sessions with
  | nil => rfl
  | cons recipient recipients ih =>
      simp only [deliver, unreached, ih]
      cases ((sessions.get recipient.session).send frame).2 <;> rfl

namespace Relay

theorem eq_of_mem_next_spread {relay : Relay} {cluster : String} {frame : Frame}
    {recipients : List Recipient} {work : Work}
    (hwork : work ∈ (relay.spread cluster frame recipients).2.next) :
    work = .evict cluster ((unreached frame recipients relay.sessions).map Recipient.address) := by
  rw [← failed_deliver]
  change work ∈ afterDelivery cluster (deliver frame recipients relay.sessions) at hwork
  unfold afterDelivery at hwork
  split at hwork
  · contradiction
  · exact List.mem_singleton.mp hwork

end Relay

end Muster
