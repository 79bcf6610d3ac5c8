import Muster.Proofs.Registry.Exposure
import Muster.Proofs.Relay.Eviction

/-!
# Who departs

An eviction names addresses and a removed session is named by itself.  In either
case the members that go are those named, and nobody else.  When recipients have
failed, the members named are the recipients themselves, because no two members
share an identity.
-/

namespace Muster

theorem Member.recipient?_eq_some_iff {member : Member} {recipient : Recipient} :
    member.recipient? = some recipient ↔
      member.address = recipient.address ∧ member.session = some recipient.session := by
  obtain ⟨address, session⟩ := recipient
  simp only [recipient?, Option.map_eq_some_iff, Recipient.mk.injEq]
  constructor
  · rintro ⟨_, hsession, haddress, rfl⟩
    exact ⟨haddress, hsession⟩
  · rintro ⟨haddress, hsession⟩
    exact ⟨session, hsession, haddress, rfl⟩

namespace Membership

theorem mem_recipients_nil {membership : Membership} {recipient : Recipient} :
    recipient ∈ membership.recipients [] ↔
      ∃ member ∈ membership.members, member.recipient? = some recipient := by
  simp [recipients, Address.isIn]

variable {membership : Membership} {failed : List Recipient}

/-- The addresses of failed recipients stand for the members that failed. -/
theorem Distinct.isIn_iff (hdistinct : membership.Distinct)
    (hfailed : failed ⊆ membership.recipients []) {member : Member}
    (hmember : member ∈ membership.members) :
    member.address.isIn (failed.map Recipient.address) = true ↔
      ∃ recipient ∈ failed, member.recipient? = some recipient := by
  rw [Address.isIn_iff]
  constructor
  · rintro ⟨address, haddress, hsame⟩
    obtain ⟨recipient, hrecipient, rfl⟩ := List.mem_map.mp haddress
    obtain ⟨other, hother, hreached⟩ := mem_recipients_nil.mp (hfailed hrecipient)
    have heq : member = other := by
      apply hdistinct.eq_of_uuid_eq hmember hother
      rw [hsame, (Member.recipient?_eq_some_iff.mp hreached).1]
    rw [heq]
    exact ⟨recipient, hrecipient, hreached⟩
  · rintro ⟨recipient, hrecipient, hreached⟩
    refine ⟨recipient.address, List.mem_map_of_mem hrecipient, ?_⟩
    rw [(Member.recipient?_eq_some_iff.mp hreached).1]

theorem Distinct.members_dismiss (hdistinct : membership.Distinct)
    (hfailed : failed ⊆ membership.recipients []) (cluster : String) :
    (Registry.dismiss (failed.map Recipient.address) cluster membership).2.members =
      membership.members.filter fun member =>
        ∀ recipient ∈ failed, member.recipient? ≠ some recipient := by
  rw [Membership.members_dismiss]
  apply List.filter_congr
  intro member hmember
  rw [Bool.eq_iff_iff]
  simp only [Bool.not_eq_true', decide_eq_true_eq, ← Bool.not_eq_true,
    hdistinct.isIn_iff hfailed hmember, not_exists, not_and, ne_eq]

theorem Distinct.size_dismiss_lt (hdistinct : membership.Distinct)
    (hfailed : failed ⊆ membership.recipients []) (hsome : failed ≠ []) (cluster : String) :
    (Registry.dismiss (failed.map Recipient.address) cluster membership).2.size <
      membership.size := by
  obtain ⟨recipient, hrecipient⟩ := List.exists_mem_of_ne_nil failed hsome
  obtain ⟨member, hmember, hreached⟩ := mem_recipients_nil.mp (hfailed hrecipient)
  rw [size, hdistinct.members_dismiss hfailed, size, List.length_filter_lt_length_iff_exists]
  refine ⟨member, hmember, ?_⟩
  simp only [decide_eq_true_eq]
  intro hspared
  exact hspared recipient hrecipient hreached

theorem Distinct.mem_sessions_dismiss_iff (hdistinct : membership.Distinct)
    (hfailed : failed ⊆ membership.recipients []) (cluster : String) {session : SessionId} :
    session ∈
        (Registry.dismiss (failed.map Recipient.address) cluster membership).1.sessions ↔
      session ∈ failed.map Recipient.session := by
  rw [Departure.sessions, departed_dismiss, List.mem_filterMap, List.mem_map]
  constructor
  · rintro ⟨member, hdeparted, hsession⟩
    obtain ⟨hmember, hlisted⟩ := of_mem_departed hdeparted
    obtain ⟨recipient, hrecipient, hreached⟩ := (hdistinct.isIn_iff hfailed hmember).mp hlisted
    rw [(Member.recipient?_eq_some_iff.mp hreached).2] at hsession
    exact ⟨recipient, hrecipient, Option.some.inj hsession⟩
  · rintro ⟨recipient, hrecipient, rfl⟩
    obtain ⟨member, hmember, hreached⟩ := mem_recipients_nil.mp (hfailed hrecipient)
    have hlisted := (hdistinct.isIn_iff hfailed hmember).mpr ⟨recipient, hrecipient, hreached⟩
    exact ⟨member, hdistinct.mem_departed hmember hlisted,
      (Member.recipient?_eq_some_iff.mp hreached).2⟩

/-- The others are told, if there are any. -/
theorem Distinct.change_dismiss_cases (hdistinct : membership.Distinct)
    (hfailed : failed ⊆ membership.recipients []) (hsome : failed ≠ []) {cluster : String}
    {departure : Departure} {after : Membership}
    (hdismiss : Registry.dismiss (failed.map Recipient.address) cluster membership =
      (departure, after)) :
    (departure.change = none ∧ after.isEmpty = true) ∨
      ∃ view, departure.change = some ⟨cluster, view, after.recipients []⟩ ∧
        after.view? = some view ∧ view.viewId = membership.lastViewId + 1 := by
  have hdeparted : (membership.leaveAll (failed.map Recipient.address)).1 ≠ [] := by
    obtain ⟨recipient, hrecipient⟩ := List.exists_mem_of_ne_nil failed hsome
    obtain ⟨member, hmember, hreached⟩ := mem_recipients_nil.mp (hfailed hrecipient)
    exact List.ne_nil_of_mem (hdistinct.mem_departed hmember
      ((hdistinct.isIn_iff hfailed hmember).mpr ⟨recipient, hrecipient, hreached⟩))
  have hmoves := membership.moves_dismiss cluster (failed.map Recipient.address)
  rw [hdismiss] at hmoves
  cases hchange : departure.change with
  | none =>
      left
      refine ⟨rfl, ?_⟩
      simp only [Registry.dismiss, List.isEmpty_iff, hdeparted, if_false, Prod.mk.injEq]
        at hdismiss
      obtain ⟨rfl, rfl⟩ := hdismiss
      have hempty := isEmpty_of_announce hchange
      rw [isEmpty_iff, identities_announce]
      exact isEmpty_iff.mp hempty
  | some change =>
      right
      rw [hchange] at hmoves
      cases hmoves with
      | told hnext hview =>
          refine ⟨_, rfl, hview, ?_⟩
          rw [viewId_of_view? hview, hnext]

end Membership

namespace Registry

theorem leaveAll_of_find? {registry : Registry} {cluster : String} {membership : Membership}
    (hfind : registry.find? cluster = some membership) (addresses : List Address) :
    registry.leaveAll cluster addresses =
      ((dismiss addresses cluster membership).1,
        registry.store cluster (dismiss addresses cluster membership).2) := by
  rw [leaveAll, withExisting, hfind]
  rfl

end Registry

namespace Membership

theorem contains_dismiss_of_not_isIn {addresses : List Address} {address : Address}
    (hkept : address.isIn addresses = false) (cluster : String) (membership : Membership) :
    (Registry.dismiss addresses cluster membership).2.contains address =
      membership.contains address := by
  rw [Bool.eq_iff_iff]
  constructor
  · intro hstays
    obtain ⟨member, hmember, hsame⟩ := exists_mem_of_contains hstays
    rw [members_dismiss] at hmember
    exact contains_of_mem (List.mem_filter.mp hmember).1 hsame
  · intro hmember
    exact contains_dismiss hmember hkept cluster

theorem contains_congr {first second : Membership} (hmembers : first.members = second.members)
    (address : Address) : first.contains address = second.contains address := by
  rw [contains, find?, hmembers, contains, find?]

end Membership

namespace Registry

variable {registry : Registry} {cluster : String}

theorem contains_current_leaveAll {name : String} {addresses : List Address}
    {address : Address} (hkept : name = cluster → address.isIn addresses = false) :
    ((registry.leaveAll name addresses).2.current cluster).contains address =
      (registry.current cluster).contains address := by
  by_cases hname : name = cluster
  · subst hname
    cases hfind : registry.find? name with
    | none => simp only [leaveAll, withExisting, hfind]
    | some membership =>
        rw [leaveAll_of_find? hfind, current_of_find? hfind,
          ← Membership.contains_dismiss_of_not_isIn (hkept rfl) name membership]
        exact Membership.contains_congr (members_current_store _ _ _) address
  · have hother : (registry.perform (.leaveAll name addresses)).2.find? cluster =
        registry.find? cluster :=
      find?_perform_of_ne rfl (Ne.symm hname)
    exact Membership.contains_congr (members_current_congr hother) address

theorem mem_removeSession {session : SessionId} {clusters : List String}
    {membership : Membership}
    (hfind : (registry.perform (.removeSession session clusters)).2.find? cluster =
      some membership) :
    ∀ member ∈ membership.members, member ∈ (registry.current cluster).members := by
  have hall : registry.Throughout fun name membership =>
      name = cluster → ∀ member ∈ membership.members,
        member ∈ (registry.current cluster).members := by
    rintro name found hfound rfl
    rw [current_of_find? hfound]
    exact fun _ hmember => hmember
  refine hall.removeSession ?_ clusters cluster membership hfind rfl
  intro name before hbefore hname member hmember
  rw [Membership.members_dismissSession] at hmember
  exact hbefore hname member (List.mem_filter.mp hmember).1

theorem unbound_removeSession {session : SessionId} {clusters : List String}
    (hlisted : cluster ∈ clusters) {membership : Membership}
    (hfind : (registry.perform (.removeSession session clusters)).2.find? cluster =
      some membership) :
    ∀ member ∈ membership.members, member.session ≠ some session := by
  induction clusters generalizing registry with
  | nil => contradiction
  | cons name clusters ih =>
      rw [perform_removeSession_cons] at hfind
      by_cases hname : cluster = name
      · subst hname
        intro member hmember
        have hleft := mem_removeSession hfind member hmember
        cases hbefore : registry.find? cluster with
        | none =>
            simp only [withExisting, hbefore, current_of_find?_none] at hleft
            contradiction
        | some before =>
            simp only [withExisting, hbefore, members_current_store] at hleft
            change member ∈ (dismissSession session cluster before).2.members at hleft
            rw [Membership.members_dismissSession] at hleft
            simpa using (List.mem_filter.mp hleft).2
      · exact ih ((List.mem_cons.mp hlisted).resolve_left hname) hfind

end Registry

end Muster
