import Muster.Proofs.Registry.Annals
import Muster.Proofs.Registry.Seniority
import Muster.Proofs.Relay.PassingOn

/-!
# Leaving together and one by one

Members that leave together are gone in one view step, and members that leave one by one
take a step each.  The same members stay in either case, in the same order and with the same
bonds, whatever the order of the single departures.  The last of them retires the cluster,
and the later ones then find no cluster at all.

Leaving together never uses up more numbers: a cluster that is deserted in one step goes on
from the number it had, and one that is deserted step by step may have made views meanwhile.
-/

namespace Muster

/-- The latest entry is never forgotten, because there is room for one. -/
theorem Ledger.resume_record_self {ledger : Ledger} (hroom : 1 ≤ ledger.capacity)
    (name : String) (lastViewId : UInt64) :
    (ledger.record name lastViewId).resume name = lastViewId := by
  have hkept : (ledger.noted name lastViewId).size - ledger.capacity ≤
      (ledger.without name).length := by
    simp only [noted, size, List.length_append, List.length_singleton]
    omega
  have hgone : ((ledger.without name).drop
      ((ledger.noted name lastViewId).size - ledger.capacity)).lookup name = none := by
    rw [List.lookup_eq_none_iff]
    intro entry hentry
    exact List.lookup_eq_none_iff.mp (lookup_erase_self name ledger.entries) entry
      (List.mem_of_mem_drop hentry)
  have hentries : (ledger.record name lastViewId).entries =
      (ledger.without name).drop ((ledger.noted name lastViewId).size - ledger.capacity) ++
        [(name, lastViewId)] :=
    List.drop_append_of_le_length hkept
  rw [resume, hentries, lookup_append, hgone]
  simp

theorem Address.isIn_perm {addresses order : List Address} (horder : order.Perm addresses)
    (address : Address) : address.isIn order = address.isIn addresses := by
  rw [Bool.eq_iff_iff, isIn_iff, isIn_iff]
  simp only [horder.mem_iff]

namespace Membership

variable {membership : Membership} {addresses : List Address}

/-- The members that some addresses stand for. -/
def departing (membership : Membership) (addresses : List Address) : List Member :=
  membership.members.filter fun member => member.address.isIn addresses

def staying (membership : Membership) (addresses : List Address) : List Member :=
  membership.members.filter fun member => !member.address.isIn addresses

theorem mem_departing {member : Member} :
    member ∈ membership.departing addresses ↔
      member ∈ membership.members ∧ member.address.isIn addresses = true :=
  List.mem_filter

theorem Distinct.nodup_departed (hdistinct : membership.Distinct) (addresses : List Address) :
    ((membership.leaveAll addresses).1.map fun member => member.address.uuid).Nodup := by
  induction addresses generalizing membership with
  | nil => exact List.nodup_nil
  | cons address addresses ih =>
      have hlater := ih (hdistinct.leave address)
      simp only [leaveAll]
      cases hfind : (membership.leave address).1 with
      | none => exact hlater
      | some member =>
          have hleft : address.same member.address = true := by
            simpa using List.find?_some hfind
          rw [Option.toList_some, List.singleton_append, List.map_cons, List.nodup_cons]
          refine ⟨fun hagain => ?_, hlater⟩
          obtain ⟨other, hother, hsame⟩ := List.mem_map.mp hagain
          have hstays := (List.mem_filter.mp (of_mem_departed hother).1).2
          rw [Address.same_iff] at hleft
          simp [Address.same, hsame, hleft] at hstays

/-- Everybody who leaves is reported once. -/
theorem Distinct.departed_perm (hdistinct : membership.Distinct) (addresses : List Address) :
    (membership.leaveAll addresses).1.Perm (membership.departing addresses) := by
  have hreported : (membership.leaveAll addresses).1.Nodup :=
    (hdistinct.nodup_departed addresses).of_map
  have hdeparting : (membership.departing addresses).Nodup := (List.Nodup.of_map _ hdistinct).filter _
  refine (List.perm_ext_iff_of_nodup hreported hdeparting).mpr fun member => ?_
  rw [mem_departing]
  exact ⟨of_mem_departed, fun hleaver => hdistinct.mem_departed hleaver.1 hleaver.2⟩

theorem staying_perm {order : List Address} (horder : order.Perm addresses)
    (membership : Membership) : membership.staying order = membership.staying addresses := by
  simp only [staying, Address.isIn_perm horder]

theorem departing_perm {order : List Address} (horder : order.Perm addresses)
    (membership : Membership) : membership.departing order = membership.departing addresses := by
  simp only [departing, Address.isIn_perm horder]

end Membership

namespace Registry

variable {registry : Registry} {cluster : String} {addresses : List Address}

/-- The departures of some members, one after the other. -/
def leaves (cluster : String) (addresses : List Address) : List Operation :=
  addresses.map (.leave cluster)

theorem departed_leaveAll (registry : Registry) (cluster : String) (addresses : List Address) :
    (registry.leaveAll cluster addresses).1.departed =
      ((registry.current cluster).leaveAll addresses).1 := by
  cases hfind : registry.find? cluster with
  | some membership =>
      rw [leaveAll_of_find? hfind, current_of_find? hfind, Membership.departed_dismiss]
  | none =>
      rw [current_of_find?_none hfind, eq_comm, leaveAll, withExisting, hfind]
      refine List.eq_nil_iff_forall_not_mem.mpr fun member hmember => ?_
      exact List.not_mem_nil (Membership.of_mem_departed hmember).1

theorem members_leaveAll (registry : Registry) (cluster : String) (addresses : List Address) :
    ((registry.leaveAll cluster addresses).2.current cluster).members =
      (registry.current cluster).staying addresses := by
  have hcluster : (Operation.leaveAll cluster addresses).cluster? = some cluster := rfl
  have hwork := members_current_work registry hcluster
  rw [Membership.staying, ← Membership.members_dismiss addresses cluster]
  exact hwork

theorem members_after_leaves (registry : Registry) (cluster : String)
    (addresses : List Address) :
    ((registry.after (leaves cluster addresses)).current cluster).members =
      (registry.current cluster).staying addresses := by
  induction addresses generalizing registry with
  | nil => simp [leaves, Membership.staying, Address.isIn]
  | cons address addresses ih =>
      have hfirst := registry.members_leaveAll cluster [address]
      rw [leaves, List.map_cons, after_cons]
      change ((Registry.after (registry.leaveAll cluster [address]).2
        (leaves cluster addresses)).current cluster).members = _
      rw [ih, Membership.staying, hfirst, Membership.staying, List.filter_filter,
        Membership.staying]
      apply List.filter_congr
      intro member _
      simp [Address.isIn, Bool.and_comm]

theorem find?_eq_none_of_members_current (hoccupied : registry.Occupied)
    (hnobody : (registry.current cluster).members = []) : registry.find? cluster = none := by
  cases hfind : registry.find? cluster with
  | none => rfl
  | some membership =>
      have hsome := hoccupied cluster membership hfind
      rw [current_of_find? hfind] at hnobody
      rw [Membership.isEmpty, hnobody] at hsome
      contradiction

/-- Strangers leave nothing behind. -/
theorem leaveAll_of_strangers (hoccupied : registry.Occupied)
    (hstrangers : (registry.current cluster).departing addresses = []) :
    registry.leaveAll cluster addresses = (.nothing, registry) := by
  cases hfind : registry.find? cluster with
  | none => rw [leaveAll, withExisting, hfind]; rfl
  | some membership =>
      rw [current_of_find? hfind] at hstrangers
      have hnobody : (membership.leaveAll addresses).1 = [] := by
        refine List.eq_nil_iff_forall_not_mem.mpr fun member hmember => ?_
        have hleaver := Membership.mem_departing.mpr (Membership.of_mem_departed hmember)
        rw [hstrangers] at hleaver
        exact List.not_mem_nil hleaver
      have hdismiss : dismiss addresses cluster membership = (.nothing, membership) := by
        simp only [dismiss, hnobody, List.isEmpty_nil, if_true,
          Membership.leaveAll_of_departed_nil hnobody]
      rw [leaveAll_of_find? hfind, hdismiss, store_of_find? hfind (hoccupied _ _ hfind)]

theorem after_leaves_of_strangers (hoccupied : registry.Occupied)
    (hstrangers : (registry.current cluster).departing addresses = []) :
    registry.after (leaves cluster addresses) = registry := by
  induction addresses with
  | nil => rfl
  | cons address addresses ih =>
      have hnobody : ∀ member ∈ (registry.current cluster).members,
          member.address.isIn (address :: addresses) ≠ true :=
        List.filter_eq_nil_iff.mp hstrangers
      have hfirst : (registry.current cluster).departing [address] = [] := by
        refine List.filter_eq_nil_iff.mpr fun member hmember hlisted => ?_
        exact hnobody member hmember (by simp_all [Address.isIn])
      have hlater : (registry.current cluster).departing addresses = [] := by
        refine List.filter_eq_nil_iff.mpr fun member hmember hlisted => ?_
        exact hnobody member hmember (by simp_all [Address.isIn])
      have hstay := congrArg Prod.snd (leaveAll_of_strangers hoccupied hfirst)
      rw [leaves, List.map_cons, after_cons]
      change Registry.after (registry.leaveAll cluster [address]).2 (leaves cluster addresses) = _
      rw [hstay]
      exact ih hlater

/-! ## Numbers -/

theorem number_store_self (hroom : 1 ≤ registry.retired.capacity) (cluster : String)
    (membership : Membership) :
    (registry.store cluster membership).number cluster = membership.lastViewId := by
  rw [number, find?_store_self, retired_store]
  cases membership.isEmpty with
  | true => exact Ledger.resume_record_self hroom cluster membership.lastViewId
  | false => rfl

theorem number_leaveAll (hdistinct : registry.DistinctMembers)
    (hroom : 1 ≤ registry.retired.capacity)
    (hsome : (registry.current cluster).departing addresses ≠ []) :
    (registry.leaveAll cluster addresses).2.number cluster =
      if (registry.current cluster).staying addresses = [] then registry.number cluster
      else registry.number cluster + 1 := by
  obtain ⟨member, hmember⟩ := List.exists_mem_of_ne_nil _ hsome
  obtain ⟨hmember, hlisted⟩ := Membership.mem_departing.mp hmember
  obtain ⟨address, haddress, hsame⟩ := Address.isIn_iff.mp hlisted
  have hidentity : address.uuid ∈ (registry.current cluster).identities :=
    List.mem_map.mpr ⟨member, hmember, hsame⟩
  rw [(leaveAll_eq hdistinct haddress hidentity).2, number_store_self hroom,
    number_eq_current]
  unfold Membership.without Membership.staying
  simp only [Address.not_isIn_eq, Membership.isEmpty, List.isEmpty_iff]
  split <;> rfl

/-! ## Together and one by one -/

/-- How a registry after members have left together compares with the registry
after they have left one by one, both begun from the same registry. -/
structure Parts (registry : Registry) (cluster : String) (addresses : List Address)
    (departed : List Member) (together oneByOne : Registry) : Prop where
  same : (together.current cluster).members = (oneByOne.current cluster).members
  stay : (together.current cluster).members = (registry.current cluster).staying addresses
  reported : departed.Perm ((registry.current cluster).departing addresses)
  once : (departed.map fun member => member.address.uuid).Nodup
  told : (registry.current cluster).departing addresses ≠ [] →
    (registry.current cluster).staying addresses ≠ [] →
      together.number cluster = registry.number cluster + 1
  quiet : (registry.current cluster).departing addresses = [] →
    together = registry ∧ oneByOne = registry
  deserted : (registry.current cluster).staying addresses = [] →
    together.find? cluster = none ∧ oneByOne.find? cluster = none ∧
      together.number cluster = registry.number cluster

theorem parts_leaveAll (hdistinct : registry.DistinctMembers) (hoccupied : registry.Occupied)
    (hroom : 1 ≤ registry.retired.capacity) {order : List Address}
    (horder : order.Perm addresses) :
    registry.Parts cluster addresses (registry.leaveAll cluster addresses).1.departed
      (registry.leaveAll cluster addresses).2 (registry.after (leaves cluster order)) := by
  have htogether := registry.members_leaveAll cluster addresses
  have hone : ((registry.after (leaves cluster order)).current cluster).members =
      (registry.current cluster).staying addresses := by
    rw [members_after_leaves, Membership.staying_perm horder]
  have hmembers : (registry.current cluster).Distinct := hdistinct.current cluster
  have hleft : (registry.leaveAll cluster addresses).2.Occupied :=
    hoccupied.perform (.leaveAll cluster addresses)
  constructor
  · rw [htogether, hone]
  · exact htogether
  · rw [departed_leaveAll]
    exact hmembers.departed_perm addresses
  · rw [departed_leaveAll]
    exact hmembers.nodup_departed addresses
  · intro hsome hstay
    rw [number_leaveAll hdistinct hroom hsome, if_neg hstay]
  · intro hnobody
    refine ⟨by rw [leaveAll_of_strangers hoccupied hnobody], ?_⟩
    exact after_leaves_of_strangers hoccupied (by rw [Membership.departing_perm horder, hnobody])
  · intro hdeserted
    refine ⟨find?_eq_none_of_members_current hleft (htogether.trans hdeserted),
      find?_eq_none_of_members_current (hoccupied.after _) (hone.trans hdeserted), ?_⟩
    by_cases hsome : (registry.current cluster).departing addresses = []
    · rw [leaveAll_of_strangers hoccupied hsome]
    · rw [number_leaveAll hdistinct hroom hsome, if_pos hdeserted]

/-- Leaving together and leaving one by one, in any order, come to the same members.  A
cluster that is deserted in one step starts again from a number that is not above the one
it starts again from when it is deserted step by step. -/
theorem leaveAll_agrees_with_leaves (capacity : Nat) (history : List Operation)
    (cluster : String) {addresses order : List Address} (horder : order.Perm addresses) :
    let registry := (empty capacity).after history
    let together := registry.leaveAll cluster addresses
    let oneByOne := registry.after (leaves cluster order)
    registry.Parts cluster addresses together.1.departed together.2 oneByOne ∧
      ((registry.current cluster).staying addresses = [] →
        (∀ change ∈ (empty capacity).announcements (history ++ leaves cluster order),
          HasNext change.view.viewId) →
        together.2.number cluster ≤ oneByOne.number cluster ∧
          ∀ change ∈ (empty capacity).announcements history, change.cluster = cluster →
            change.view.viewId ≤ together.2.number cluster) := by
  intro registry together oneByOne
  have hroom : 1 ≤ registry.retired.capacity := by
    rw [(orderly_after capacity history).room]
    exact Nat.le_max_left 1 capacity
  have hparts : registry.Parts cluster addresses together.1.departed together.2 oneByOne :=
    parts_leaveAll ((distinctMembers_empty capacity).after history)
      ((occupied_empty capacity).after history) hroom horder
  refine ⟨hparts, fun hdeserted hnumbers => ?_⟩
  rw [announcements_append] at hnumbers
  have hpast : ∀ change ∈ (empty capacity).announcements history, HasNext change.view.viewId :=
    fun change hchange => hnumbers change (List.mem_append_left _ hchange)
  have hhistory := advances_after (numbered_empty capacity) history hpast
  have hleaves := advances_after ((numbered_empty capacity).after history hpast)
    (leaves cluster order) fun change hchange =>
      hnumbers change (List.mem_append_right _ hchange)
  rw [(hparts.deserted hdeserted).2.2]
  refine ⟨hleaves.kept cluster, fun change hchange hcluster => ?_⟩
  rw [← hcluster]
  exact hhistory.within change hchange

/-- Both members leave, and a stranger, and one of them twice.  One by one they make a view
on the way, so that the cluster would start again from a higher number. -/
theorem leaveAll_agrees_with_leaves_deserted :
    let first := Address.ofUuid ⟨0, 1⟩
    let second := Address.ofUuid ⟨0, 2⟩
    let stranger := Address.ofUuid ⟨0, 3⟩
    let history := [.join "a" first ⟨1⟩, .registerView "a" [] second ⟨2⟩]
    let registry := (empty 1).after history
    let addresses := [second, stranger, first, second]
    let order := [first, second, second, stranger]
    let together := registry.leaveAll "a" addresses
    let oneByOne := registry.after (leaves "a" order)
    order.Perm addresses ∧ (registry.current "a").staying addresses = [] ∧
      (∀ change ∈ (empty 1).announcements (history ++ leaves "a" order),
        HasNext change.view.viewId) ∧
      together.1.departed = [⟨second, some ⟨2⟩⟩, ⟨first, some ⟨1⟩⟩] ∧
      (together.2.number "a" = 1 ∧ oneByOne.number "a" = 2) ∧
      registry.Parts "a" addresses together.1.departed together.2 oneByOne ∧
      ((registry.current "a").staying addresses = [] →
        (∀ change ∈ (empty 1).announcements (history ++ leaves "a" order),
          HasNext change.view.viewId) →
        together.2.number "a" ≤ oneByOne.number "a" ∧
          ∀ change ∈ (empty 1).announcements history, change.cluster = "a" →
            change.view.viewId ≤ together.2.number "a") := by
  intro first second stranger history registry addresses order together oneByOne
  have horder : order.Perm addresses := by decide
  exact ⟨horder, by decide, by decide, by decide, by decide,
    leaveAll_agrees_with_leaves 1 history "a" horder⟩

end Registry

end Muster
