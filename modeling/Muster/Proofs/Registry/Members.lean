import Muster.Proofs.Membership
import Muster.Proofs.Registry.Operation

/-!
# What work does to members

Whoever joins or registers is a member once the work is done.  A member stays one
unless the work drops it, and only departures drop anybody.
-/

namespace Muster

namespace Operation

/-- The cluster that an operation lets somebody into, and whom. -/
def entrant? : Operation → Option (String × Address)
  | join cluster address _ => some (cluster, address)
  | registerView cluster _ address _ => some (cluster, address)
  | _ => none

/-- Whether an operation sends an address away from a cluster with the given
members. -/
def drops : Operation → Membership → Address → Bool
  | leave _ leaver, _, address => address.same leaver
  | leaveAll _ leavers, _, address => address.isIn leavers
  | removeSession session _, membership, address =>
    membership.members.any fun member =>
      address.same member.address && member.session == some session
  | _, _, _ => false

end Operation

namespace Membership

theorem contains_of_prefix_identities {before after : Membership} {address : Address}
    (hearly : before.identities <+: after.identities)
    (hmember : before.contains address = true) : after.contains address = true :=
  contains_iff.mpr (hearly.subset (contains_iff.mp hmember))

theorem isEmpty_eq_false_of_contains {membership : Membership} {address : Address}
    (hmember : membership.contains address = true) : membership.isEmpty = false :=
  isEmpty_eq_false_of_mem (contains_iff.mp hmember)

@[simp] theorem members_announce (cluster : String) (membership : Membership) :
    (Registry.announce cluster membership).2.members = membership.members := by
  unfold Registry.announce nextView
  cases membership.isEmpty <;> rfl

theorem members_leaveAll (addresses : List Address) (membership : Membership) :
    (membership.leaveAll addresses).2.members =
      membership.members.filter fun member => !member.address.isIn addresses := by
  induction addresses generalizing membership with
  | nil => simp [leaveAll, Address.isIn]
  | cons address addresses ih =>
      simp only [leaveAll]
      rw [ih, leave, List.filter_filter]
      apply List.filter_congr
      intro member _
      simp [Address.isIn, Address.same, Bool.and_comm, eq_comm]

theorem members_dismiss (addresses : List Address) (cluster : String)
    (membership : Membership) :
    (Registry.dismiss addresses cluster membership).2.members =
      membership.members.filter fun member => !member.address.isIn addresses := by
  rw [← members_leaveAll]
  unfold Registry.dismiss
  simp only
  split
  · rfl
  · exact members_announce cluster _

theorem members_dismissSession (session : SessionId) (cluster : String)
    (membership : Membership) :
    (Registry.dismissSession session cluster membership).2.members =
      membership.members.filter fun member => member.session ≠ some session := by
  have hremoved : (membership.removeSession session).2.members =
      membership.members.filter fun member => member.session ≠ some session := by
    simp only [removeSession, List.partition_eq_filter_filter]
    apply List.filter_congr
    intro member _
    simp
  rw [← hremoved]
  unfold Registry.dismissSession
  simp only
  split
  · rfl
  · exact members_announce cluster _

@[simp] theorem identities_announce (cluster : String) (membership : Membership) :
    (Registry.announce cluster membership).2.identities = membership.identities := by
  rw [identities, members_announce, identities]

theorem identities_enroll (address : Address) (session : SessionId) (cluster : String)
    (membership : Membership) :
    (Registry.enroll address session cluster membership).2.identities =
      if address.uuid ∈ membership.identities then membership.identities
      else membership.identities ++ [address.uuid] := by
  unfold Registry.enroll join?
  by_cases hmember : membership.contains address = true
  · simp only [hmember, if_true]
    rw [if_pos (contains_iff.mp hmember)]
  · simp only [hmember, Bool.false_eq_true, if_false, identities_announce, identities_add]
    rw [if_neg fun hmem => hmember (contains_iff.mpr hmem)]

theorem contains_dismiss {addresses : List Address} {membership : Membership}
    {address : Address} (hmember : membership.contains address = true)
    (hkept : address.isIn addresses = false) (cluster : String) :
    (Registry.dismiss addresses cluster membership).2.contains address = true := by
  obtain ⟨member, hmem, hsame⟩ := exists_mem_of_contains hmember
  apply contains_of_mem _ hsame
  rw [members_dismiss, List.mem_filter, Address.isIn_congr hsame, hkept]
  exact ⟨hmem, rfl⟩

end Membership

namespace Operation

theorem contains_work_of_entrant {operation : Operation} {cluster name : String}
    {address : Address} (hentrant : operation.entrant? = some (name, address))
    (membership : Membership) :
    (operation.work cluster membership).2.contains address = true := by
  rw [Membership.contains_iff]
  cases operation with
  | join _ newcomer session =>
      obtain ⟨rfl, rfl⟩ : _ = name ∧ newcomer = address := by simpa [entrant?] using hentrant
      change _ ∈ (Registry.enroll newcomer session cluster membership).2.identities
      rw [Membership.identities_enroll]
      split
      next hmem => exact hmem
      · simp
  | registerView _ bulk newcomer session =>
      obtain ⟨rfl, rfl⟩ : _ = name ∧ newcomer = address := by simpa [entrant?] using hentrant
      exact Membership.mem_identities_registerView membership bulk newcomer session
  | _ => simp [entrant?] at hentrant

theorem contains_work {operation : Operation} {membership : Membership} {address : Address}
    (hmember : membership.contains address = true)
    (hkept : operation.drops membership address = false) (cluster : String) :
    (operation.work cluster membership).2.contains address = true := by
  cases operation with
  | join _ newcomer session =>
      apply Membership.contains_of_prefix_identities _ hmember
      change _ <+: (Registry.enroll newcomer session cluster membership).2.identities
      rw [Membership.identities_enroll]
      split
      · exact List.prefix_rfl
      · exact List.prefix_append _ _
  | registerView _ bulk newcomer session =>
      exact Membership.contains_of_prefix_identities
        (Membership.identities_prefix_registerView membership bulk newcomer session) hmember
  | leave _ leaver =>
      have hstays : address.isIn [leaver] = false := by simpa [drops, Address.isIn] using hkept
      exact Membership.contains_dismiss hmember hstays cluster
  | leaveAll _ leavers => exact Membership.contains_dismiss hmember hkept cluster
  | removeSession session clusters =>
      obtain ⟨member, hmem, hsame⟩ := Membership.exists_mem_of_contains hmember
      have hother : member.session ≠ some session := by
        intro hsession
        have hdropped :
            (removeSession session clusters).drops membership address = true := by
          simp only [drops, List.any_eq_true]
          exact ⟨member, hmem, by simp [Address.same, hsame, hsession]⟩
        rw [hkept] at hdropped
        contradiction
      apply Membership.contains_of_mem _ hsame
      change member ∈ (Registry.dismissSession session cluster membership).2.members
      rw [Membership.members_dismissSession]
      exact List.mem_filter.mpr ⟨hmem, by simpa using hother⟩
  | getView _ | route _ | dump => exact hmember

end Operation

end Muster
