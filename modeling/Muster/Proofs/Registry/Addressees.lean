import Muster.Proofs.Registry.Exposure

/-!
# Whom an envelope is for

An envelope with a destination is for the member of this identity, and its list of
exclusions does not count.  An envelope without one is for all members that are not
excluded, and so for its sender as well.  In either case a member that no session reaches
is left out.

Routing an envelope finds exactly these members and leaves the registry as it is, as no
cluster of a registry is ever without members.
-/

namespace Muster

theorem Address.not_isIn_eq (address : Address) (addresses : List Address) :
    (!address.isIn addresses) = decide (address.uuid ∉ addresses.map Address.uuid) := by
  rw [Bool.eq_iff_iff, Bool.not_eq_true', ← Bool.not_eq_true, isIn_iff]
  simp [eq_comm]

namespace Membership

end Membership

namespace Registry

/-! ## No cluster without members -/

def Occupied (registry : Registry) : Prop :=
  registry.Throughout fun _ membership => membership.isEmpty = false

theorem occupied_empty (capacity : Nat) : (empty capacity).Occupied :=
  fun _ _ hfind => by contradiction

theorem Occupied.store {registry : Registry} (hoccupied : registry.Occupied) (cluster : String)
    (membership : Membership) : (registry.store cluster membership).Occupied := by
  intro other found hfind
  by_cases hother : other = cluster
  · subst hother
    rw [find?_store_self] at hfind
    split at hfind
    · contradiction
    next hmembers =>
      rw [← Option.some.inj hfind]
      simpa using hmembers
  · rw [find?_store_of_ne registry hother] at hfind
    exact hoccupied other found hfind

theorem Occupied.perform {registry : Registry} (hoccupied : registry.Occupied)
    (operation : Operation) : (registry.perform operation).2.Occupied :=
  perform_keeps (fun _ cluster membership hbefore => hbefore.store cluster membership)
    (fun _ _ hbefore => hbefore) hoccupied operation

theorem Occupied.after {registry : Registry} (hoccupied : registry.Occupied)
    (operations : List Operation) : (registry.after operations).Occupied :=
  after_keeps (fun _ operation hbefore => hbefore.perform operation) hoccupied operations

/-! ## Routing -/

variable {registry : Registry} {membership : Membership} {envelope : Envelope}

theorem route_of_find? (hfind : registry.find? envelope.cluster = some membership)
    (hmembers : membership.isEmpty = false) :
    registry.route envelope = (direct envelope membership, registry) := by
  simp only [route, withExisting, hfind, store_of_find? hfind hmembers, Option.getD_some]

theorem route_of_find?_none (hfind : registry.find? envelope.cluster = none) :
    registry.route envelope = (.unknownCluster, registry) := by
  simp only [route, withExisting, hfind, Option.getD_none]

end Registry

end Muster
