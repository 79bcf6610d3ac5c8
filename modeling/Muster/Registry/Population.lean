import Muster.Membership.Size
import Muster.Registry.Basic

/-!
# How many members a registry has

The population of a registry is the sum over its clusters.  An operation on one
cluster moves it by what the members of that cluster move: a join adds at most
one, seeding a cluster adds at most the members of the view and the one that
brings it, and every departure that is reported is one member less.
-/

namespace Muster.Registry

/-- Replacing a cluster exchanges its old size for the new one. -/
theorem total_replace (cluster : String) (membership : Membership)
    (clusters : List (String × Membership)) :
    total ((replace cluster membership clusters).map fun entry => entry.2.size) +
        (clusters.lookup cluster).elim 0 Membership.size =
      total (clusters.map fun entry => entry.2.size) + membership.size := by
  induction clusters with
  | nil => simp [replace]
  | cons entry clusters ih =>
      obtain ⟨name, other⟩ := entry
      by_cases hname : name = cluster
      · subst hname
        simp [replace]
        omega
      · have hother : (cluster == name) = false := by simpa using fun hsame => hname hsame.symm
        simp only [replace, hname, if_false, List.map_cons, total_cons, List.lookup_cons, hother]
        omega

theorem total_erase_le (cluster : String) (clusters : List (String × Membership)) :
    total ((clusters.filter fun entry => entry.1 ≠ cluster).map fun entry => entry.2.size) +
        (clusters.lookup cluster).elim 0 Membership.size ≤
      total (clusters.map fun entry => entry.2.size) := by
  induction clusters with
  | nil => simp
  | cons entry clusters ih =>
      obtain ⟨name, other⟩ := entry
      by_cases hname : name = cluster
      · subst hname
        simp at ih ⊢
        omega
      · have hother : (cluster == name) = false := by simpa using fun hsame => hname hsame.symm
        simp only [List.lookup_cons, hother, List.map_cons, total_cons, ne_eq, hname,
          not_false_eq_true, decide_true, List.filter_cons_of_pos]
        simp only [ne_eq] at ih
        omega

theorem population_store_le (registry : Registry) (cluster : String) (membership : Membership) :
    (registry.store cluster membership).population +
        (registry.find? cluster).elim 0 Membership.size ≤
      registry.population + membership.size := by
  unfold store
  split
  · have herased := total_erase_le cluster registry.clusters
    simp only [population, find?]
    omega
  · have hreplaced := total_replace cluster membership registry.clusters
    simp only [population, find?]
    omega

/-- Work that adds at most `room` members to a cluster adds as many at most to
the registry. -/
theorem population_withCluster_le {α : Type} (registry : Registry) (cluster : String)
    (work : Membership → α × Membership) (room : Nat)
    (hgrows : ∀ membership, (work membership).2.size ≤ membership.size + room) :
    (registry.withCluster cluster work).2.population ≤ registry.population + room := by
  unfold withCluster
  split
  next membership hfound =>
    have hstored := population_store_le registry cluster (work membership).2
    have hgrown := hgrows membership
    simp only [hfound, Option.elim_some] at hstored
    simp only
    omega
  next habsent =>
    have hstored := population_store_le
      { registry with retired := (registry.retired.take cluster).2 } cluster
      (work (.startingFrom (registry.retired.take cluster).1)).2
    have hgrown := hgrows (.startingFrom (registry.retired.take cluster).1)
    simp only [population] at hstored ⊢
    simp only [Membership.startingFrom, Membership.size, List.length_nil] at hgrown
    simp only [Membership.size, Membership.startingFrom] at hstored ⊢
    omega

/-- Work on a cluster that weighs no more than the members it removes weighs no
more than those that the registry loses. -/
theorem population_withExisting_le {α : Type} (registry : Registry) (cluster : String)
    (work : Membership → α × Membership) (weight : α → Nat)
    (hshrinks : ∀ membership,
      weight (work membership).1 + (work membership).2.size ≤ membership.size) :
    (registry.withExisting cluster work).1.elim 0 weight +
      (registry.withExisting cluster work).2.population ≤ registry.population := by
  unfold withExisting
  split
  next membership hfound =>
    have hstored := population_store_le registry cluster (work membership).2
    have hshrunk := hshrinks membership
    simp only [hfound, Option.elim_some] at hstored ⊢
    omega
  next habsent => simp

theorem size_announce (cluster : String) (membership : Membership) :
    (announce cluster membership).2.size = membership.size :=
  membership.size_nextView

theorem size_enroll_le (address : Address) (session : SessionId) (cluster : String)
    (membership : Membership) :
    (enroll address session cluster membership).2.size ≤ membership.size + 1 := by
  unfold enroll Membership.join?
  by_cases hcontains : membership.contains address
  · simp [hcontains]
  · simp [hcontains, size_announce, Membership.size_add]

theorem population_join_le (registry : Registry) (cluster : String) (address : Address)
    (session : SessionId) :
    (registry.join cluster address session).2.population ≤ registry.population + 1 :=
  registry.population_withCluster_le cluster _ 1 (size_enroll_le address session cluster)

theorem population_registerView_le (registry : Registry) (cluster : String) (bulk : List Address)
    (address : Address) (session : SessionId) :
    (registry.registerView cluster bulk address session).population ≤
      registry.population + (bulk.length + 1) := by
  apply population_withCluster_le
  intro membership
  have hbound := membership.size_registerView_le bulk address session
  omega

theorem size_dismiss_le (addresses : List Address) (cluster : String) (membership : Membership) :
    (dismiss addresses cluster membership).1.departed.length +
      (dismiss addresses cluster membership).2.size ≤ membership.size := by
  have hbound := membership.size_leaveAll_le addresses
  unfold dismiss
  simp only
  split
  · simp only [Departure.nothing, List.length_nil]
    omega
  · simp only [size_announce]
    omega

theorem population_leaveAll_le (registry : Registry) (cluster : String)
    (addresses : List Address) :
    (registry.leaveAll cluster addresses).1.departed.length +
      (registry.leaveAll cluster addresses).2.population ≤ registry.population := by
  have hbound := registry.population_withExisting_le cluster (dismiss addresses cluster)
    (fun departure => departure.departed.length) (size_dismiss_le addresses cluster)
  simp only [leaveAll]
  cases hdismissed : (registry.withExisting cluster (dismiss addresses cluster)).1 with
  | none =>
      simpa only [hdismissed, Option.elim_none, Option.getD_none, Departure.nothing,
        List.length_nil] using hbound
  | some departure => simpa only [hdismissed, Option.elim_some, Option.getD_some] using hbound

theorem leaveAll_eq_nothing (registry : Registry) (cluster : String) (addresses : List Address)
    (hnobody : (registry.leaveAll cluster addresses).1.departed = []) :
    (registry.leaveAll cluster addresses).1 = .nothing := by
  revert hnobody
  simp only [leaveAll, withExisting]
  cases registry.find? cluster with
  | none => intro; rfl
  | some membership =>
      by_cases hnobody : (membership.leaveAll addresses).1 = [] <;> simp [dismiss, hnobody]

theorem size_dismissSession_le (session : SessionId) (cluster : String)
    (membership : Membership) :
    (dismissSession session cluster membership).1.toList.length +
      (dismissSession session cluster membership).2.size ≤ membership.size := by
  have hbound := membership.size_removeSession session
  unfold dismissSession
  simp only
  split
  · simp only [Option.toList_none, List.length_nil]
    omega
  next hnonempty =>
    rw [size_announce]
    have hpositive : 0 < (membership.removeSession session).1.length := by
      cases hremoved : (membership.removeSession session).1 with
      | nil => simp [hremoved] at hnonempty
      | cons => simp
    have hone : (announce cluster (membership.removeSession session).2).1.toList.length ≤ 1 := by
      cases (announce cluster (membership.removeSession session).2).1 <;> simp
    omega

theorem population_removeSessionAmong_le (session : SessionId) (clusters : List String)
    (registry : Registry) :
    (removeSessionAmong session clusters registry).1.length +
      (removeSessionAmong session clusters registry).2.population ≤ registry.population := by
  induction clusters generalizing registry with
  | nil => simp [removeSessionAmong]
  | cons cluster clusters ih =>
      have hhead := registry.population_withExisting_le cluster (dismissSession session cluster)
        (fun change? => change?.toList.length) (size_dismissSession_le session cluster)
      have htail := ih (registry.withExisting cluster (dismissSession session cluster)).2
      have hjoined : (registry.withExisting cluster
          (dismissSession session cluster)).1.join.toList.length =
          (registry.withExisting cluster (dismissSession session cluster)).1.elim 0
            fun change? => change?.toList.length := by
        cases (registry.withExisting cluster (dismissSession session cluster)).1 <;> rfl
      simp only [removeSessionAmong, List.length_append]
      omega

theorem population_removeSession_le (registry : Registry) (session : SessionId) :
    (registry.removeSession session).1.length + (registry.removeSession session).2.population ≤
      registry.population :=
  population_removeSessionAmong_le session _ registry

theorem population_getView_le (registry : Registry) (cluster : String) :
    (registry.getView cluster).2.population ≤ registry.population := by
  have hbound := registry.population_withExisting_le cluster
    (fun membership => (membership.view?, membership)) (fun _ => 0) (by intro; simp)
  exact Nat.le_trans (Nat.le_add_left _ _) hbound

theorem population_route_le (registry : Registry) (envelope : Envelope) :
    (registry.route envelope).2.population ≤ registry.population := by
  unfold route
  exact Nat.le_trans (Nat.le_add_left _ _)
    (registry.population_withExisting_le envelope.cluster _ (fun _ => 0) (by intro; simp))

end Muster.Registry
