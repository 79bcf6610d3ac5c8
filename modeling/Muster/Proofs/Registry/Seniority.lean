import Muster.Proofs.Registry.Exposure

/-!
# Seniority

The members of a cluster stand in the order of their entering.  Whoever enters is placed
behind everybody who is there, and those who enter together stand as they are listed, each
at its first mention.  Nobody who stays is moved: not by joining or registering again, and
not by the departure of others.  Whoever leaves and comes back is a newcomer like any other.

Over a run, the members that have stayed all the time are therefore the first ones, in the
order they had at the beginning.  The coordinator of a view is the first member, so it does
not change until it is removed.
-/

namespace Muster

/-- Whom an operation lists as members of a cluster, in the order in which they enter. -/
def Operation.listed (operation : Operation) (cluster : String) : List Address :=
  match operation with
  | join name address _ => if name = cluster then [address] else []
  | registerView name bulk address _ => if name = cluster then bulk ++ [address] else []
  | _ => []

theorem Operation.listed_of_ne {operation : Operation} {cluster name : String}
    (hname : operation.cluster? = some name) (hne : cluster ≠ name) :
    operation.listed cluster = [] := by
  cases operation with
  | join | registerView =>
      obtain rfl := Option.some.inj hname
      exact if_neg hne.symm
  | _ => rfl

namespace Membership

/-- Those among some addresses who are not members yet, each at its first mention. -/
def newcomers (membership : Membership) (addresses : List Address) : List Address :=
  (addresses.filter fun address => address.uuid ∉ membership.identities).eraseDupsBy Address.same

@[simp] theorem newcomers_nil (membership : Membership) : membership.newcomers [] = [] := by
  rfl

theorem identities_eq_map_addresses (membership : Membership) :
    membership.identities = membership.addresses.map Address.uuid := by
  simp [identities, addresses]

@[simp] theorem addresses_add (membership : Membership) (member : Member) :
    (membership.add member).addresses = membership.addresses ++ [member.address] := by
  simp [addresses, add]

theorem addresses_announce (cluster : String) (membership : Membership) :
    (Registry.announce cluster membership).2.addresses = membership.addresses := by
  rw [addresses, members_announce, addresses]

/-! ## Entering -/

theorem addresses_expect (membership : Membership) (address : Address) :
    (membership.expect address).addresses =
      if address.uuid ∈ membership.identities then membership.addresses
      else membership.addresses ++ [address] := by
  simp only [expect, contains_iff]
  split
  · rfl
  · exact membership.addresses_add ⟨address, none⟩

/-- The first newcomer is let in before the next one is looked at. -/
theorem newcomers_cons (membership : Membership) (address : Address) (others : List Address) :
    membership.newcomers (address :: others) =
      if address.uuid ∈ membership.identities then membership.newcomers others
      else address :: (membership.expect address).newcomers others := by
  unfold newcomers
  split
  next hmember => rw [List.filter_cons_of_neg (by simpa using hmember)]
  next hnew =>
    rw [List.filter_cons_of_pos (by simpa using hnew), List.eraseDupsBy_cons, List.filter_filter,
      identities_expect, if_neg hnew]
    congr 2
    apply List.filter_congr
    intro other _
    simp [Address.same, not_or, and_comm]

theorem not_mem_identities_of_mem_newcomers {membership : Membership}
    {addresses : List Address} {address : Address}
    (hnew : address ∈ membership.newcomers addresses) :
    address.uuid ∉ membership.identities := by
  induction addresses generalizing membership with
  | nil => contradiction
  | cons first addresses ih =>
      rw [newcomers_cons] at hnew
      split at hnew
      · exact ih hnew
      next hfirst =>
        rcases List.mem_cons.mp hnew with rfl | hlater
        · exact hfirst
        · have hgrown : membership.identities <+: (membership.expect first).identities :=
            identities_prefix_foldl_expect [first] membership
          exact fun hmember => ih hlater (hgrown.subset hmember)

theorem addresses_foldl_expect (addresses : List Address) (membership : Membership) :
    (addresses.foldl expect membership).addresses =
      membership.addresses ++ membership.newcomers addresses := by
  induction addresses generalizing membership with
  | nil => simp
  | cons address addresses ih =>
      rw [List.foldl_cons, ih, addresses_expect, newcomers_cons]
      split
      next hmember =>
        have hstay : membership.expect address = membership := by
          rw [expect, if_pos (contains_iff.mpr hmember)]
        rw [hstay]
      · rw [List.append_assoc, List.singleton_append]

/-- Binding a member moves nobody. -/
theorem addresses_bind (membership : Membership) (address : Address) (session : SessionId) :
    (membership.bind address session).addresses = (membership.expect address).addresses := by
  unfold bind expect
  split
  · simp only [addresses, List.map_map]
    apply List.map_congr_left
    intro member _
    simp only [Function.comp_apply]
    split <;> rfl
  · rw [addresses_add, addresses_add]

theorem addresses_registerView (membership : Membership) (bulk : List Address)
    (address : Address) (session : SessionId) :
    (membership.registerView bulk address session).addresses =
      membership.addresses ++ membership.newcomers (bulk ++ [address]) := by
  rw [registerView, addresses_bind, ← addresses_foldl_expect, List.foldl_append]
  rfl

theorem addresses_enroll (membership : Membership) (address : Address) (session : SessionId)
    (cluster : String) :
    (Registry.enroll address session cluster membership).2.addresses =
      membership.addresses ++ membership.newcomers [address] := by
  rw [← addresses_foldl_expect, List.foldl_cons, List.foldl_nil, addresses_expect]
  unfold Registry.enroll join?
  by_cases hmember : membership.contains address = true
  · simp only [hmember, if_true]
    rw [if_pos (contains_iff.mp hmember)]
  · simp only [hmember, Bool.false_eq_true, if_false, addresses_announce, addresses_add]
    rw [if_neg fun hmem => hmember (contains_iff.mpr hmem)]

/-! ## Leaving -/

/-- Who is left after a departure is told by the identities alone. -/
theorem Distinct.addresses_of_filter {before after : Membership} (hdistinct : before.Distinct)
    {stays : Member → Bool} (hmembers : after.members = before.members.filter stays) :
    after.addresses =
      before.addresses.filter fun address => address.uuid ∈ after.identities := by
  rw [addresses, hmembers, addresses, List.filter_map]
  congr 1
  apply List.filter_congr
  intro member hmember
  rw [Bool.eq_iff_iff, Function.comp_apply, decide_eq_true_eq, identities, hmembers,
    List.mem_map]
  constructor
  · exact fun hstays => ⟨member, List.mem_filter.mpr ⟨hmember, hstays⟩, rfl⟩
  · rintro ⟨other, hother, hsame⟩
    obtain ⟨hother, hstays⟩ := List.mem_filter.mp hother
    rwa [← hdistinct.eq_of_uuid_eq hother hmember hsame]

/-! ## One operation -/

/-- Whether one membership comes of another by some departures and then the entrance of those
who are listed: whoever is left stands as before, and the newcomers stand behind. -/
def Succeeds (after before : Membership) (listed : List Address) : Prop :=
  after.addresses =
    (before.addresses.filter fun address => address.uuid ∈ after.identities) ++
      before.newcomers listed

theorem Distinct.succeeds_of_filter {before after : Membership} (hdistinct : before.Distinct)
    {stays : Member → Bool} (hmembers : after.members = before.members.filter stays) :
    after.Succeeds before [] := by
  rw [Succeeds, newcomers_nil, List.append_nil]
  exact hdistinct.addresses_of_filter hmembers

theorem Distinct.succeeds_of_members_eq {before after : Membership} (hdistinct : before.Distinct)
    (hmembers : after.members = before.members) : after.Succeeds before [] := by
  have hall : after.members = before.members.filter fun _ => true := by
    rw [hmembers, List.filter_true]
  exact hdistinct.succeeds_of_filter hall

theorem succeeds_of_entrance {before after : Membership} {listed : List Address}
    (haddresses : after.addresses = before.addresses ++ before.newcomers listed) :
    after.Succeeds before listed := by
  rw [Succeeds, List.filter_eq_self.mpr, haddresses]
  intro address haddress
  rw [decide_eq_true_eq, identities_eq_map_addresses, haddresses]
  exact List.mem_map_of_mem (List.mem_append_left _ haddress)

theorem Succeeds.congr {before after other : Membership} {listed : List Address}
    (hsucceeds : after.Succeeds before listed) (hmembers : other.members = after.members) :
    other.Succeeds before listed := by
  unfold Succeeds addresses identities at hsucceeds ⊢
  rw [hmembers]
  exact hsucceeds

theorem Distinct.succeeds_work {membership : Membership} (hdistinct : membership.Distinct)
    {operation : Operation} {cluster : String} (hcluster : operation.cluster? = some cluster) :
    (operation.work cluster membership).2.Succeeds membership (operation.listed cluster) := by
  cases operation with
  | join name address session =>
      obtain rfl := Option.some.inj hcluster
      apply succeeds_of_entrance
      rw [Operation.listed, if_pos rfl]
      exact membership.addresses_enroll address session name
  | registerView name bulk address session =>
      obtain rfl := Option.some.inj hcluster
      apply succeeds_of_entrance
      rw [Operation.listed, if_pos rfl]
      exact membership.addresses_registerView bulk address session
  | leave name address =>
      exact hdistinct.succeeds_of_filter (members_dismiss [address] cluster membership)
  | leaveAll name addresses =>
      exact hdistinct.succeeds_of_filter (members_dismiss addresses cluster membership)
  | getView | route => exact hdistinct.succeeds_of_members_eq rfl
  | removeSession | dump => contradiction

end Membership

namespace Registry

theorem DistinctMembers.current {registry : Registry} (hdistinct : registry.DistinctMembers)
    (cluster : String) : (registry.current cluster).Distinct := by
  cases hfind : registry.find? cluster with
  | some membership =>
      rw [current_of_find? hfind]
      exact hdistinct cluster membership hfind
  | none =>
      rw [current_of_find?_none hfind]
      exact Membership.distinct_startingFrom _

/-- A removal goes through the clusters that it is given, and each of them loses the members
of the session. -/
theorem members_current_removeSession (registry : Registry) (session : SessionId)
    (clusters : List String) (cluster : String) :
    ((registry.perform (.removeSession session clusters)).2.current cluster).members =
      (registry.current cluster).members.filter fun member =>
        cluster ∉ clusters ∨ member.session ≠ some session := by
  induction clusters generalizing registry with
  | nil => simp [perform, removeSessionAmong]
  | cons name clusters ih =>
      have hfirst : ((registry.withExisting name
          ((Operation.removeSession session clusters).work name)).2.current cluster).members =
          (registry.current cluster).members.filter fun member =>
            cluster ≠ name ∨ member.session ≠ some session := by
        by_cases hname : cluster = name
        · subst hname
          cases hfind : registry.find? cluster with
          | none => simp [withExisting, hfind, current_of_find?_none, Membership.startingFrom]
          | some membership =>
              simp only [withExisting, hfind, current_of_find? hfind, members_current_store]
              change (dismissSession session cluster membership).2.members = _
              rw [Membership.members_dismissSession]
              simp
        · have hsame := find?_withExisting_of_ne hname registry
            ((Operation.removeSession session clusters).work name)
          rw [members_current_congr hsame]
          simp [hname]
      rw [perform_removeSession_cons]
      simp only
      rw [ih, hfirst, List.filter_filter]
      apply List.filter_congr
      intro member _
      simp only [List.mem_cons, not_or]
      grind

/-- Whoever an operation keeps stays in place, and the newcomers follow. -/
theorem succeeds_perform {registry : Registry} (hdistinct : registry.DistinctMembers)
    (operation : Operation) (cluster : String) :
    ((registry.perform operation).2.current cluster).Succeeds (registry.current cluster)
      (operation.listed cluster) := by
  have hbefore := hdistinct.current cluster
  cases hname : operation.cluster? with
  | some name =>
      by_cases hsame : cluster = name
      · subst hsame
        exact (hbefore.succeeds_work hname).congr (members_current_work registry hname)
      · rw [Operation.listed_of_ne hname hsame]
        exact hbefore.succeeds_of_members_eq (members_current_of_ne hname hsame)
  | none =>
      cases operation with
      | removeSession session clusters =>
          exact hbefore.succeeds_of_filter
            (members_current_removeSession registry session clusters cluster)
      | dump => exact hbefore.succeeds_of_members_eq rfl
      | _ => contradiction

/-! ## Staying -/

/-- Whether an identity is a member before every one of some operations, and in the end. -/
def Stays (registry : Registry) (cluster : String) (identity : Uuid) :
    List Operation → Prop
  | [] => identity ∈ (registry.current cluster).identities
  | operation :: operations =>
    identity ∈ (registry.current cluster).identities ∧
      (registry.perform operation).2.Stays cluster identity operations

instance decidableStays (registry : Registry) (cluster : String) (identity : Uuid) :
    (operations : List Operation) → Decidable (registry.Stays cluster identity operations)
  | [] => inferInstanceAs (Decidable (identity ∈ (registry.current cluster).identities))
  | operation :: operations =>
    have := decidableStays (registry.perform operation).2 cluster identity operations
    inferInstanceAs (Decidable (_ ∧ _))

theorem Stays.mem {registry : Registry} {cluster : String} {identity : Uuid}
    {operations : List Operation} (hstays : registry.Stays cluster identity operations) :
    identity ∈ (registry.current cluster).identities := by
  cases operations with
  | nil => exact hstays
  | cons operation operations => exact hstays.1

/-- Whoever does not stay is removed by one of the operations. -/
theorem exists_removing_of_not_stays {registry : Registry} {cluster : String}
    {identity : Uuid} {operations : List Operation}
    (hmember : identity ∈ (registry.current cluster).identities)
    (hgone : ¬registry.Stays cluster identity operations) :
    ∃ before removing after, operations = before ++ removing :: after ∧
      identity ∈ ((registry.after before).current cluster).identities ∧
      identity ∉ (((registry.after before).perform removing).2.current cluster).identities := by
  induction operations generalizing registry with
  | nil => exact (hgone hmember).elim
  | cons operation operations ih =>
      by_cases hnext :
          identity ∈ ((registry.perform operation).2.current cluster).identities
      · obtain ⟨before, removing, after, rfl, hheld, hremoved⟩ :=
          ih hnext fun hstays => hgone ⟨hmember, hstays⟩
        exact ⟨operation :: before, removing, after, rfl, hheld, hremoved⟩
      · exact ⟨[], operation, operations, rfl, hmember, hnext⟩

/-- Those who stay are the first ones in the end, in the order they had. -/
theorem addresses_after {registry : Registry} (hdistinct : registry.DistinctMembers)
    (cluster : String) (operations : List Operation) :
    ∃ others : List Address,
      ((registry.after operations).current cluster).addresses =
        ((registry.current cluster).addresses.filter fun address =>
          registry.Stays cluster address.uuid operations) ++ others ∧
      ∀ other ∈ others, ¬registry.Stays cluster other.uuid operations := by
  induction operations generalizing registry with
  | nil =>
      refine ⟨[], ?_, by simp⟩
      rw [after_nil, List.append_nil, List.filter_eq_self.mpr]
      intro address haddress
      rw [decide_eq_true_eq, Stays, Membership.identities_eq_map_addresses]
      exact List.mem_map_of_mem haddress
  | cons operation operations ih =>
      obtain ⟨others, hlater, hothers⟩ := ih (hdistinct.perform operation)
      let next := (registry.perform operation).2
      let newcomers := (registry.current cluster).newcomers (operation.listed cluster)
      refine ⟨newcomers.filter (fun address =>
        next.Stays cluster address.uuid operations) ++ others, ?_, ?_⟩
      · rw [after_cons, hlater, (succeeds_perform hdistinct operation cluster),
          List.filter_append, List.filter_filter, List.append_assoc]
        congr 1
        apply List.filter_congr
        intro address haddress
        have hmember : address.uuid ∈ (registry.current cluster).identities := by
          rw [Membership.identities_eq_map_addresses]
          exact List.mem_map_of_mem haddress
        rw [Bool.eq_iff_iff, Bool.and_eq_true, decide_eq_true_eq, decide_eq_true_eq,
          decide_eq_true_eq, Stays]
        exact ⟨fun hstays => ⟨hmember, hstays.1⟩, fun hstays => ⟨hstays.2, hstays.2.mem⟩⟩
      · intro other hother hstays
        rcases List.mem_append.mp hother with hnew | hlate
        · exact Membership.not_mem_identities_of_mem_newcomers (List.mem_filter.mp hnew).1
            hstays.mem
        · exact hothers other hlate hstays.2

/-! ## The coordinator -/

/-- Whether a view lists the members of a cluster as they are, with the first of them as
coordinator. -/
structure Portrays (registry : Registry) (cluster : String) (view : View) : Prop where
  members : view.members = (registry.current cluster).addresses
  led : ∃ others, view.members = view.coordinator :: others
  distinct : view.identities.Nodup

theorem portrays_of_mem_shown {registry : Registry} (hdistinct : registry.DistinctMembers)
    {operation : Operation} {cluster : String} {view : View}
    (hshown : .shown cluster view ∈ operation.shown (registry.perform operation).1) :
    (registry.perform operation).2.Portrays cluster view := by
  obtain ⟨membership, hfind, hview⟩ := exists_of_mem_shown hshown
  have hcurrent := current_of_find? hfind
  have hafter := (hdistinct.perform operation).current cluster
  rw [hcurrent] at hafter
  obtain ⟨members, lastViewId⟩ := membership
  cases members with
  | nil => contradiction
  | cons member members =>
      have hbuilt := Option.some.inj hview
      refine ⟨?_, ⟨members.map Member.address, ?_⟩, ?_⟩
      · rw [hcurrent, ← hbuilt]
        rfl
      · rw [← hbuilt]
      · rw [Membership.identities_of_view? hview]
        exact hafter

/-- A coordinator that stays remains the coordinator. -/
theorem Portrays.coordinator_eq {registry : Registry} (hdistinct : registry.DistinctMembers)
    {cluster : String} {earlier later : View} (hearlier : registry.Portrays cluster earlier)
    {operations : List Operation}
    (hlater : (registry.after operations).Portrays cluster later)
    (hstays : registry.Stays cluster earlier.coordinator.uuid operations) :
    earlier.coordinator = later.coordinator := by
  obtain ⟨others, haddresses, -⟩ := addresses_after hdistinct cluster operations
  obtain ⟨followers, hfollowers⟩ := hearlier.led
  obtain ⟨successors, hsuccessors⟩ := hlater.led
  rw [← hearlier.members, hfollowers, List.filter_cons_of_pos (by simpa using hstays),
    ← hlater.members, hsuccessors] at haddresses
  exact (List.cons.inj haddresses).1.symm

theorem Portrays.mem_identities {registry : Registry} {cluster : String} {view : View}
    (hportrays : registry.Portrays cluster view) :
    view.coordinator.uuid ∈ (registry.current cluster).identities := by
  obtain ⟨others, hled⟩ := hportrays.led
  rw [Membership.identities_eq_map_addresses, ← hportrays.members, hled]
  exact List.mem_map_of_mem List.mem_cons_self

/-! ## Seniority -/

/-- How the members of a cluster are ordered from here on, and who leads them. -/
structure Seniority (registry : Registry) (cluster : String) : Prop where
  /-- One operation keeps in place whom it does not remove, and puts newcomers behind them. -/
  entering : ∀ operation,
    let before := registry.current cluster
    let after := (registry.perform operation).2.current cluster
    after.addresses =
      (before.addresses.filter fun address => address.uuid ∈ after.identities) ++
        before.newcomers (operation.listed cluster)
  /-- Those who stay during a run keep their order and come before everybody else. -/
  staying : ∀ operations, ∃ others : List Address,
    ((registry.after operations).current cluster).addresses =
      ((registry.current cluster).addresses.filter fun address =>
        registry.Stays cluster address.uuid operations) ++ others ∧
    ∀ other ∈ others, ¬registry.Stays cluster other.uuid operations
  /-- What is shown are the members as they are. -/
  showing : ∀ operation view,
    .shown cluster view ∈ operation.shown (registry.perform operation).1 →
      (registry.perform operation).2.Portrays cluster view
  /-- A view with another coordinator comes after the removal of the previous one. -/
  leading : ∀ operation between last earlier later,
    .shown cluster earlier ∈ operation.shown (registry.perform operation).1 →
    .shown cluster later ∈
      last.shown ((registry.after (operation :: between)).perform last).1 →
    earlier.coordinator ≠ later.coordinator →
      ∃ before removing after, between ++ [last] = before ++ removing :: after ∧
        earlier.coordinator.uuid ∈
          ((registry.after (operation :: before)).current cluster).identities ∧
        earlier.coordinator.uuid ∉
          ((registry.after (operation :: before ++ [removing])).current cluster).identities

theorem DistinctMembers.seniority {registry : Registry} (hdistinct : registry.DistinctMembers)
    (cluster : String) : registry.Seniority cluster where
  entering operation := succeeds_perform hdistinct operation cluster
  staying operations := addresses_after hdistinct cluster operations
  showing _ _ hshown := portrays_of_mem_shown hdistinct hshown
  leading operation between last earlier later hearlier hlater hchanged := by
    have hfirst := portrays_of_mem_shown hdistinct hearlier
    have hnext := hdistinct.perform operation
    have hlast := portrays_of_mem_shown (hnext.after between) hlater
    rw [← after_snoc] at hlast
    have hgone : ¬(registry.perform operation).2.Stays cluster earlier.coordinator.uuid
        (between ++ [last]) :=
      fun hstays => hchanged (hfirst.coordinator_eq hnext hlast hstays)
    obtain ⟨before, removing, after, hsplit, hheld, hremoved⟩ :=
      exists_removing_of_not_stays hfirst.mem_identities hgone
    refine ⟨before, removing, after, hsplit, hheld, ?_⟩
    rw [List.cons_append, after_cons, after_snoc]
    exact hremoved

/-- Seniority decides the order of members and who coordinates them, in every cluster and
at every point of a run. -/
theorem seniority_decides (capacity : Nat) (history : List Operation) (cluster : String) :
    ((empty capacity).after history).Seniority cluster :=
  ((distinctMembers_empty capacity).after history).seniority cluster

/-- The first member is listed again and leads, and is the last one once it has come back. -/
example :
    let first := Address.ofUuid ⟨0, 1⟩
    let second := Address.ofUuid ⟨0, 2⟩
    let third := Address.ofUuid ⟨0, 3⟩
    let registry := (empty 1).after [.join "a" first ⟨1⟩,
      .registerView "a" [second, first, second] third ⟨2⟩]
    (registry.current "a").addresses = [first, second, third] ∧
      ((registry.after [.leave "a" first, .join "a" first ⟨1⟩]).current "a").addresses =
        [second, third, first] := by
  decide

end Registry

end Muster
