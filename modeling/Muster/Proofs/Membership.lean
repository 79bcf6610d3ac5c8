import Mathlib.Data.List.Nodup
import Mathlib.Data.List.Basic
import Muster.Membership

/-!
# Identities and numbers of a membership

A membership is read in two ways: as the identities of its members in order, and
as the number of its latest view.  The equations below say what every operation
on members does to either reading.  Whether somebody is a member is a matter of
identities alone.
-/

namespace Muster

theorem Address.same_iff {a b : Address} : a.same b = true ↔ a.uuid = b.uuid := by
  simp [Address.same]

theorem Address.isIn_iff {address : Address} {addresses : List Address} :
    address.isIn addresses = true ↔ ∃ other ∈ addresses, address.uuid = other.uuid := by
  simp [Address.isIn, Address.same]

theorem Address.isIn_congr {first second : Address} (hsame : first.uuid = second.uuid)
    (addresses : List Address) : first.isIn addresses = second.isIn addresses := by
  have hsames : first.same = second.same := by
    funext other
    simp [Address.same, hsame]
  rw [Address.isIn, Address.isIn, hsames]

namespace Membership

/-- The identities of the members in order of seniority. -/
def identities (membership : Membership) : List Uuid :=
  membership.members.map fun member => member.address.uuid

/-- No identity stands for two members. -/
def Distinct (membership : Membership) : Prop :=
  membership.identities.Nodup

theorem Distinct.eq_of_uuid_eq {membership : Membership} (hdistinct : membership.Distinct)
    {first second : Member} (hfirst : first ∈ membership.members)
    (hsecond : second ∈ membership.members)
    (hsame : first.address.uuid = second.address.uuid) : first = second :=
  List.inj_on_of_nodup_map hdistinct hfirst hsecond hsame

theorem contains_iff {membership : Membership} {address : Address} :
    membership.contains address = true ↔ address.uuid ∈ membership.identities := by
  simp only [contains, find?, List.find?_isSome, Address.same_iff, identities, List.mem_map]
  constructor
  · rintro ⟨member, hmember, hsame⟩
    exact ⟨member, hmember, hsame.symm⟩
  · rintro ⟨member, hmember, hsame⟩
    exact ⟨member, hmember, hsame.symm⟩

theorem exists_mem_of_contains {membership : Membership} {address : Address}
    (hcontains : membership.contains address = true) :
    ∃ member ∈ membership.members, member.address.uuid = address.uuid :=
  List.mem_map.mp (contains_iff.mp hcontains)

theorem contains_of_mem {membership : Membership} {member : Member} {address : Address}
    (hmember : member ∈ membership.members) (hsame : member.address.uuid = address.uuid) :
    membership.contains address = true :=
  contains_iff.mpr (List.mem_map.mpr ⟨member, hmember, hsame⟩)

theorem isEmpty_iff {membership : Membership} :
    membership.isEmpty = true ↔ membership.identities = [] := by
  simp [isEmpty, identities]

theorem isEmpty_eq_false_of_mem
    {membership : Membership} {identity : Uuid} (hmem : identity ∈ membership.identities) :
    membership.isEmpty = false := by
  rw [Bool.eq_false_iff]
  intro hempty
  rw [isEmpty_iff.mp hempty] at hmem
  exact List.not_mem_nil hmem

@[simp] theorem identities_startingFrom (lastViewId : UInt64) :
    (startingFrom lastViewId).identities = [] := by
  rfl

theorem distinct_startingFrom (lastViewId : UInt64) : (startingFrom lastViewId).Distinct :=
  List.nodup_nil

@[simp] theorem lastViewId_startingFrom (lastViewId : UInt64) :
    (startingFrom lastViewId).lastViewId = lastViewId := by
  rfl

@[simp] theorem isEmpty_startingFrom (lastViewId : UInt64) :
    (startingFrom lastViewId).isEmpty = true := by
  rfl

/-! ## Entering -/

@[simp] theorem identities_add (membership : Membership) (member : Member) :
    (membership.add member).identities =
      membership.identities ++ [member.address.uuid] := by
  simp [add, identities]

@[simp] theorem lastViewId_add (membership : Membership) (member : Member) :
    (membership.add member).lastViewId = membership.lastViewId := by
  rfl

theorem identities_expect (membership : Membership) (address : Address) :
    (membership.expect address).identities =
      if address.uuid ∈ membership.identities then membership.identities
      else membership.identities ++ [address.uuid] := by
  simp only [expect, contains_iff]
  split
  · rfl
  · exact identities_add membership ⟨address, none⟩

@[simp] theorem lastViewId_expect (membership : Membership) (address : Address) :
    (membership.expect address).lastViewId = membership.lastViewId := by
  unfold expect
  split
  · rfl
  · exact lastViewId_add membership ⟨address, none⟩

theorem identities_bind (membership : Membership) (address : Address) (session : SessionId) :
    (membership.bind address session).identities =
      if address.uuid ∈ membership.identities then membership.identities
      else membership.identities ++ [address.uuid] := by
  simp only [bind, contains_iff]
  split
  · simp only [identities, List.map_map]
    apply List.map_congr_left
    intro member _
    simp only [Function.comp_apply]
    split <;> rfl
  · exact identities_add membership ⟨address, some session⟩

@[simp] theorem lastViewId_bind
    (membership : Membership) (address : Address) (session : SessionId) :
    (membership.bind address session).lastViewId = membership.lastViewId := by
  unfold bind
  split
  · rfl
  · exact lastViewId_add membership ⟨address, some session⟩

@[simp] theorem lastViewId_foldl_expect (bulk : List Address) (membership : Membership) :
    (bulk.foldl expect membership).lastViewId = membership.lastViewId := by
  induction bulk generalizing membership with
  | nil => rfl
  | cons address bulk ih =>
      rw [List.foldl_cons, ih, lastViewId_expect]

@[simp] theorem lastViewId_registerView
    (membership : Membership) (bulk : List Address) (address : Address) (session : SessionId) :
    (membership.registerView bulk address session).lastViewId = membership.lastViewId := by
  rw [registerView, lastViewId_bind, lastViewId_foldl_expect]

/-- Whoever is a member already stays one when somebody is expected. -/
theorem identities_prefix_foldl_expect (bulk : List Address) (membership : Membership) :
    membership.identities <+: (bulk.foldl expect membership).identities := by
  induction bulk generalizing membership with
  | nil => exact List.prefix_rfl
  | cons address bulk ih =>
      rw [List.foldl_cons]
      refine List.IsPrefix.trans ?_ (ih (membership.expect address))
      rw [identities_expect]
      split
      · exact List.prefix_rfl
      · exact List.prefix_append _ _

theorem identities_prefix_bind
    (membership : Membership) (address : Address) (session : SessionId) :
    membership.identities <+: (membership.bind address session).identities := by
  rw [identities_bind]
  split
  · exact List.prefix_rfl
  · exact List.prefix_append _ _

theorem mem_identities_bind
    (membership : Membership) (address : Address) (session : SessionId) :
    address.uuid ∈ (membership.bind address session).identities := by
  rw [identities_bind]
  split
  next hmem => exact hmem
  · simp

theorem identities_prefix_registerView
    (membership : Membership) (bulk : List Address) (address : Address) (session : SessionId) :
    membership.identities <+: (membership.registerView bulk address session).identities :=
  (identities_prefix_foldl_expect bulk membership).trans (identities_prefix_bind _ _ _)

theorem mem_identities_registerView
    (membership : Membership) (bulk : List Address) (address : Address) (session : SessionId) :
    address.uuid ∈ (membership.registerView bulk address session).identities :=
  mem_identities_bind _ _ _

theorem Distinct.expect {membership : Membership} (hdistinct : membership.Distinct)
    (address : Address) : (membership.expect address).Distinct := by
  unfold Distinct
  rw [identities_expect]
  split
  · exact hdistinct
  next hmem =>
    rw [← List.concat_eq_append]
    exact List.Nodup.concat hmem hdistinct

theorem Distinct.bind {membership : Membership} (hdistinct : membership.Distinct)
    (address : Address) (session : SessionId) : (membership.bind address session).Distinct := by
  unfold Distinct
  rw [identities_bind]
  split
  · exact hdistinct
  next hmem =>
    rw [← List.concat_eq_append]
    exact List.Nodup.concat hmem hdistinct

theorem Distinct.registerView {membership : Membership} (hdistinct : membership.Distinct)
    (bulk : List Address) (address : Address) (session : SessionId) :
    (membership.registerView bulk address session).Distinct := by
  have hfold : (bulk.foldl Membership.expect membership).Distinct := by
    induction bulk generalizing membership with
    | nil => exact hdistinct
    | cons first bulk ih => exact ih (hdistinct.expect first)
  exact hfold.bind address session

/-! ## Leaving -/

theorem Distinct.of_members_sublist {before after : Membership} (hdistinct : before.Distinct)
    (hsublist : after.members.Sublist before.members) : after.Distinct :=
  hdistinct.sublist (hsublist.map _)

theorem Distinct.leave {membership : Membership} (hdistinct : membership.Distinct)
    (address : Address) : (membership.leave address).2.Distinct :=
  hdistinct.of_members_sublist List.filter_sublist

@[simp] theorem lastViewId_leave (membership : Membership) (address : Address) :
    (membership.leave address).2.lastViewId = membership.lastViewId := by
  rfl

@[simp] theorem lastViewId_leaveAll (addresses : List Address) (membership : Membership) :
    (membership.leaveAll addresses).2.lastViewId = membership.lastViewId := by
  induction addresses generalizing membership with
  | nil => rfl
  | cons address addresses ih =>
      simp only [leaveAll]
      rw [ih, lastViewId_leave]

@[simp] theorem lastViewId_removeSession (membership : Membership) (session : SessionId) :
    (membership.removeSession session).2.lastViewId = membership.lastViewId := by
  rfl

/-! ## Views -/

theorem viewId_of_view? {membership : Membership} {view : View}
    (hview : membership.view? = some view) : view.viewId = membership.lastViewId := by
  unfold view? View.ofMembers? at hview
  split at hview
  · contradiction
  · rw [← Option.some.inj hview]

theorem exists_view?_of_isEmpty_eq_false {membership : Membership}
    (hmembers : membership.isEmpty = false) : ∃ view, membership.view? = some view := by
  obtain ⟨members, lastViewId⟩ := membership
  cases members with
  | nil => simp [isEmpty] at hmembers
  | cons member members => exact ⟨_, rfl⟩

end Membership

end Muster
