import Muster.Proofs.Membership
import Muster.Proofs.Registry.Operation
import Muster.Proofs.Registry.Table

/-!
# View numbers never go back

The number that the next view of a cluster is counted from lies in one of three
places: with the cluster itself while it lives, in its ledger entry once it is
retired, and in the floor of the ledger when the entry has been forgotten.
`Registry.number` reads whichever place is in charge.

Work on a cluster raises its number by one for every view it makes, and moving
the number from one place to another never lowers it, for no cluster at all:
retiring one cluster may forget the entry of another, whose number is then the
floor.  A step that does this much is an advance, advances compose, and a whole
run is one.
-/

namespace Muster

/-- What work does to the number of a cluster.  Either it is kept and no view is
made, or a single view is made, which carries the next number and shows the
members as they are afterwards. -/
inductive Membership.Moves (cluster : String) (before : Membership) :
    List ViewChange → Membership → Prop
  | quiet {after : Membership} (hsame : after.lastViewId = before.lastViewId) :
      Moves cluster before [] after
  | told {after : Membership} {view : View}
      (hnext : after.lastViewId = before.lastViewId + 1)
      (hview : after.view? = some view) :
      Moves cluster before [⟨cluster, view, after.recipients []⟩] after

namespace Membership

theorem moves_announce (cluster : String) {before membership : Membership}
    (hsame : membership.lastViewId = before.lastViewId) :
    Moves cluster before (Registry.announce cluster membership).1.toList
      (Registry.announce cluster membership).2 := by
  unfold Registry.announce nextView
  cases hempty : membership.isEmpty with
  | true => exact .quiet hsame
  | false =>
      obtain ⟨view, hview⟩ : ∃ view, membership.bumped.view? = some view :=
        exists_view?_of_isEmpty_eq_false hempty
      simp only [Bool.false_eq_true, if_false, hview]
      refine .told ?_ hview
      rw [bumped, hsame]

theorem moves_enroll (cluster : String) (membership : Membership) (address : Address)
    (session : SessionId) :
    Moves cluster membership (Registry.enroll address session cluster membership).1.toList
      (Registry.enroll address session cluster membership).2 := by
  unfold Registry.enroll join?
  by_cases hmember : membership.contains address = true
  · simp only [hmember, if_true]
    exact .quiet rfl
  · simp only [hmember]
    exact moves_announce cluster (lastViewId_add membership _)

theorem moves_dismiss (cluster : String) (membership : Membership) (addresses : List Address) :
    Moves cluster membership (Registry.dismiss addresses cluster membership).1.change.toList
      (Registry.dismiss addresses cluster membership).2 := by
  unfold Registry.dismiss
  simp only
  split
  · exact .quiet (lastViewId_leaveAll addresses membership)
  · exact moves_announce cluster (lastViewId_leaveAll addresses membership)

theorem moves_dismissSession (cluster : String) (membership : Membership)
    (session : SessionId) :
    Moves cluster membership (Registry.dismissSession session cluster membership).1.toList
      (Registry.dismissSession session cluster membership).2 := by
  unfold Registry.dismissSession
  simp only
  split
  · exact .quiet (lastViewId_removeSession membership session)
  · exact moves_announce cluster (lastViewId_removeSession membership session)

end Membership

theorem Operation.moves_work (operation : Operation) (cluster : String)
    (membership : Membership) :
    Membership.Moves cluster membership (operation.work cluster membership).1.announced
      (operation.work cluster membership).2 := by
  cases operation with
  | join _ address session => exact membership.moves_enroll cluster address session
  | registerView _ bulk address session =>
      exact .quiet (membership.lastViewId_registerView bulk address session)
  | leave _ address => exact membership.moves_dismiss cluster [address]
  | leaveAll _ addresses => exact membership.moves_dismiss cluster addresses
  | removeSession session _ => exact membership.moves_dismissSession cluster session
  | getView _ => exact .quiet rfl
  | route _ => exact .quiet rfl
  | dump => exact .quiet rfl

/-! ## Numbers below the highest -/

/-- Whether there is a number after this one. -/
def HasNext (number : UInt64) : Prop :=
  number.toNat + 1 < UInt64.size

instance (number : UInt64) : Decidable (HasNext number) :=
  inferInstanceAs (Decidable (number.toNat + 1 < UInt64.size))

theorem HasNext.lt_add_one {number : UInt64} (hnext : HasNext number) :
    number < number + 1 := by
  have hsum : (number + 1).toNat = number.toNat + 1 := by
    rw [UInt64.toNat_add]
    exact Nat.mod_eq_of_lt hnext
  rw [UInt64.lt_iff_toNat_lt, hsum]
  exact Nat.lt_succ_self _

structure Ledger.Below (ledger : Ledger) : Prop where
  entries : ∀ entry ∈ ledger.entries, HasNext entry.2
  floor : HasNext ledger.floor

namespace Ledger.Below

theorem resume {ledger : Ledger} (hbelow : ledger.Below) (name : String) :
    HasNext (ledger.resume name) := by
  unfold Ledger.resume
  cases hlookup : ledger.entries.lookup name with
  | some id => exact hbelow.entries (name, id) (mem_of_lookup hlookup)
  | none => exact hbelow.floor

theorem take {ledger : Ledger} (hbelow : ledger.Below) (name : String) :
    (ledger.take name).2.Below where
  entries := fun entry hentry => hbelow.entries entry (List.mem_of_mem_filter hentry)
  floor := hbelow.floor

theorem trim {ledger : Ledger} (hbelow : ledger.Below) : ledger.trim.Below where
  entries := fun entry hentry => hbelow.entries entry (List.mem_of_mem_drop hentry)
  floor := by
    have hfold : ∀ (entries : List (String × UInt64)) (floor : UInt64),
        (∀ entry ∈ entries, HasNext entry.2) → HasNext floor →
          HasNext (entries.foldl (fun floor entry => max floor entry.2) floor) := by
      intro entries
      induction entries with
      | nil => exact fun floor _ hfloor => hfloor
      | cons entry entries ih =>
          intro floor hentries hfloor
          apply ih
          · exact fun other hother => hentries other (List.mem_cons_of_mem _ hother)
          · change HasNext (if floor ≤ entry.2 then entry.2 else floor)
            split
            · exact hentries entry List.mem_cons_self
            · exact hfloor
    exact hfold _ _
      (fun entry hentry => hbelow.entries entry (List.mem_of_mem_take hentry)) hbelow.floor

theorem record {ledger : Ledger} (hbelow : ledger.Below) (name : String)
    {lastViewId : UInt64} (hnext : HasNext lastViewId) :
    (ledger.record name lastViewId).Below := by
  apply Ledger.Below.trim
  constructor
  · intro entry hentry
    rcases List.mem_append.mp hentry with hold | hnew
    · exact hbelow.entries entry (List.mem_of_mem_filter hold)
    · rw [List.mem_singleton.mp hnew]
      exact hnext
  · exact hbelow.floor

end Ledger.Below

/-! ## The number of a cluster -/

namespace Registry

/-- The number that the next view of a cluster is counted from. -/
def number (registry : Registry) (cluster : String) : UInt64 :=
  match registry.find? cluster with
  | some membership => membership.lastViewId
  | none => registry.retired.resume cluster

theorem number_of_find? {registry : Registry} {cluster : String} {membership : Membership}
    (hfind : registry.find? cluster = some membership) :
    registry.number cluster = membership.lastViewId := by
  rw [number, hfind]

theorem number_of_find?_none {registry : Registry} {cluster : String}
    (hfind : registry.find? cluster = none) :
    registry.number cluster = registry.retired.resume cluster := by
  rw [number, hfind]

theorem le_number_store_self {registry : Registry} (hdistinct : registry.retired.Distinct)
    (cluster : String) (membership : Membership) :
    membership.lastViewId ≤ (registry.store cluster membership).number cluster := by
  unfold number
  rw [find?_store_self, retired_store]
  cases membership.isEmpty with
  | true => exact Ledger.le_resume_record_self hdistinct cluster membership.lastViewId
  | false => exact UInt64.le_refl _

theorem number_le_number_store_of_ne {registry : Registry}
    (hdistinct : registry.retired.Distinct) {cluster other : String} (hne : other ≠ cluster)
    (membership : Membership) :
    registry.number other ≤ (registry.store cluster membership).number other := by
  unfold number
  rw [find?_store_of_ne registry hne, retired_store]
  cases registry.find? other with
  | some current => exact UInt64.le_refl _
  | none =>
      cases membership.isEmpty with
      | true =>
          exact Ledger.resume_le_resume_record_of_ne hdistinct hne membership.lastViewId
      | false => exact UInt64.le_refl _

/-- Every number of the registry, wherever it lies, has a next one. -/
structure Numbered (registry : Registry) : Prop where
  distinct : registry.retired.Distinct
  live : ∀ cluster membership, registry.find? cluster = some membership →
    HasNext membership.lastViewId
  retired : registry.retired.Below

theorem numbered_empty (capacity : Nat) : (empty capacity).Numbered where
  distinct := Ledger.distinct_empty capacity
  live := fun _ _ hfind => by contradiction
  retired :=
    { entries := fun _ hentry => by contradiction
      floor := (by decide : HasNext 0) }

theorem Numbered.number {registry : Registry} (hnumbered : registry.Numbered)
    (cluster : String) : HasNext (registry.number cluster) := by
  cases hfind : registry.find? cluster with
  | some membership =>
      rw [number_of_find? hfind]
      exact hnumbered.live cluster membership hfind
  | none =>
      rw [number_of_find?_none hfind]
      exact hnumbered.retired.resume cluster

theorem Numbered.take {registry : Registry} (hnumbered : registry.Numbered)
    (cluster : String) :
    ({ registry with retired := (registry.retired.take cluster).2 } : Registry).Numbered where
  distinct := hnumbered.distinct.take cluster
  live := hnumbered.live
  retired := hnumbered.retired.take cluster

theorem Numbered.store {registry : Registry} (hnumbered : registry.Numbered)
    (cluster : String) {membership : Membership} (hnext : HasNext membership.lastViewId) :
    (registry.store cluster membership).Numbered where
  distinct := by
    rw [retired_store]
    split
    · exact hnumbered.distinct.record cluster membership.lastViewId
    · exact hnumbered.distinct
  live := by
    intro other current hfind
    by_cases hother : other = cluster
    · subst hother
      rw [find?_store_self] at hfind
      split at hfind
      · contradiction
      · rw [← Option.some.inj hfind]
        exact hnext
    · rw [find?_store_of_ne registry hother] at hfind
      exact hnumbered.live other current hfind
  retired := by
    rw [retired_store]
    split
    · exact hnumbered.retired.record cluster hnext
    · exact hnumbered.retired

/-! ## Advances -/

/-- From one registry to another no number is lowered.  The views made on the way
are numbered above what came before and not above what comes after, and those
of one cluster are numbered upwards. -/
structure Advances (before : Registry) (changes : List ViewChange) (after : Registry) :
    Prop where
  kept : ∀ cluster, before.number cluster ≤ after.number cluster
  above : ∀ change ∈ changes, before.number change.cluster < change.view.viewId
  within : ∀ change ∈ changes, change.view.viewId ≤ after.number change.cluster
  upwards : changes.Pairwise fun earlier later =>
    earlier.cluster = later.cluster → earlier.view.viewId < later.view.viewId

theorem Advances.refl (registry : Registry) : registry.Advances [] registry where
  kept := fun _ => UInt64.le_refl _
  above := fun _ hchange => by contradiction
  within := fun _ hchange => by contradiction
  upwards := .nil

theorem Advances.trans {first second third : Registry} {earlier later : List ViewChange}
    (hfirst : first.Advances earlier second) (hsecond : second.Advances later third) :
    first.Advances (earlier ++ later) third where
  kept := fun cluster => UInt64.le_trans (hfirst.kept cluster) (hsecond.kept cluster)
  above := by
    intro change hchange
    rcases List.mem_append.mp hchange with hearly | hlate
    · exact hfirst.above change hearly
    · exact UInt64.lt_of_le_of_lt (hfirst.kept change.cluster) (hsecond.above change hlate)
  within := by
    intro change hchange
    rcases List.mem_append.mp hchange with hearly | hlate
    · exact UInt64.le_trans (hfirst.within change hearly) (hsecond.kept change.cluster)
    · exact hsecond.within change hlate
  upwards := by
    rw [List.pairwise_append]
    refine ⟨hfirst.upwards, hsecond.upwards, ?_⟩
    intro early hearly late hlate hcluster
    have hbefore := hfirst.within early hearly
    rw [hcluster] at hbefore
    exact UInt64.lt_of_le_of_lt hbefore (hsecond.above late hlate)

/-- Storing what work has made of a cluster is an advance.  The cluster may have
been taken from the ledger just before, which changes nobody else's number. -/
theorem advances_store {registry base : Registry} {cluster : String}
    {before after : Membership} {changes : List ViewChange}
    (hbase : base.Numbered) (hbefore : HasNext before.lastViewId)
    (hself : registry.number cluster = before.lastViewId)
    (hothers : ∀ other, other ≠ cluster → registry.number other = base.number other)
    (hmoves : Membership.Moves cluster before changes after)
    (hchanges : ∀ change ∈ changes, HasNext change.view.viewId) :
    registry.Advances changes (base.store cluster after) ∧
      (base.store cluster after).Numbered := by
  have hstored := le_number_store_self hbase.distinct cluster after
  have hkept (hle : before.lastViewId ≤ after.lastViewId) (name : String) :
      registry.number name ≤ (base.store cluster after).number name := by
    by_cases hname : name = cluster
    · rw [hname, hself]
      exact UInt64.le_trans hle hstored
    · rw [hothers name hname]
      exact number_le_number_store_of_ne hbase.distinct hname after
  cases hmoves with
  | quiet hsame =>
      have hle : before.lastViewId ≤ after.lastViewId := by
        rw [hsame]
        exact UInt64.le_refl _
      refine ⟨⟨hkept hle, ?_, ?_, .nil⟩, hbase.store cluster (hsame ▸ hbefore)⟩
      · exact fun change hchange => by contradiction
      · exact fun change hchange => by contradiction
  | @told _ view hnext hview =>
      have hviewId : view.viewId = after.lastViewId := Membership.viewId_of_view? hview
      have hlt : before.lastViewId < after.lastViewId := by
        rw [hnext]
        exact hbefore.lt_add_one
      have hafter : HasNext after.lastViewId := by
        rw [← hviewId]
        exact hchanges _ List.mem_cons_self
      refine ⟨⟨hkept (UInt64.le_of_lt hlt), ?_, ?_, List.pairwise_singleton _ _⟩,
        hbase.store cluster hafter⟩
      · intro change hchange
        rw [List.mem_singleton.mp hchange]
        simp only
        rw [hself, hviewId]
        exact hlt
      · intro change hchange
        rw [List.mem_singleton.mp hchange]
        simp only
        rw [hviewId]
        exact hstored

theorem advances_withExisting {registry : Registry} (hnumbered : registry.Numbered)
    (cluster : String) (operation : Operation)
    (hchanges : ∀ change ∈
      ((registry.withExisting cluster (operation.work cluster)).1.getD
        operation.fallback).announced, HasNext change.view.viewId) :
    registry.Advances
        ((registry.withExisting cluster (operation.work cluster)).1.getD
          operation.fallback).announced
        (registry.withExisting cluster (operation.work cluster)).2 ∧
      (registry.withExisting cluster (operation.work cluster)).2.Numbered := by
  revert hchanges
  unfold withExisting
  cases hfind : registry.find? cluster with
  | none =>
      intro _
      simp only [Option.getD_none, Operation.announced_fallback]
      exact ⟨Advances.refl registry, hnumbered⟩
  | some membership =>
      exact advances_store hnumbered (hnumbered.live cluster membership hfind)
        (number_of_find? hfind) (fun _ _ => rfl) (operation.moves_work cluster membership)

theorem advances_withCluster {registry : Registry} (hnumbered : registry.Numbered)
    (cluster : String) (operation : Operation)
    (hchanges : ∀ change ∈
      (registry.withCluster cluster (operation.work cluster)).1.announced,
        HasNext change.view.viewId) :
    registry.Advances (registry.withCluster cluster (operation.work cluster)).1.announced
        (registry.withCluster cluster (operation.work cluster)).2 ∧
      (registry.withCluster cluster (operation.work cluster)).2.Numbered := by
  revert hchanges
  unfold withCluster
  cases hfind : registry.find? cluster with
  | none =>
      have hself := number_of_find?_none hfind
      refine advances_store (hnumbered.take cluster) (hnumbered.retired.resume cluster) hself
        ?_ (operation.moves_work cluster _)
      intro other hne
      unfold number find?
      rw [Ledger.resume_take_of_ne registry.retired hne]
  | some membership =>
      exact advances_store hnumbered (hnumbered.live cluster membership hfind)
        (number_of_find? hfind) (fun _ _ => rfl) (operation.moves_work cluster membership)

theorem advances_removeSession (session : SessionId) (clusters : List String)
    {registry : Registry} (hnumbered : registry.Numbered)
    (hchanges : ∀ change ∈
      (registry.perform (.removeSession session clusters)).1.announced,
        HasNext change.view.viewId) :
    registry.Advances (registry.perform (.removeSession session clusters)).1.announced
        (registry.perform (.removeSession session clusters)).2 ∧
      (registry.perform (.removeSession session clusters)).2.Numbered := by
  induction clusters generalizing registry with
  | nil => exact ⟨Advances.refl registry, hnumbered⟩
  | cons cluster clusters ih =>
      rw [perform_removeSession_cons] at hchanges ⊢
      obtain ⟨hfirst, hnumberedFirst⟩ :=
        advances_withExisting hnumbered cluster (.removeSession session clusters)
          fun change hchange => hchanges change (List.mem_append_left _ hchange)
      obtain ⟨hrest, hnumberedRest⟩ :=
        ih hnumberedFirst fun change hchange =>
          hchanges change (List.mem_append_right _ hchange)
      exact ⟨hfirst.trans hrest, hnumberedRest⟩

/-- Every operation is an advance. -/
theorem advances_perform {registry : Registry} (hnumbered : registry.Numbered)
    (operation : Operation)
    (hchanges : ∀ change ∈ (registry.perform operation).1.announced,
      HasNext change.view.viewId) :
    registry.Advances (registry.perform operation).1.announced (registry.perform operation).2 ∧
      (registry.perform operation).2.Numbered := by
  cases hcluster : operation.cluster? with
  | none =>
      cases operation with
      | removeSession session clusters =>
          exact advances_removeSession session clusters hnumbered hchanges
      | dump => exact ⟨Advances.refl registry, hnumbered⟩
      | _ => contradiction
  | some cluster =>
      cases hcreates : operation.creates with
      | true =>
          rw [perform_of_creates registry hcluster hcreates] at hchanges ⊢
          exact advances_withCluster hnumbered cluster operation hchanges
      | false =>
          rw [perform_of_existing registry hcluster hcreates] at hchanges ⊢
          exact advances_withExisting hnumbered cluster operation hchanges

/-- So is a whole run. -/
theorem advances_after {registry : Registry} (hnumbered : registry.Numbered)
    (operations : List Operation)
    (hchanges : ∀ change ∈ registry.announcements operations, HasNext change.view.viewId) :
    registry.Advances (registry.announcements operations) (registry.after operations) := by
  induction operations generalizing registry with
  | nil => exact Advances.refl registry
  | cons operation operations ih =>
      obtain ⟨hfirst, hnumberedFirst⟩ :=
        advances_perform hnumbered operation fun change hchange =>
          hchanges change (List.mem_append_left _ hchange)
      have hrest := ih hnumberedFirst fun change hchange =>
        hchanges change (List.mem_append_right _ hchange)
      exact hfirst.trans hrest

theorem Numbered.after {registry : Registry} (hnumbered : registry.Numbered)
    (operations : List Operation)
    (hchanges : ∀ change ∈ registry.announcements operations, HasNext change.view.viewId) :
    (registry.after operations).Numbered := by
  induction operations generalizing registry with
  | nil => exact hnumbered
  | cons operation operations ih =>
      have hfirst := advances_perform hnumbered operation fun change hchange =>
        hchanges change (List.mem_append_left _ hchange)
      exact ih hfirst.2 fun change hchange => hchanges change (List.mem_append_right _ hchange)

/-- The numbers of the views made for one cluster, in the order of their making. -/
def numbersOf (cluster : String) (changes : List ViewChange) : List UInt64 :=
  (changes.filter fun change => change.cluster = cluster).map fun change => change.view.viewId

theorem Advances.pairwise_numbersOf {before after : Registry} {changes : List ViewChange}
    (hadvances : before.Advances changes after) (cluster : String) :
    (numbersOf cluster changes).Pairwise (· < ·) := by
  unfold numbersOf
  rw [List.pairwise_map, List.pairwise_filter]
  refine hadvances.upwards.imp ?_
  intro earlier later hlt hearlier hlater
  simp only [decide_eq_true_eq] at hearlier hlater
  exact hlt (hearlier.trans hlater.symm)

/-- In every run that starts without clusters, the views of one cluster are
numbered strictly upwards, across all its retirements and whatever the ledger
has forgotten in between.  A counter moves only when a view is made with the new
number, so the hypothesis says that no counter has reached the highest one. -/
theorem viewNumbers_increase (capacity : Nat) (operations : List Operation)
    (hchanges : ∀ change ∈ (empty capacity).announcements operations,
      HasNext change.view.viewId) :
    empty 0 = empty 1 ∧
      ∀ cluster,
        (numbersOf cluster ((empty capacity).announcements operations)).Pairwise (· < ·) :=
  ⟨rfl, (advances_after (numbered_empty capacity) operations hchanges).pairwise_numbersOf⟩

/-- The first cluster comes back after its entry has been forgotten. -/
theorem viewNumbers_increase_past_floor :
    let operations : List Operation :=
      [.join "a" (.ofUuid ⟨0, 1⟩) ⟨1⟩, .leave "a" (.ofUuid ⟨0, 1⟩),
        .join "b" (.ofUuid ⟨0, 1⟩) ⟨1⟩, .join "b" (.ofUuid ⟨0, 2⟩) ⟨2⟩,
        .leaveAll "b" [.ofUuid ⟨0, 1⟩, .ofUuid ⟨0, 2⟩], .join "a" (.ofUuid ⟨0, 1⟩) ⟨1⟩]
    (∀ change ∈ (empty 1).announcements operations, HasNext change.view.viewId) ∧
      numbersOf "a" ((empty 1).announcements operations) = [1, 2] ∧
      empty 0 = empty 1 ∧
      ∀ cluster, (numbersOf cluster ((empty 1).announcements operations)).Pairwise (· < ·) :=
  ⟨by decide, by decide, viewNumbers_increase 1 _ (by decide)⟩

end Registry

end Muster
