import Muster.Proofs.Registry.Binding

/-!
# Views that are shown

A view is shown when it is made and when somebody asks for it.  Either way it is
the view that the cluster has at that moment, so two views with one number differ
only if the members have changed in between and the number has not.  Joining and
leaving make a new view whenever somebody is left to see it.  A registration makes
none: whoever it brings in shows up under a number that has been used before.

`Registry.chronicle` lists what a run shows, with a mark wherever a registration
brings somebody in.  Between two such marks a number stands for one view.
-/

namespace Muster

def View.identities (view : View) : List Uuid :=
  view.members.map Address.uuid

/-- What there is to know about a run from outside. -/
inductive Notice
  /-- a view is made, or read -/
  | shown (cluster : String) (view : View)
  /-- a registration brings somebody in, and nobody is told -/
  | seeded (cluster : String)
  deriving DecidableEq, Repr

/-- An item of two lists in a row stands either behind the first one or in it. -/
theorem split_append {α : Type} {first second before rest : List α} {item : α}
    (happend : first ++ second = before ++ item :: rest) :
    (∃ beyond, before = first ++ beyond ∧ second = beyond ++ item :: rest) ∨
      (∃ tail, first = before ++ item :: tail ∧ rest = tail ++ second) := by
  rcases List.append_eq_append_iff.mp happend with
    ⟨beyond, hbefore, hsecond⟩ | ⟨within, hfirst, hrest⟩
  · exact Or.inl ⟨beyond, hbefore, hsecond⟩
  · cases within with
    | nil => exact Or.inl ⟨[], by simpa using hfirst.symm, by simpa using hrest.symm⟩
    | cons other tail =>
        obtain ⟨rfl, hsame⟩ := List.cons_eq_cons.mp hrest
        exact Or.inr ⟨tail, hfirst, hsame⟩

namespace Operation

def shown (operation : Operation) (reply : Reply) : List Notice :=
  match operation, reply with
  | getView cluster, .viewed view => view.toList.map (.shown cluster)
  | _, reply => reply.announced.map fun change => .shown change.cluster change.view

/-- Whether every member that an operation lists is a member already. -/
def IsKnown (operation : Operation) (membership : Membership) : Prop :=
  match operation with
  | registerView _ bulk address _ =>
    ∀ listed ∈ bulk ++ [address], membership.contains listed = true
  | _ => True

instance (operation : Operation) (membership : Membership) :
    Decidable (operation.IsKnown membership) := by
  unfold IsKnown
  cases operation <;> exact inferInstance

end Operation

namespace Membership

theorem identities_of_view? {membership : Membership} {view : View}
    (hview : membership.view? = some view) : view.identities = membership.identities := by
  obtain ⟨members, lastViewId⟩ := membership
  cases members with
  | nil => contradiction
  | cons member members =>
      have hbuilt := Option.some.inj hview
      simp [← hbuilt, View.identities, identities]

theorem isEmpty_eq_false_of_view? {membership : Membership} {view : View}
    (hview : membership.view? = some view) : membership.isEmpty = false := by
  obtain ⟨members, lastViewId⟩ := membership
  cases members with
  | nil => contradiction
  | cons member members => rfl

theorem isEmpty_of_announce {cluster : String} {membership : Membership}
    (hquiet : (Registry.announce cluster membership).1 = none) :
    membership.isEmpty = true := by
  cases hempty : membership.isEmpty with
  | true => rfl
  | false =>
      obtain ⟨view, hview⟩ : ∃ view, membership.bumped.view? = some view :=
        exists_view?_of_isEmpty_eq_false hempty
      simp [Registry.announce, nextView, hempty, hview] at hquiet

theorem foldl_expect_of_contains {bulk : List Address} {membership : Membership}
    (hknown : ∀ address ∈ bulk, membership.contains address = true) :
    bulk.foldl expect membership = membership := by
  induction bulk with
  | nil => rfl
  | cons address bulk ih =>
      have hfirst : membership.expect address = membership := by
        rw [expect, if_pos (hknown address List.mem_cons_self)]
      rw [List.foldl_cons, hfirst]
      exact ih fun other hother => hknown other (List.mem_cons_of_mem _ hother)

theorem identities_registerView_of_contains {membership : Membership} {bulk : List Address}
    {address : Address}
    (hknown : ∀ listed ∈ bulk ++ [address], membership.contains listed = true)
    (session : SessionId) :
    (membership.registerView bulk address session).identities = membership.identities := by
  have hbulk : bulk.foldl expect membership = membership :=
    foldl_expect_of_contains fun listed hlisted =>
      hknown listed (List.mem_append_left _ hlisted)
  have haddress : address.uuid ∈ membership.identities :=
    contains_iff.mp (hknown address (by simp))
  rw [registerView, hbulk, identities_bind, if_pos haddress]

theorem leaveAll_of_departed_nil {membership : Membership} {addresses : List Address}
    (hdeparted : (membership.leaveAll addresses).1 = []) :
    (membership.leaveAll addresses).2 = membership := by
  induction addresses generalizing membership with
  | nil => rfl
  | cons address addresses ih =>
      simp only [leaveAll, List.append_eq_nil_iff] at hdeparted ⊢
      obtain ⟨hfirst, hrest⟩ := hdeparted
      have habsent : membership.find? address = none := by
        simpa [leave] using hfirst
      have hstay : (membership.leave address).2 = membership := by
        have hkept : membership.members.filter (fun member => !address.same member.address) =
            membership.members := by
          rw [List.filter_eq_self]
          intro member hmember
          have hother := List.find?_eq_none.mp habsent member hmember
          simpa using hother
        rw [leave, hkept]
      rw [hstay] at hrest ⊢
      exact ih hrest

theorem removeSession_of_nobody {membership : Membership} {session : SessionId}
    (hnobody : (membership.removeSession session).1 = []) :
    (membership.removeSession session).2 = membership := by
  simp only [removeSession, List.partition_eq_filter_filter, List.map_eq_nil_iff,
    List.filter_eq_nil_iff] at hnobody ⊢
  have hkept : membership.members.filter
      (not ∘ fun member => decide (member.session = some session)) = membership.members := by
    rw [List.filter_eq_self]
    intro member hmember
    simpa using hnobody member hmember
  rw [hkept]

end Membership

namespace Operation

/-- Work that makes no view and knows everybody it lists leaves the same members in the
same order, unless it leaves nobody. -/
theorem identities_work {operation : Operation} {cluster : String} {membership : Membership}
    (hquiet : (operation.work cluster membership).1.announced = [])
    (hknown : operation.IsKnown membership)
    (hleft : (operation.work cluster membership).2.isEmpty = false) :
    (operation.work cluster membership).2.identities = membership.identities := by
  have hmute (after : Membership)
      (hannounced : (Registry.announce cluster after).1.toList = [])
      (hafter : (Registry.announce cluster after).2.isEmpty = false) : False := by
    have hempty := Membership.isEmpty_of_announce (Option.toList_eq_nil_iff.mp hannounced)
    rw [Membership.isEmpty_iff, ← Membership.identities_announce cluster,
      ← Membership.isEmpty_iff, hafter] at hempty
    contradiction
  have hdismiss (addresses : List Address)
      (hannounced : (Registry.dismiss addresses cluster membership).1.change.toList = [])
      (hafter : (Registry.dismiss addresses cluster membership).2.isEmpty = false) :
      (Registry.dismiss addresses cluster membership).2.identities = membership.identities := by
    unfold Registry.dismiss at hannounced hafter ⊢
    simp only at hannounced hafter ⊢
    split at hannounced
    next hnobody =>
      rw [if_pos hnobody, Membership.leaveAll_of_departed_nil (List.isEmpty_iff.mp hnobody)]
    next hsomebody =>
      rw [if_neg hsomebody] at hafter
      exact (hmute _ hannounced hafter).elim
  cases operation with
  | join _ address session =>
      change (Registry.enroll address session cluster membership).1.toList = [] at hquiet
      change (Registry.enroll address session cluster membership).2.isEmpty = false at hleft
      change (Registry.enroll address session cluster membership).2.identities = _
      unfold Registry.enroll Membership.join? at hquiet hleft ⊢
      cases hmember : membership.contains address with
      | true => simp only [if_true]
      | false =>
          simp only [hmember, Bool.false_eq_true, if_false] at hquiet hleft
          exact (hmute _ hquiet hleft).elim
  | registerView _ bulk address session =>
      exact Membership.identities_registerView_of_contains hknown session
  | leave _ address => exact hdismiss [address] hquiet hleft
  | leaveAll _ addresses => exact hdismiss addresses hquiet hleft
  | removeSession session _ =>
      have hannounced :
          (Registry.dismissSession session cluster membership).1.toList = [] := hquiet
      change (Registry.dismissSession session cluster membership).2.isEmpty = false at hleft
      change (Registry.dismissSession session cluster membership).2.identities = _
      unfold Registry.dismissSession at hannounced hleft ⊢
      simp only at hannounced hleft ⊢
      split at hannounced
      next hnobody =>
        rw [if_pos hnobody, Membership.removeSession_of_nobody (List.isEmpty_iff.mp hnobody)]
      next hsomebody =>
        rw [if_neg hsomebody] at hleft
        exact (hmute _ hannounced hleft).elim
  | getView _ | route _ | dump => rfl

/-- A number that has a next one is left by every view that work makes, so work that does
not move it has made none. -/
theorem identities_work_of_lastViewId {operation : Operation} {cluster : String}
    {membership : Membership} (hnext : HasNext membership.lastViewId)
    (hkept : (operation.work cluster membership).2.lastViewId = membership.lastViewId)
    (hknown : operation.IsKnown membership)
    (hleft : (operation.work cluster membership).2.isEmpty = false) :
    (operation.work cluster membership).2.identities = membership.identities := by
  apply identities_work _ hknown hleft
  have hmoves := operation.moves_work cluster membership
  generalize (operation.work cluster membership).1.announced = changes at hmoves ⊢
  generalize (operation.work cluster membership).2 = after at hmoves hkept
  cases hmoves with
  | quiet => rfl
  | told hraised =>
      have hlt := hnext.lt_add_one
      rw [← hraised, hkept] at hlt
      exact (UInt64.lt_irrefl _ hlt).elim

theorem cluster_of_mem_announced {operation : Operation} {cluster : String}
    {membership : Membership} {change : ViewChange}
    (hchange : change ∈ (operation.work cluster membership).1.announced) :
    change.cluster = cluster := by
  have hmoves := operation.moves_work cluster membership
  generalize (operation.work cluster membership).1.announced = changes at hmoves hchange
  cases hmoves with
  | quiet => contradiction
  | told => rw [List.mem_singleton.mp hchange]

end Operation

namespace Registry

/-! ## A view that is up to date -/

/-- Whether a view change says how a cluster is now, and whom it must reach. -/
def UpToDate (registry : Registry) (change : ViewChange) : Prop :=
  ∃ membership, registry.find? change.cluster = some membership ∧
    membership.view? = some change.view ∧ change.recipients = membership.recipients []

theorem upToDate_store (registry : Registry) {operation : Operation} {cluster : String}
    {membership : Membership} {change : ViewChange}
    (hchange : change ∈ (operation.work cluster membership).1.announced) :
    (registry.store cluster (operation.work cluster membership).2).UpToDate change := by
  have hmoves := operation.moves_work cluster membership
  generalize (operation.work cluster membership).1.announced = changes at hmoves hchange
  cases hmoves with
  | quiet => contradiction
  | told _ hview =>
      rw [List.mem_singleton.mp hchange]
      refine ⟨_, ?_, hview, rfl⟩
      rw [find?_store_self, Membership.isEmpty_eq_false_of_view? hview]
      rfl

theorem work_removeSession_of_unbound {session : SessionId} {membership : Membership}
    (hunbound : ∀ member ∈ membership.members, member.session ≠ some session)
    (clusters : List String) (cluster : String) :
    (Operation.removeSession session clusters).work cluster membership =
      (.removed [], membership) := by
  have hnobody : (membership.removeSession session).1 = [] := by
    simp only [Membership.removeSession, List.partition_eq_filter_filter, List.map_eq_nil_iff,
      List.filter_eq_nil_iff]
    intro member hmember
    simpa using hunbound member hmember
  have hstay := Membership.removeSession_of_nobody hnobody
  simp only [Operation.work, dismissSession, hnobody, List.isEmpty_nil, if_true, hstay,
    Option.toList_none]

/-- A cluster in which nobody is reached through a session is not touched by its removal. -/
theorem find?_removeSession_of_unbound {session : SessionId} {cluster : String}
    {membership : Membership} (hoccupied : membership.isEmpty = false)
    (hunbound : ∀ member ∈ membership.members, member.session ≠ some session)
    (clusters : List String) {registry : Registry}
    (hfind : registry.find? cluster = some membership) :
    (registry.perform (.removeSession session clusters)).2.find? cluster =
      some membership := by
  induction clusters generalizing registry with
  | nil => exact hfind
  | cons name clusters ih =>
      rw [perform_removeSession_cons]
      apply ih
      unfold withExisting
      by_cases hname : cluster = name
      · subst hname
        simp only [hfind, work_removeSession_of_unbound hunbound, find?_store_self, hoccupied,
          Bool.false_eq_true, if_false]
      · cases hother : registry.find? name with
        | none => exact hfind
        | some other =>
            simp only [find?_store_of_ne registry hname]
            exact hfind

theorem upToDate_removeSession {session : SessionId} (clusters : List String)
    {registry : Registry} {change : ViewChange}
    (hchange :
      change ∈ (registry.perform (.removeSession session clusters)).1.announced) :
    (registry.perform (.removeSession session clusters)).2.UpToDate change := by
  induction clusters generalizing registry with
  | nil => contradiction
  | cons cluster clusters ih =>
      rw [perform_removeSession_cons] at hchange ⊢
      rcases List.mem_append.mp hchange with hfirst | hrest
      · cases hfind : registry.find? cluster with
        | none => simp [withExisting, hfind, Reply.announced] at hfirst
        | some membership =>
            simp only [withExisting, hfind, Option.getD_some] at hfirst ⊢
            obtain ⟨after, hafter, hview, hrecipients⟩ :=
              upToDate_store registry hfirst
            have hcluster := Operation.cluster_of_mem_announced hfirst
            refine ⟨after, ?_, hview, hrecipients⟩
            apply find?_removeSession_of_unbound (Membership.isEmpty_eq_false_of_view? hview) ?_
              clusters hafter
            intro member hmember
            rw [hcluster] at hafter
            rw [eq_of_find?_store_self hafter] at hmember
            change member ∈ (dismissSession session cluster membership).2.members at hmember
            rw [Membership.members_dismissSession] at hmember
            simpa using (List.mem_filter.mp hmember).2
      · exact ih hrest

/-- A view that an operation makes is the view that its cluster has afterwards. -/
theorem upToDate_of_mem_announced {registry : Registry} (operation : Operation)
    {change : ViewChange} (hchange : change ∈ (registry.perform operation).1.announced) :
    (registry.perform operation).2.UpToDate change := by
  cases hcluster : operation.cluster? with
  | none =>
      cases operation with
      | removeSession session clusters => exact upToDate_removeSession clusters hchange
      | dump => contradiction
      | _ => simp [Operation.cluster?] at hcluster
  | some cluster =>
      cases hfind : registry.find? cluster with
      | some membership =>
          rw [perform_of_found registry hcluster hfind] at hchange ⊢
          exact upToDate_store _ hchange
      | none =>
          cases hcreates : operation.creates with
          | true =>
              rw [perform_of_created registry hcluster hcreates hfind] at hchange ⊢
              exact upToDate_store _ hchange
          | false =>
              rw [perform_of_missing registry hcluster hcreates hfind] at hchange
              simp at hchange

/-! ## What a run shows -/

def seeding (registry : Registry) (operation : Operation) : List Notice :=
  match operation.cluster? with
  | some cluster =>
    if operation.IsKnown (registry.current cluster) then [] else [.seeded cluster]
  | none => []

def notices (registry : Registry) (operation : Operation) : List Notice :=
  registry.seeding operation ++ operation.shown (registry.perform operation).1

/-- What a run shows, in the order in which it does. -/
def chronicle (registry : Registry) : List Operation → List Notice
  | [] => []
  | operation :: operations =>
    registry.notices operation ++ (registry.perform operation).2.chronicle operations

theorem isKnown_of_not_mem_seeding {registry : Registry} {operation : Operation}
    {cluster : String} (hcluster : operation.cluster? = some cluster)
    (hunseeded : .seeded cluster ∉ registry.seeding operation) :
    operation.IsKnown (registry.current cluster) := by
  unfold seeding at hunseeded
  rw [hcluster] at hunseeded
  simp only at hunseeded
  split at hunseeded
  next hknown => exact hknown
  next => simp at hunseeded

theorem exists_of_mem_shown {registry : Registry} {operation : Operation} {cluster : String}
    {view : View}
    (hshown : .shown cluster view ∈ operation.shown (registry.perform operation).1) :
    ∃ membership, (registry.perform operation).2.find? cluster = some membership ∧
      membership.view? = some view := by
  have hmade (hchange : .shown cluster view ∈
      (registry.perform operation).1.announced.map fun change =>
        Notice.shown change.cluster change.view) :
      ∃ membership, (registry.perform operation).2.find? cluster = some membership ∧
        membership.view? = some view := by
    obtain ⟨change, hmem, hsame⟩ := List.mem_map.mp hchange
    obtain ⟨rfl, rfl⟩ := Notice.shown.inj hsame
    obtain ⟨membership, hfind, hview, _⟩ := upToDate_of_mem_announced operation hmem
    exact ⟨membership, hfind, hview⟩
  cases operation with
  | getView name =>
      rw [perform_of_existing registry rfl rfl] at hshown ⊢
      cases hfind : registry.find? name with
      | none => simp [withExisting, hfind, Operation.shown, Operation.fallback] at hshown
      | some membership =>
          simp only [withExisting, hfind, Option.getD_some, Operation.work, Operation.shown,
            List.mem_map, Option.mem_toList] at hshown ⊢
          obtain ⟨other, hview, hsame⟩ := hshown
          obtain ⟨rfl, rfl⟩ := Notice.shown.inj hsame
          refine ⟨membership, ?_, hview⟩
          rw [store_of_find? hfind (Membership.isEmpty_eq_false_of_view? hview)]
          exact hfind
  | _ => exact hmade hshown

theorem not_mem_seeding_of_mem_shown {registry : Registry} {operation : Operation}
    {cluster : String} {view : View}
    (hshown : .shown cluster view ∈ operation.shown (registry.perform operation).1)
    (name : String) : .seeded name ∉ registry.seeding operation := by
  unfold seeding
  cases operation with
  | registerView => simp [Operation.shown, perform, Reply.announced] at hshown
  | _ => simp [Operation.cluster?, Operation.IsKnown]

/-! ## A view that is held -/

/-- Whether a registry has gone beyond the number of a view, or its members are still the
ones that the view shows. -/
structure Holds (registry : Registry) (cluster : String) (view : View) : Prop where
  reached : view.viewId ≤ registry.number cluster
  same : ∀ membership, registry.find? cluster = some membership →
    membership.lastViewId = view.viewId → membership.identities = view.identities

theorem number_eq_current (registry : Registry) (cluster : String) :
    registry.number cluster = (registry.current cluster).lastViewId := by
  unfold number current
  cases registry.find? cluster <;> rfl

theorem holds_of_find? {registry : Registry} {cluster : String} {membership : Membership}
    {view : View} (hfind : registry.find? cluster = some membership)
    (hview : membership.view? = some view) : registry.Holds cluster view where
  reached := by
    rw [number_of_find? hfind, Membership.viewId_of_view? hview]
    exact UInt64.le_refl _
  same := by
    intro found hfound _
    obtain rfl : membership = found := Option.some.inj (hfind.symm.trans hfound)
    exact (Membership.identities_of_view? hview).symm

theorem Holds.store {registry : Registry} {cluster name : String} {view : View}
    (hholds : registry.Holds cluster view) (base : Registry)
    (hbase : base.clusters = registry.clusters)
    {operation : Operation} (hnext : HasNext (registry.current name).lastViewId)
    (hknown : cluster = name → operation.IsKnown (registry.current name))
    (hkept : registry.number cluster ≤
      (base.store name (operation.work name (registry.current name)).2).number cluster) :
    (base.store name (operation.work name (registry.current name)).2).Holds cluster view where
  reached := UInt64.le_trans hholds.reached hkept
  same := by
    intro after hfind hid
    by_cases hname : cluster = name
    · subst hname
      have hraised := hkept
      rw [number_of_find? hfind, hid] at hraised
      have hnumber : registry.number cluster = view.viewId :=
        UInt64.le_antisymm hraised hholds.reached
      have hafter := eq_of_find?_store_self hfind
      have hoccupied : after.isEmpty = false := by
        rw [find?_store_self] at hfind
        split at hfind
        · contradiction
        next hleft => rw [hafter]; simpa using hleft
      subst hafter
      rw [number_eq_current] at hnumber
      have hsame := Operation.identities_work_of_lastViewId hnext (hid.trans hnumber.symm)
        (hknown rfl) hoccupied
      rw [hsame]
      cases hbefore : registry.find? cluster with
      | some membership =>
          rw [current_of_find? hbefore] at hnumber ⊢
          exact hholds.same membership hbefore hnumber
      | none =>
          have hnobody : (registry.current cluster).identities = [] := by
            rw [current_of_find?_none hbefore, Membership.identities_startingFrom]
          rw [Membership.isEmpty_iff.mpr (hsame.trans hnobody)] at hoccupied
          contradiction
    · rw [find?_store_of_ne base hname] at hfind
      apply hholds.same after _ hid
      rw [← hfind, find?, find?, hbase]

theorem Holds.withExisting {registry : Registry} (hnumbered : registry.Numbered)
    {cluster name : String} {view : View} (hholds : registry.Holds cluster view)
    {operation : Operation}
    (hknown : cluster = name → operation.IsKnown (registry.current name))
    (hchanges : ∀ change ∈ ((registry.withExisting name (operation.work name)).1.getD
      operation.fallback).announced, HasNext change.view.viewId) :
    (registry.withExisting name (operation.work name)).2.Holds cluster view := by
  have hkept := (advances_withExisting hnumbered name operation hchanges).1.kept cluster
  unfold Registry.withExisting at hkept ⊢
  cases hfind : registry.find? name with
  | none => exact hholds
  | some membership =>
      rw [hfind] at hkept
      have hcurrent := current_of_find? hfind
      have hnext : HasNext (registry.current name).lastViewId := by
        rw [← number_eq_current]
        exact hnumbered.number name
      rw [← hcurrent] at hkept ⊢
      exact hholds.store registry rfl hnext hknown hkept

theorem Holds.removeSession {session : SessionId} (clusters : List String)
    {registry : Registry} (hnumbered : registry.Numbered) {cluster : String} {view : View}
    (hholds : registry.Holds cluster view)
    (hchanges : ∀ change ∈ (registry.perform (.removeSession session clusters)).1.announced,
      HasNext change.view.viewId) :
    (registry.perform (.removeSession session clusters)).2.Holds cluster view := by
  induction clusters generalizing registry with
  | nil => exact hholds
  | cons name clusters ih =>
      rw [perform_removeSession_cons] at hchanges ⊢
      have hfirst : ∀ change ∈ ((registry.withExisting name
          ((Operation.removeSession session clusters).work name)).1.getD (.removed [])).announced,
          HasNext change.view.viewId :=
        fun change hchange => hchanges change (List.mem_append_left _ hchange)
      apply ih
      · exact (advances_withExisting hnumbered name (.removeSession session clusters) hfirst).2
      · exact hholds.withExisting hnumbered (fun _ => trivial) hfirst
      · exact fun change hchange => hchanges change (List.mem_append_right _ hchange)

/-- A registry goes on holding a view until a registration brings somebody into its cluster. -/
theorem Holds.perform {registry : Registry} (hnumbered : registry.Numbered)
    {cluster : String} {view : View} (hholds : registry.Holds cluster view)
    {operation : Operation} (hunseeded : .seeded cluster ∉ registry.seeding operation)
    (hchanges : ∀ change ∈ (registry.perform operation).1.announced,
      HasNext change.view.viewId) :
    (registry.perform operation).2.Holds cluster view := by
  cases hcluster : operation.cluster? with
  | none =>
      cases operation with
      | removeSession session clusters =>
          exact hholds.removeSession clusters hnumbered hchanges
      | dump => exact hholds
      | _ => simp [Operation.cluster?] at hcluster
  | some name =>
      have hknown : cluster = name → operation.IsKnown (registry.current name) := by
        rintro rfl
        exact isKnown_of_not_mem_seeding hcluster hunseeded
      have hkept := (advances_perform hnumbered operation hchanges).1.kept cluster
      cases hcreates : operation.creates with
      | false =>
          rw [perform_of_existing registry hcluster hcreates] at hchanges ⊢
          exact hholds.withExisting hnumbered hknown hchanges
      | true =>
          have hnext : HasNext (registry.current name).lastViewId := by
            rw [← number_eq_current]
            exact hnumbered.number name
          cases hfind : registry.find? name with
          | some membership =>
              rw [perform_of_found registry hcluster hfind, ← current_of_find? hfind]
                at hkept ⊢
              exact hholds.store registry rfl hnext hknown hkept
          | none =>
              rw [perform_of_created registry hcluster hcreates hfind] at hkept ⊢
              exact hholds.store { registry with retired := (registry.retired.take name).2 } rfl
                hnext hknown hkept

theorem Holds.identities_of_mem_shown {registry : Registry} (hnumbered : registry.Numbered)
    {cluster : String} {earlier later : View} (hholds : registry.Holds cluster earlier)
    {operation : Operation}
    (hshown : .shown cluster later ∈ operation.shown (registry.perform operation).1)
    (hchanges : ∀ change ∈ (registry.perform operation).1.announced,
      HasNext change.view.viewId)
    (hid : earlier.viewId = later.viewId) : earlier.identities = later.identities := by
  obtain ⟨membership, hfind, hview⟩ := exists_of_mem_shown hshown
  have hafter := hholds.perform hnumbered (not_mem_seeding_of_mem_shown hshown cluster) hchanges
  have hnumber := Membership.viewId_of_view? hview
  rw [← hafter.same membership hfind (hnumber.symm.trans hid.symm),
    Membership.identities_of_view? hview]

theorem mem_shown_of_mem_notices {registry : Registry} {operation : Operation}
    {cluster : String} {view : View}
    (hnotice : .shown cluster view ∈ registry.notices operation) :
    .shown cluster view ∈ operation.shown (registry.perform operation).1 := by
  rcases List.mem_append.mp hnotice with hseeding | hshown
  · unfold seeding at hseeding
    split at hseeding
    · split at hseeding <;> simp at hseeding
    · contradiction
  · exact hshown

/-- What a run shows later under the number of a view that is held, before a registration
brings somebody in, has the same members. -/
theorem Holds.identities_of_chronicle {registry : Registry} (hnumbered : registry.Numbered)
    {cluster : String} {earlier later : View} (hholds : registry.Holds cluster earlier)
    {operations : List Operation} {between rest : List Notice}
    (hchronicle : registry.chronicle operations = between ++ .shown cluster later :: rest)
    (hunseeded : .seeded cluster ∉ between)
    (hchanges : ∀ change ∈ registry.announcements operations, HasNext change.view.viewId)
    (hid : earlier.viewId = later.viewId) : earlier.identities = later.identities := by
  induction operations generalizing registry between with
  | nil => simp [chronicle] at hchronicle
  | cons operation operations ih =>
      have hfirst : ∀ change ∈ (registry.perform operation).1.announced,
          HasNext change.view.viewId :=
        fun change hchange => hchanges change (List.mem_append_left _ hchange)
      rcases split_append hchronicle with ⟨beyond, rfl, hrest⟩ | ⟨tail, hnotices, -⟩
      · have hseeding : .seeded cluster ∉ registry.seeding operation := fun hseeded =>
          hunseeded (List.mem_append_left _ (List.mem_append_left _ hseeded))
        apply ih (advances_perform hnumbered operation hfirst).2
          (hholds.perform hnumbered hseeding hfirst) hrest
        · exact fun hseeded => hunseeded (List.mem_append_right _ hseeded)
        · exact fun change hchange => hchanges change (List.mem_append_right _ hchange)
      · have hshown : .shown cluster later ∈ operation.shown (registry.perform operation).1 :=
          mem_shown_of_mem_notices (by rw [hnotices]; simp)
        exact hholds.identities_of_mem_shown hnumbered hshown hfirst hid

theorem identities_eq_of_chronicle {registry : Registry} (hnumbered : registry.Numbered)
    {operations : List Operation} {before between rest : List Notice} {cluster : String}
    {earlier later : View}
    (hchronicle : registry.chronicle operations =
      before ++ .shown cluster earlier :: (between ++ .shown cluster later :: rest))
    (hunseeded : .seeded cluster ∉ between)
    (hchanges : ∀ change ∈ registry.announcements operations, HasNext change.view.viewId)
    (hid : earlier.viewId = later.viewId) : earlier.identities = later.identities := by
  induction operations generalizing registry before with
  | nil => simp [chronicle] at hchronicle
  | cons operation operations ih =>
      have hfirst : ∀ change ∈ (registry.perform operation).1.announced,
          HasNext change.view.viewId :=
        fun change hchange => hchanges change (List.mem_append_left _ hchange)
      have hlater : ∀ change ∈ (registry.perform operation).2.announcements operations,
          HasNext change.view.viewId :=
        fun change hchange => hchanges change (List.mem_append_right _ hchange)
      have hnext := (advances_perform hnumbered operation hfirst).2
      rcases split_append hchronicle with ⟨beyond, -, hrest⟩ | ⟨tail, hnotices, hrest⟩
      · exact ih hnext hrest hlater
      · have hshown : .shown cluster earlier ∈ operation.shown (registry.perform operation).1 :=
          mem_shown_of_mem_notices (by rw [hnotices]; simp)
        obtain ⟨membership, hfind, hview⟩ := exists_of_mem_shown hshown
        rcases split_append hrest.symm with ⟨beyond, rfl, hbeyond⟩ | ⟨others, htail, -⟩
        · exact (holds_of_find? hfind hview).identities_of_chronicle hnext hbeyond
            (fun hseeded => hunseeded (List.mem_append_right _ hseeded)) hlater hid
        · have hagain : .shown cluster later ∈ operation.shown (registry.perform operation).1 :=
            mem_shown_of_mem_notices (by rw [hnotices, htail]; simp)
          obtain ⟨found, hfound, hviewed⟩ := exists_of_mem_shown hagain
          obtain rfl : membership = found := Option.some.inj (hfind.symm.trans hfound)
          rw [Membership.identities_of_view? hview, Membership.identities_of_view? hviewed]

/-- A number stands for one view of a cluster until a registration brings somebody in: two
views that a run shows under one number have the same members in the same order, unless
such a registration lies between them. -/
theorem viewId_names_one_view (capacity : Nat) (operations : List Operation)
    (hchanges : ∀ change ∈ (empty capacity).announcements operations,
      HasNext change.view.viewId)
    {before between rest : List Notice} {cluster : String} {earlier later : View}
    (hchronicle : (empty capacity).chronicle operations =
      before ++ .shown cluster earlier :: (between ++ .shown cluster later :: rest))
    (hunseeded : .seeded cluster ∉ between) (hid : earlier.viewId = later.viewId) :
    earlier.identities = later.identities :=
  identities_eq_of_chronicle (numbered_empty capacity) hchronicle hunseeded hchanges hid

/-- Neither a registration in another cluster nor one of somebody who is there already comes
between the view that is made and the one that is read. -/
theorem viewId_names_one_view_registered_elsewhere :
    let first := Address.ofUuid ⟨0, 1⟩
    let second := Address.ofUuid ⟨0, 2⟩
    let alone : View := ⟨1, first, [first]⟩
    let both : View := ⟨2, first, [first, second]⟩
    let operations : List Operation :=
      [.join "a" first ⟨1⟩, .join "a" second ⟨2⟩, .registerView "b" [first] second ⟨2⟩,
        .registerView "a" [second] second ⟨3⟩, .getView "a"]
    (∀ change ∈ (empty 1).announcements operations, HasNext change.view.viewId) ∧
      (empty 1).chronicle operations =
        [.shown "a" alone, .shown "a" both, .seeded "b", .shown "a" both] ∧
      .seeded "a" ∉ [Notice.seeded "b"] ∧
      ((empty 1).after operations).getView "a" = (some both, (empty 1).after operations) ∧
      both.identities = both.identities := by
  intro first second alone both operations
  have hchanges : ∀ change ∈ (empty 1).announcements operations,
      HasNext change.view.viewId := by decide
  have hchronicle : (empty 1).chronicle operations =
      [.shown "a" alone, .shown "a" both, .seeded "b", .shown "a" both] := by
    decide
  have hunseeded : .seeded "a" ∉ [Notice.seeded "b"] := by decide
  refine ⟨hchanges, hchronicle, hunseeded, by decide, ?_⟩
  exact @viewId_names_one_view 1 operations hchanges [.shown "a" alone] [.seeded "b"] [] "a"
    both both hchronicle hunseeded rfl

/-- The second member is registered without a view, and the number of the view that shows
the first one alone is read for both. -/
theorem registered_shares_viewId :
    ¬∀ (capacity : Nat) (operations : List Operation) (before between rest : List Notice)
        (cluster : String) (earlier later : View),
      (∀ change ∈ (empty capacity).announcements operations, HasNext change.view.viewId) →
      (empty capacity).chronicle operations =
        before ++ .shown cluster earlier :: (between ++ .shown cluster later :: rest) →
      earlier.viewId = later.viewId → earlier.identities = later.identities := by
  intro hclaim
  let first := (Address.ofUuid ⟨0, 65⟩).withName "A"
  let second := (Address.ofUuid ⟨0, 66⟩).withName "B"
  have hsame := hclaim 10000
    [.join "k" first ⟨1⟩, .registerView "k" [first, second] second ⟨2⟩, .getView "k"]
    [] [.seeded "k"] [] "k" ⟨1, first, [first]⟩ ⟨1, first, [first, second]⟩
    (by decide) (by decide) rfl
  exact absurd hsame (by decide)

end Registry

end Muster
