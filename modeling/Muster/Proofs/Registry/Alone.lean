import Mathlib.Logic.Relation
import Muster.Proofs.Registry.Binding
import Muster.Proofs.Registry.Shared

/-!
# One caller alone

While all others rest, a caller of a shared registry gets the replies of the
registry itself and leaves the world in the state of the registry afterwards.  So
every history of operations, one after the other, is a run of the shared registry.
-/

namespace Muster

namespace Registry

def Distinct (registry : Registry) : Prop :=
  (registry.clusters.map Prod.fst).Nodup

theorem mem_map_fst_replace (cluster : String) (membership : Membership)
    (clusters : List (String × Membership)) :
    (replace cluster membership clusters).map Prod.fst =
      if cluster ∈ clusters.map Prod.fst then clusters.map Prod.fst
      else clusters.map Prod.fst ++ [cluster] := by
  induction clusters with
  | nil => rfl
  | cons entry clusters ih =>
      obtain ⟨name, other⟩ := entry
      by_cases hname : name = cluster
      · simp [replace, hname]
      · have hne : cluster ≠ name := fun hsame => hname hsame.symm
        simp only [replace, hname, if_false, List.map_cons, ih, List.mem_cons, hne, false_or]
        split <;> rfl

theorem Distinct.store {registry : Registry} (hdistinct : registry.Distinct)
    (cluster : String) (membership : Membership) :
    (registry.store cluster membership).Distinct := by
  unfold Registry.store
  split
  · exact hdistinct.sublist (List.filter_sublist.map _)
  · unfold Distinct
    rw [mem_map_fst_replace]
    split
    · exact hdistinct
    next hnew =>
      rw [← List.concat_eq_append]
      exact List.Nodup.concat hnew hdistinct

theorem distinct_empty (capacity : Nat) : (empty capacity).Distinct :=
  List.nodup_nil

theorem Distinct.perform {registry : Registry} (hdistinct : registry.Distinct) (operation : Operation) :
    (registry.perform operation).2.Distinct :=
  perform_keeps (fun _ cluster membership hbefore => hbefore.store cluster membership)
    (fun _ _ hbefore => hbefore) hdistinct operation

theorem Distinct.after {registry : Registry} (hdistinct : registry.Distinct) (operations : List Operation) :
    (registry.after operations).Distinct :=
  after_keeps (fun _ operation hbefore => hbefore.perform operation) hdistinct operations

theorem mem_names_iff {registry : Registry} {cluster : String} :
    cluster ∈ registry.clusters.map Prod.fst ↔ registry.find? cluster ≠ none := by
  constructor
  · intro hlisted hnone
    obtain ⟨entry, hentry, rfl⟩ := List.mem_map.mp hlisted
    have hother := List.lookup_eq_none_iff.mp hnone entry hentry
    simp at hother
  · intro hsome
    obtain ⟨membership, hfind⟩ := Option.ne_none_iff_exists'.mp hsome
    exact List.mem_map.mpr ⟨_, mem_of_lookup hfind, rfl⟩

theorem removeSessionAmong_cons_of_found {registry : Registry} {cluster : String}
    {membership : Membership} (hfind : registry.find? cluster = some membership)
    (session : SessionId) (clusters : List String) :
    removeSessionAmong session (cluster :: clusters) registry =
      let (change, membership) := dismissSession session cluster membership
      let (changes, registry) :=
        removeSessionAmong session clusters (registry.store cluster membership)
      (change.toList ++ changes, registry) := by
  simp only [removeSessionAmong, withExisting, hfind, Option.join_some]

def named (registry : Registry) (name : String) : String × Membership :=
  (name, (registry.find? name).getD (.startingFrom 0))

theorem named_of_find? {registry : Registry} {name : String} {membership : Membership}
    (hfind : registry.find? name = some membership) :
    registry.named name = (name, membership) := by
  rw [named, hfind, Option.getD_some]

theorem map_named {registry : Registry} (hdistinct : registry.Distinct) :
    (registry.clusters.map Prod.fst).map registry.named = registry.clusters := by
  rw [List.map_map]
  conv_rhs => rw [← List.map_id registry.clusters]
  apply List.map_congr_left
  intro entry hentry
  exact named_of_find? (lookup_of_mem hdistinct hentry)

theorem contains_of_mem_names {registry : Registry} (hdistinct : registry.Distinct)
    (cluster : String) (hcluster : cluster ∈ registry.clusters.map Prod.fst) :
    registry.contains cluster = true := by
  obtain ⟨entry, hentry, rfl⟩ := List.mem_map.mp hcluster
  have hfind : registry.find? entry.1 = some entry.2 := lookup_of_mem hdistinct hentry
  rw [contains, hfind]
  rfl

/-- The names that a removal goes through are those of the table, in any order. -/
def Lists (registry : Registry) : Operation → Prop
  | .removeSession _ clusters => clusters.Perm (registry.clusters.map Prod.fst)
  | _ => True

/-- The same for the operations of a history, each at its own time. -/
def ListsAll (registry : Registry) : List Operation → Prop
  | [] => True
  | operation :: operations =>
    registry.Lists operation ∧ (registry.perform operation).2.ListsAll operations

end Registry

namespace Shared

/-- The table shows the cluster of a name as the registry has it. -/
def World.Shows (world : World) (registry : Registry) (name : String) : Prop :=
  match world.table name with
  | some object =>
    ∃ membership, registry.find? name = some membership ∧ membership.isEmpty = false ∧
      world.heap[object]? = some ⟨name, membership, false, none⟩
  | none => registry.find? name = none

/-- The state of a registry as its callers find it while they rest. -/
structure World.Reflects (world : World) (registry : Registry) : Prop where
  ledger : world.ledger = registry.retired
  shows : ∀ name, world.Shows registry name
  distinct : registry.Distinct

theorem World.reflects_start (capacity : Nat) :
    (World.start capacity).Reflects (.empty capacity) where
  ledger := rfl
  shows := fun _ => rfl
  distinct := List.nodup_nil

theorem World.Reflects.goTo {world : World} {registry : Registry}
    (hreflects : world.Reflects registry) (caller : Nat) (place : Place) :
    (world.goTo caller place).Reflects registry :=
  ⟨hreflects.ledger, hreflects.shows, hreflects.distinct⟩

/-- What comes to be by moves of one caller only. -/
def Alone (caller : Nat) : World → World → Prop :=
  Relation.ReflTransGen fun world next => ∃ move, Step caller world move next

theorem Alone.step {caller : Nat} {world next : World} {move : Move}
    (hstep : Step caller world move next) : Alone caller world next :=
  .single ⟨move, hstep⟩

theorem exists_run_of_alone {capacity : Nat} {moments : List Moment} {world next : World}
    (hrun : Run capacity moments world) {caller : Nat} (halone : Alone caller world next) :
    ∃ later, Run capacity (moments ++ later) next := by
  induction halone with
  | refl => exact ⟨[], by simpa using hrun⟩
  | @tail middle next _ hstep ih =>
      obtain ⟨later, hlater⟩ := ih
      obtain ⟨move, hstep⟩ := hstep
      refine ⟨later ++ [⟨middle, caller, move⟩], ?_⟩
      rw [← List.append_assoc]
      exact hlater.step hstep

/-! ## A visit -/

theorem World.Shows.of_eq {world next : World} {registry changed : Registry} {name : String}
    (hshows : world.Shows registry name) (htable : next.table name = world.table name)
    (hheap : ∀ (object : Nat) (cell : Cell), world.heap[object]? = some cell →
      cell.cluster = name → next.heap[object]? = some cell)
    (hfind : changed.find? name = registry.find? name) : next.Shows changed name := by
  unfold World.Shows at hshows ⊢
  rw [htable, hfind]
  cases hfound : world.table name with
  | none =>
      rw [hfound] at hshows
      exact hshows
  | some object =>
      rw [hfound] at hshows
      obtain ⟨membership, hmembership, hoccupied, hcell⟩ := hshows
      exact ⟨membership, hmembership, hoccupied, hheap object _ hcell rfl⟩

/-- A caller alone has come to a place, and on its way it has left an object and the
rest of the world like this. -/
structure Comes (caller : Nat) (world : World) (object : Nat) (place : Place) (cell : Cell)
    (table : String → Option Nat) (ledger : Ledger) (next : World) : Prop where
  alone : Alone caller world next
  place : next.callers caller = place
  heap : next.heap = world.heap.set object cell
  table : next.table = table
  ledger : next.ledger = ledger
  known : object < world.heap.length

section Comes

variable {caller : Nat} {world next : World} {visit : Visit} {cell : Cell}
  {table : String → Option Nat} {ledger : Ledger}

theorem Comes.held {object : Nat} {place : Place}
    (hcomes : Comes caller world object place cell table ledger next) :
    next.heap[object]? = some cell := by
  rw [hcomes.heap]
  exact List.getElem?_set_self hcomes.known

theorem Comes.write {object : Nat} {place after : Place} {changed : Cell} {move : Move}
    (hcomes : Comes caller world object place cell table ledger next)
    (hstep : Step caller next move ((next.write object changed).goTo caller after)) :
    Comes caller world object after changed table ledger
      ((next.write object changed).goTo caller after) where
  alone := hcomes.alone.tail ⟨move, hstep⟩
  place := World.callers_goTo _ _ _
  heap := by
    change next.heap.set object changed = _
    rw [hcomes.heap, List.set_set]
  table := hcomes.table
  ledger := hcomes.ledger
  known := hcomes.known

theorem Comes.record
    (hcomes : Comes caller world visit.object (.within .marked visit) cell table ledger next) :
    ∃ after, Comes caller world visit.object (.within .recorded visit) cell table
      (ledger.record visit.cluster cell.membership.lastViewId) after := by
  have hstep := Step.record hcomes.place hcomes.held
  refine ⟨_, hcomes.alone.tail ⟨.record, hstep⟩, World.callers_goTo _ _ _, hcomes.heap,
    hcomes.table, ?_, hcomes.known⟩
  change next.ledger.record _ _ = _
  rw [hcomes.ledger]

theorem Comes.remove
    (hcomes : Comes caller world visit.object (.within .recorded visit) cell table ledger next)
    (hfound : table visit.cluster = some visit.object) :
    ∃ after, Comes caller world visit.object (.within .leaving visit) cell
      (Function.update table visit.cluster none) ledger after := by
  have hstep := Step.remove hcomes.place
  rw [← hcomes.table] at hfound
  refine ⟨_, hcomes.alone.tail ⟨.remove, hstep⟩, World.callers_goTo _ _ _, ?_, ?_, ?_,
    hcomes.known⟩
  · exact (next.heap_unlist _ _).trans hcomes.heap
  · rw [← hcomes.table]
    simp [World.unlist, World.goTo, hfound]
  · rw [← hcomes.ledger]
    simp [World.unlist, World.goTo, hfound]

end Comes

section Visit

variable {caller : Nat} {world : World} {visit : Visit} {membership : Membership}

theorem comes_apply (hplace : world.callers caller = .waiting visit)
    (hcell : world.heap[visit.object]? = some ⟨visit.cluster, membership, false, none⟩) :
    ∃ next, Comes caller world (visit.worked membership).object
      (.within (visit.stageAfter membership) (visit.worked membership))
      ⟨visit.cluster, (visit.work membership).2, false, some caller⟩
      world.table world.ledger next := by
  have hacquire := Step.acquire hplace hcell rfl
  have hentered : Comes caller world visit.object (.within .entered visit)
      ⟨visit.cluster, membership, false, some caller⟩ world.table world.ledger _ :=
    ⟨.step hacquire, World.callers_goTo _ _ _, rfl, rfl, rfl, getElem?_lt hcell⟩
  exact ⟨_, hentered.write (.apply hentered.place hentered.held rfl)⟩

/-- A visit that leaves somebody behind, or that does not look. -/
theorem comes_release (hplace : world.callers caller = .waiting visit)
    (hcell : world.heap[visit.object]? = some ⟨visit.cluster, membership, false, none⟩)
    (hstage : visit.stageAfter membership = .leaving) :
    ∃ next, Comes caller world visit.object (visit.worked membership).next
      ⟨visit.cluster, (visit.work membership).2, false, none⟩ world.table world.ledger next := by
  obtain ⟨applied, happlied⟩ := comes_apply hplace hcell
  rw [hstage] at happlied
  have hrelease := Step.release happlied.place happlied.held
  exact ⟨_, happlied.write hrelease⟩

/-- A visit that leaves nobody behind. -/
theorem comes_retire (hplace : world.callers caller = .waiting visit)
    (hfound : world.table visit.cluster = some visit.object)
    (hcell : world.heap[visit.object]? = some ⟨visit.cluster, membership, false, none⟩)
    (hstage : visit.stageAfter membership = .emptied) :
    ∃ next, Comes caller world visit.object (visit.worked membership).next
      ⟨visit.cluster, (visit.work membership).2, true, none⟩
      (Function.update world.table visit.cluster none)
      (world.ledger.record visit.cluster (visit.work membership).2.lastViewId) next := by
  obtain ⟨applied, happlied⟩ := comes_apply hplace hcell
  rw [hstage] at happlied
  have hmark := Step.mark happlied.place happlied.held
  have hmarked := happlied.write hmark
  obtain ⟨recorded, hrecorded⟩ := hmarked.record
  obtain ⟨removed, hremoved⟩ := hrecorded.remove hfound
  have hrelease := Step.release hremoved.place hremoved.held
  exact ⟨_, hremoved.write hrelease⟩

theorem getElem?_set_of_cluster_ne {heap : List Cell} {object other : Nat} {cell current : Cell}
    (hcell : heap[object]? = some cell) (hcurrent : heap[other]? = some current)
    (hname : current.cluster ≠ cell.cluster) (changed : Cell) :
    (heap.set object changed)[other]? = some current := by
  have hne : object ≠ other := by
    intro hsame
    rw [← hsame, hcell] at hcurrent
    exact hname (congrArg Cell.cluster (Option.some.inj hcurrent)).symm
  rw [List.getElem?_set_ne hne]
  exact hcurrent

/-- After a visit to the object that the table leads to, the world shows the cluster
as the registry would have stored it, and every other one as before. -/
theorem alone_visit {registry : Registry} (hplace : world.callers caller = .waiting visit)
    (hfound : world.table visit.cluster = some visit.object)
    (hcell : world.heap[visit.object]? = some ⟨visit.cluster, membership, false, none⟩)
    (hledger : world.ledger = registry.retired) (hdistinct : registry.Distinct)
    (hshows : ∀ name, name ≠ visit.cluster → world.Shows registry name)
    (htidy : visit.operation.tidies membership = false →
      (visit.work membership).2.isEmpty = false) :
    ∃ next, Alone caller world next ∧
      next.callers caller = (visit.worked membership).next ∧
      next.Reflects (registry.store visit.cluster (visit.work membership).2) ∧
      ∀ name, name ≠ visit.cluster → next.table name = world.table name := by
  cases hempty : (visit.work membership).2.isEmpty with
  | false =>
      have hstage : visit.stageAfter membership = .leaving := by
        simp [Visit.stageAfter, hempty]
      obtain ⟨next, hcomes⟩ := comes_release hplace hcell hstage
      refine ⟨next, hcomes.alone, hcomes.place, ⟨?_, ?_, hdistinct.store _ _⟩, ?_⟩
      · rw [hcomes.ledger, hledger, Registry.retired_store, hempty]
        rfl
      · intro name
        by_cases hname : name = visit.cluster
        · subst hname
          unfold World.Shows
          rw [hcomes.table, hfound, Registry.find?_store_self, hempty]
          exact ⟨_, rfl, hempty, hcomes.held⟩
        · refine (hshows name hname).of_eq (by rw [hcomes.table]) ?_
            (Registry.find?_store_of_ne registry hname _)
          intro object cell hcurrent hcluster
          rw [hcomes.heap]
          exact getElem?_set_of_cluster_ne hcell hcurrent (hcluster.trans_ne hname) _
      · intro name _
        rw [hcomes.table]
  | true =>
      have hstage : visit.stageAfter membership = .emptied := by
        cases htidies : visit.operation.tidies membership with
        | false =>
            rw [htidy htidies] at hempty
            contradiction
        | true => simp [Visit.stageAfter, htidies, hempty]
      obtain ⟨next, hcomes⟩ := comes_retire hplace hfound hcell hstage
      refine ⟨next, hcomes.alone, hcomes.place, ⟨?_, ?_, hdistinct.store _ _⟩, ?_⟩
      · rw [hcomes.ledger, hledger, Registry.retired_store, hempty]
        rfl
      · intro name
        by_cases hname : name = visit.cluster
        · subst hname
          unfold World.Shows
          rw [hcomes.table, Function.update_self, Registry.find?_store_self, hempty]
          rfl
        · refine (hshows name hname).of_eq ?_ ?_ (Registry.find?_store_of_ne registry hname _)
          · rw [hcomes.table, Function.update_of_ne hname]
          · intro object cell hcurrent hcluster
            rw [hcomes.heap]
            exact getElem?_set_of_cluster_ne hcell hcurrent (hcluster.trans_ne hname) _
      · intro name hname
        rw [hcomes.table, Function.update_of_ne hname]

end Visit

/-! ## Operations on one cluster -/

variable {caller : Nat} {world : World} {registry : Registry} {operation : Operation}

theorem Visit.next_worked {visit : Visit} (hlater : visit.later = [])
    (hcluster : visit.operation.cluster? = some visit.cluster) (membership : Membership) :
    (visit.worked membership).next =
      .done visit.operation (visit.operation.work visit.cluster membership).1 := by
  unfold Visit.next Visit.worked Visit.work
  rw [hlater, Operation.and_work hcluster]
  rfl

theorem alone_found {cluster : String} {membership : Membership} {object : Nat}
    (hreflects : world.Reflects registry)
    (hplace : world.callers caller = .seeking operation cluster)
    (hcluster : operation.cluster? = some cluster) (hfound : world.table cluster = some object)
    (hcell : world.heap[object]? = some ⟨cluster, membership, false, none⟩) :
    ∃ next, Alone caller world next ∧
      next.callers caller = .done operation (operation.work cluster membership).1 ∧
      next.Reflects (registry.store cluster (operation.work cluster membership).2) := by
  have hwaiting := world.callers_goTo caller
    (.waiting ⟨operation, cluster, object, [], operation.opening⟩)
  obtain ⟨next, halone, hdone, hnext, -⟩ :=
    alone_visit hwaiting hfound hcell hreflects.ledger hreflects.distinct
      (fun name _ => hreflects.shows name)
      fun huntidy => by
        rw [Operation.tidies_of_cluster? hcluster] at huntidy
        contradiction
  exact ⟨next, (Alone.step (.find hplace hfound)).trans halone,
    hdone.trans (Visit.next_worked rfl hcluster _), hnext⟩

theorem alone_created {cluster : String} (hreflects : world.Reflects registry)
    (hplace : world.callers caller = .seeking operation cluster)
    (hcluster : operation.cluster? = some cluster) (hmissing : world.table cluster = none)
    (hcreates : operation.creates = true) {lastViewId : UInt64} {retired : Ledger}
    (htaken : registry.retired.take cluster = (lastViewId, retired)) :
    ∃ next, Alone caller world next ∧
      next.callers caller =
        .done operation (operation.work cluster (.startingFrom lastViewId)).1 ∧
      next.Reflects (({ registry with retired } : Registry).store cluster
        (operation.work cluster (.startingFrom lastViewId)).2) := by
  rw [← hreflects.ledger] at htaken
  have hwaiting := (world.insert cluster).callers_goTo caller
    (.waiting ⟨operation, cluster, world.heap.length, [], operation.opening⟩)
  have hcell : (world.insert cluster).heap[world.heap.length]? =
      some ⟨cluster, .startingFrom lastViewId, false, none⟩ := by
    unfold World.insert
    rw [htaken]
    exact List.getElem?_concat_length
  have hledger : (world.insert cluster).ledger = retired := by
    unfold World.insert
    rw [htaken]
  obtain ⟨next, halone, hdone, hnext, -⟩ :=
    @alone_visit _ _ _ _ { registry with retired } hwaiting
      (Function.update_self cluster _ world.table) hcell hledger hreflects.distinct
      (fun name hname => (hreflects.shows name).of_eq (Function.update_of_ne hname _ _)
        (fun object cell hcurrent _ =>
          (List.getElem?_append_left (getElem?_lt hcurrent)).trans hcurrent) rfl)
      fun huntidy => by
        rw [Operation.tidies_of_cluster? hcluster] at huntidy
        contradiction
  exact ⟨next, (Alone.step (.create hplace hmissing hcreates)).trans halone,
    hdone.trans (Visit.next_worked rfl hcluster _), hnext⟩

theorem alone_perform_of_cluster? (hreflects : world.Reflects registry)
    (hidle : world.callers caller = .idle) {cluster : String}
    (hcluster : operation.cluster? = some cluster) :
    ∃ next, Alone caller world next ∧
      next.callers caller = .done operation (registry.perform operation).1 ∧
      next.Reflects (registry.perform operation).2 := by
  have hcall := @Step.call caller world operation hidle
  have hcalled := hreflects.goTo caller (.beginning operation)
  have hseeking : (world.goTo caller (.beginning operation)).callers caller =
      .seeking operation cluster := by
    rw [World.callers_goTo, Place.beginning, hcluster]
  generalize world.goTo caller (.beginning operation) = called at hcall hcalled hseeking
  have hshows := hcalled.shows cluster
  unfold World.Shows at hshows
  cases hfound : called.table cluster with
  | some object =>
      rw [hfound] at hshows
      obtain ⟨membership, hfind, -, hcell⟩ := hshows
      obtain ⟨next, halone, hnext⟩ := alone_found hcalled hseeking hcluster hfound hcell
      rw [Registry.perform_of_found registry hcluster hfind]
      exact ⟨next, (Alone.step hcall).trans halone, hnext⟩
  | none =>
      rw [hfound] at hshows
      cases hcreates : operation.creates with
      | true =>
          obtain ⟨next, halone, hnext⟩ :=
            alone_created hcalled hseeking hcluster hfound hcreates rfl
          rw [Registry.perform_of_creates registry hcluster hcreates, Registry.withCluster,
            hshows]
          exact ⟨next, (Alone.step hcall).trans halone, hnext⟩
      | false =>
          have hmiss := Step.miss hseeking hfound hcreates
          rw [Registry.perform_of_missing registry hcluster hcreates hshows]
          exact ⟨_, (Alone.step hcall).tail ⟨.find, hmiss⟩, World.callers_goTo _ _ _,
            hcalled.goTo caller _⟩

/-! ## Operations on all clusters -/

theorem alone_list {found entries : List (String × Nat)}
    (hplace : world.callers caller = .listing operation found)
    (hentries : ∀ entry ∈ entries, world.table entry.1 = some entry.2) :
    Alone caller world (world.goTo caller (.listing operation (found ++ entries))) := by
  induction entries generalizing world found with
  | nil =>
      have hsame : world.goTo caller (.listing operation found) = world := by
        rw [← hplace]
        simp [World.goTo]
      rw [List.append_nil, hsame]
      exact .refl
  | cons entry entries ih =>
      have hlist := Step.list hplace (hentries entry List.mem_cons_self)
      have hnext := world.callers_goTo caller (.listing operation (found ++ [entry]))
      have hrest := ih hnext fun other hother => hentries other (List.mem_cons_of_mem _ hother)
      rw [List.append_assoc, World.goTo_goTo] at hrest
      exact (Alone.step hlist).trans hrest

theorem exists_entries (hreflects : world.Reflects registry) (clusters : List String)
    (hclusters : ∀ cluster ∈ clusters, registry.contains cluster = true) :
    ∃ entries : List (String × Nat), entries.map Prod.fst = clusters ∧
      ∀ entry ∈ entries, world.table entry.1 = some entry.2 := by
  induction clusters with
  | nil => exact ⟨[], rfl, fun _ hentry => by contradiction⟩
  | cons cluster clusters ih =>
      obtain ⟨entries, hnames, hentries⟩ := ih fun other hother =>
        hclusters other (List.mem_cons_of_mem _ hother)
      have hcontains := hclusters cluster List.mem_cons_self
      have hshows := hreflects.shows cluster
      unfold World.Shows at hshows
      cases hfound : world.table cluster with
      | none =>
          rw [hfound] at hshows
          simp [Registry.contains, show registry.find? cluster = none from hshows]
            at hcontains
      | some object =>
          refine ⟨(cluster, object) :: entries, by rw [List.map_cons, hnames], ?_⟩
          intro entry hentry
          rcases List.mem_cons.mp hentry with rfl | hrest
          · exact hfound
          · exact hentries entry hrest

theorem exists_of_table {cluster : String} {object : Nat} (hreflects : world.Reflects registry)
    (hfound : world.table cluster = some object) :
    ∃ membership, registry.find? cluster = some membership ∧ membership.isEmpty = false ∧
      world.heap[object]? = some ⟨cluster, membership, false, none⟩ := by
  have hshows := hreflects.shows cluster
  unfold World.Shows at hshows
  rw [hfound] at hshows
  exact hshows

/-- Work that does not look whether anybody is left has not sent anybody away. -/
theorem work_of_untidy {membership : Membership}
    (huntidy : operation.tidies membership = false) (cluster : String) :
    (operation.work cluster membership).2 = membership := by
  cases operation with
  | removeSession session clusters =>
      have hnobody : (membership.removeSession session).1 = [] := by
        simpa [Operation.tidies] using huntidy
      have hkept : (membership.removeSession session).2 = membership := by
        simp only [Membership.removeSession, List.partition_eq_filter_filter,
          List.map_eq_nil_iff, List.filter_eq_nil_iff] at hnobody ⊢
        have hall : membership.members.filter (Bool.not ∘ fun member =>
            decide (member.session = some session)) = membership.members := by
          apply List.filter_eq_self.mpr
          intro member hmember
          simpa using hnobody member hmember
        rw [hall]
      change (Registry.dismissSession session cluster membership).2 = membership
      unfold Registry.dismissSession
      simp only [hnobody, List.isEmpty_nil, if_true]
      exact hkept
  | dump => rfl
  | _ => contradiction

theorem alone_removals {session : SessionId} {clusters : List String} {earlier : List ViewChange}
    {entries : List (String × Nat)} (hreflects : world.Reflects registry)
    (hplace : world.callers caller =
      .visiting (.removeSession session clusters) (.removed earlier) entries)
    (hdistinct : (entries.map Prod.fst).Nodup)
    (hentries : ∀ entry ∈ entries, world.table entry.1 = some entry.2) :
    let removed := Registry.removeSessionAmong session (entries.map Prod.fst) registry
    ∃ next, Alone caller world next ∧
      next.callers caller =
        .done (.removeSession session clusters) (.removed (earlier ++ removed.1)) ∧
      next.Reflects removed.2 := by
  induction entries generalizing world registry earlier with
  | nil =>
      refine ⟨world, .refl, ?_, hreflects⟩
      rw [hplace]
      simp [Place.visiting, Registry.removeSessionAmong]
  | cons entry entries ih =>
      obtain ⟨cluster, object⟩ := entry
      have hfound := hentries (cluster, object) List.mem_cons_self
      obtain ⟨membership, hfind, hoccupied, hcell⟩ := exists_of_table hreflects hfound
      rw [List.map_cons, List.nodup_cons] at hdistinct
      obtain ⟨next, halone, hnext, hstored, hkept⟩ :=
        alone_visit hplace hfound hcell hreflects.ledger hreflects.distinct
          (fun name _ => hreflects.shows name) fun huntidy => by
            unfold Visit.work
            rw [work_of_untidy huntidy]
            exact hoccupied
      have hlater : ∀ entry ∈ entries, next.table entry.1 = some entry.2 := by
        intro entry hentry
        have hname : entry.1 ≠ cluster := by
          intro hname
          exact hdistinct.1 (List.mem_map.mpr ⟨entry, hentry, hname⟩)
        rw [hkept entry.1 hname]
        exact hentries entry (List.mem_cons_of_mem _ hentry)
      obtain ⟨last, hrest, hdone, hlast⟩ := ih hstored hnext hdistinct.2 hlater
      simp only [List.map_cons]
      rw [Registry.removeSessionAmong_cons_of_found hfind]
      refine ⟨last, halone.trans hrest, ?_, hlast⟩
      rw [hdone, List.append_assoc]
      rfl

theorem alone_perform_removeSession (hreflects : world.Reflects registry)
    (hidle : world.callers caller = .idle) (session : SessionId) {clusters : List String}
    (hdistinct : clusters.Nodup)
    (hclusters : ∀ cluster ∈ clusters, registry.contains cluster = true) :
    ∃ next, Alone caller world next ∧
      next.callers caller = .done (.removeSession session clusters)
        (registry.perform (.removeSession session clusters)).1 ∧
      next.Reflects (registry.perform (.removeSession session clusters)).2 := by
  obtain ⟨entries, hnames, hentries⟩ := exists_entries hreflects clusters hclusters
  have hcall := @Step.call caller world (.removeSession session clusters) hidle
  have hlisting := world.callers_goTo caller (.listing (.removeSession session clusters) [])
  have hlist := alone_list hlisting hentries
  rw [World.goTo_goTo, List.nil_append] at hlist
  have hlisted := Step.listed
    (world.callers_goTo caller (.listing (.removeSession session clusters) entries))
  rw [World.goTo_goTo] at hlisted
  obtain ⟨next, halone, hdone, hnext⟩ :=
    alone_removals (hreflects.goTo caller _) (World.callers_goTo world caller _)
      (hnames ▸ hdistinct) hentries
  rw [hnames] at hdone hnext
  exact ⟨next, (((Alone.step hcall).trans hlist).tail ⟨.listed, hlisted⟩).trans halone, hdone,
    hnext⟩

theorem joined_cons (text : String) (texts : List String) :
    Text.joined "" (text :: texts) = text ++ Text.joined "" texts := by
  unfold Text.joined
  cases texts with
  | nil => rw [String.intercalate_singleton, String.intercalate_nil, String.append_empty]
  | cons second texts => rw [String.intercalate_cons_cons, String.append_empty]

theorem alone_lines {entries : List (String × Nat)} {text : String}
    (hreflects : world.Reflects registry)
    (hplace : world.callers caller = .visiting .dump (.listed text) entries)
    (hdistinct : (entries.map Prod.fst).Nodup)
    (hentries : ∀ entry ∈ entries, world.table entry.1 = some entry.2) :
    ∃ next, Alone caller world next ∧
      next.callers caller = .done .dump (.listed (text ++
        Text.joined "" (entries.map fun entry => Registry.line (registry.named entry.1)))) ∧
      next.Reflects registry := by
  induction entries generalizing world text with
  | nil =>
      refine ⟨world, .refl, ?_, hreflects⟩
      rw [hplace]
      simp [Place.visiting, Text.joined]
  | cons entry entries ih =>
      obtain ⟨cluster, object⟩ := entry
      have hfound := hentries (cluster, object) List.mem_cons_self
      obtain ⟨membership, hfind, hoccupied, hcell⟩ := exists_of_table hreflects hfound
      rw [List.map_cons, List.nodup_cons] at hdistinct
      obtain ⟨next, halone, hnext, hstored, hkept⟩ :=
        alone_visit hplace hfound hcell hreflects.ledger hreflects.distinct
          (fun name _ => hreflects.shows name) fun _ => hoccupied
      have hlater : ∀ entry ∈ entries, next.table entry.1 = some entry.2 := by
        intro entry hentry
        have hname : entry.1 ≠ cluster := by
          intro hname
          exact hdistinct.1 (List.mem_map.mpr ⟨entry, hentry, hname⟩)
        rw [hkept entry.1 hname]
        exact hentries entry (List.mem_cons_of_mem _ hentry)
      change next.Reflects (registry.store cluster membership) at hstored
      rw [Registry.store_of_find? hfind hoccupied] at hstored
      obtain ⟨last, hrest, hdone, hlast⟩ := ih hstored hnext hdistinct.2 hlater
      refine ⟨last, halone.trans hrest, ?_, hlast⟩
      rw [hdone, List.map_cons, joined_cons, Registry.named_of_find? hfind, ← String.append_assoc]

theorem map_named_mergeSort {entries : List (String × Nat)} (hdistinct : registry.Distinct)
    (hnames : entries.map Prod.fst = registry.clusters.map Prod.fst) :
    (entries.mergeSort fun a b => a.1 ≤ b.1).map (fun entry => registry.named entry.1) =
      registry.clusters.mergeSort fun a b => a.1 ≤ b.1 := by
  have hsorted := @List.map_mergeSort _ _ (fun a b : String × Nat => decide (a.1 ≤ b.1))
    (fun a b : String × Membership => decide (a.1 ≤ b.1)) (fun entry => registry.named entry.1)
    entries fun _ _ _ _ => rfl
  rw [hsorted]
  have hentries : entries.map (fun entry => registry.named entry.1) =
      (entries.map Prod.fst).map registry.named := by
    rw [List.map_map]
    rfl
  rw [hentries, hnames, Registry.map_named hdistinct]

theorem alone_perform_dump (hreflects : world.Reflects registry)
    (hidle : world.callers caller = .idle) :
    ∃ next, Alone caller world next ∧
      next.callers caller = .done .dump (registry.perform .dump).1 ∧
      next.Reflects (registry.perform .dump).2 := by
  obtain ⟨entries, hnames, hentries⟩ := exists_entries hreflects
    (registry.clusters.map Prod.fst) (Registry.contains_of_mem_names hreflects.distinct)
  have hcall := @Step.call caller world .dump hidle
  have hlist := alone_list (world.callers_goTo caller (.listing .dump [])) hentries
  rw [World.goTo_goTo, List.nil_append] at hlist
  have hlisted := Step.listed (world.callers_goTo caller (.listing .dump entries))
  rw [World.goTo_goTo] at hlisted
  have hdistinct : ((Operation.dump.itinerary entries).map Prod.fst).Nodup := by
    have hperm := (List.mergeSort_perm entries fun a b => decide (a.1 ≤ b.1)).map Prod.fst
    rw [hnames] at hperm
    exact hperm.nodup_iff.mpr hreflects.distinct
  obtain ⟨next, halone, hdone, hnext⟩ :=
    alone_lines (hreflects.goTo caller _) (World.callers_goTo world caller _) hdistinct
      fun entry hentry => hentries entry (List.mem_mergeSort.mp hentry)
  refine ⟨next, (((Alone.step hcall).trans hlist).tail ⟨.listed, hlisted⟩).trans halone, ?_,
    hnext⟩
  have hlines : ((Operation.dump.itinerary entries).map fun entry =>
        Registry.line (registry.named entry.1)) =
      (registry.clusters.mergeSort fun a b => a.1 ≤ b.1).map Registry.line := by
    rw [← map_named_mergeSort hreflects.distinct hnames, List.map_map]
    rfl
  rw [hdone, hlines]
  rfl

/-! ## Histories -/

/-- Whatever a registry is asked for, a caller alone gets the same reply and leaves the
same clusters and the same ledger behind. -/
theorem alone_perform (hreflects : world.Reflects registry)
    (hidle : world.callers caller = .idle) (hlists : registry.Lists operation) :
    ∃ next, Alone caller world next ∧
      next.callers caller = .done operation (registry.perform operation).1 ∧
      next.Reflects (registry.perform operation).2 := by
  cases hcluster : operation.cluster? with
  | some cluster => exact alone_perform_of_cluster? hreflects hidle hcluster
  | none =>
      cases operation with
      | removeSession session clusters =>
          have hperm : clusters.Perm (registry.clusters.map Prod.fst) := hlists
          refine alone_perform_removeSession hreflects hidle session
            (hperm.nodup_iff.mpr hreflects.distinct) fun cluster hmem => ?_
          exact Registry.contains_of_mem_names hreflects.distinct cluster (hperm.mem_iff.mp hmem)
      | dump => exact alone_perform_dump hreflects hidle
      | _ => contradiction

theorem exists_run_later {capacity : Nat} {moments : List Moment} {operations : List Operation}
    (hrun : Run capacity moments world) (hreflects : world.Reflects registry)
    (hidle : world.callers caller = .idle) (hlists : registry.ListsAll operations) :
    ∃ later next, Run capacity (moments ++ later) next ∧ next.callers caller = .idle ∧
      next.Reflects (registry.after operations) := by
  induction operations generalizing world registry moments with
  | nil => exact ⟨[], world, by simpa using hrun, hidle, hreflects⟩
  | cons operation operations ih =>
      obtain ⟨hfirst, hrest⟩ := hlists
      obtain ⟨next, halone, hdone, hnext⟩ := alone_perform hreflects hidle hfirst
      have hfinish := halone.tail ⟨.finish, Step.finish hdone⟩
      obtain ⟨later, hlater⟩ := exists_run_of_alone hrun hfinish
      obtain ⟨others, last, hlast, hrested, hreflected⟩ :=
        ih hlater (hnext.goTo caller _) (World.callers_goTo next caller _) hrest
      rw [List.append_assoc] at hlast
      exact ⟨later ++ others, last, hlast, hrested, hreflected⟩

/-- Operations one after the other are a run of the shared registry. -/
theorem exists_run_after {capacity : Nat} {operations : List Operation}
    (hlists : (Registry.empty capacity).ListsAll operations) :
    ∃ moments world, Run capacity moments world ∧
      world.Reflects ((Registry.empty capacity).after operations) := by
  have hidle : (World.start capacity).callers 0 = .idle := rfl
  obtain ⟨later, next, hrun, -, hreflects⟩ :=
    exists_run_later .start (World.reflects_start capacity) hidle hlists
  exact ⟨_, next, hrun, hreflects⟩

end Shared

end Muster
