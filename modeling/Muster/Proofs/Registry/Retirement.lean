import Muster.Proofs.Registry.Members
import Muster.Proofs.Registry.Shared

/-!
# Retirement loses no update

An object that is not retired is the one its name leads to.  Entries change in two
ways only.  A fresh object is entered where there was none, and an entry is removed
once its object is retired.  An object is retired by a caller that has found it
empty under its lock, so that no member is lost with it.

The invariant is in two parts.  `Ordered` ties the objects to the table, and
`Place.Fits` ties every caller to the objects it has in mind.  What one caller does
leaves the places of all others fitting, because it changes no object whose lock
another caller holds.
-/

namespace Muster

namespace Shared

namespace World

def Names (world : World) (cluster : String) (object : Nat) : Prop :=
  ∃ cell, world.heap[object]? = some cell ∧ cell.cluster = cluster

/-- The table leads to every object that is not retired, and to no object under
another name than its own. -/
structure Ordered (world : World) : Prop where
  live : ∀ object cell, world.heap[object]? = some cell → cell.retired = false →
    world.table cell.cluster = some object
  table : ∀ cluster object, world.table cluster = some object → world.Names cluster object

theorem ordered_start (capacity : Nat) : (start capacity).Ordered where
  live := fun object cell hcell => by simp [start] at hcell
  table := fun cluster object hfound => by simp [start] at hfound

theorem Ordered.goTo {world : World} (hordered : world.Ordered) (caller : Nat)
    (place : Place) : (world.goTo caller place).Ordered :=
  ⟨hordered.live, hordered.table⟩

theorem Ordered.note {world : World} (hordered : world.Ordered) (cluster : String)
    (lastViewId : UInt64) : (world.note cluster lastViewId).Ordered :=
  ⟨hordered.live, hordered.table⟩

theorem Names.write {world : World} {object : Nat} {cell changed : Cell}
    (hcell : world.heap[object]? = some cell) (hcluster : changed.cluster = cell.cluster)
    {cluster : String} {other : Nat} (hnames : world.Names cluster other) :
    (world.write object changed).Names cluster other := by
  obtain ⟨current, hcurrent, hname⟩ := hnames
  by_cases hother : other = object
  · subst hother
    rw [hcell] at hcurrent
    refine ⟨changed, heap_write_self hcell changed, ?_⟩
    rw [hcluster, Option.some.inj hcurrent, hname]
  · exact ⟨current, (heap_write_of_ne hother world changed).trans hcurrent, hname⟩

theorem Ordered.write {world : World} (hordered : world.Ordered) {object : Nat}
    {cell changed : Cell} (hcell : world.heap[object]? = some cell)
    (hcluster : changed.cluster = cell.cluster)
    (hretired : changed.retired = false → cell.retired = false) :
    (world.write object changed).Ordered where
  live := by
    intro other current hcurrent hlive
    by_cases hother : other = object
    · subst hother
      rw [heap_write_self hcell changed] at hcurrent
      rw [← Option.some.inj hcurrent] at hlive ⊢
      rw [hcluster]
      exact hordered.live other cell hcell (hretired hlive)
    · rw [heap_write_of_ne hother world changed] at hcurrent
      exact hordered.live other current hcurrent hlive
  table := fun cluster other hfound =>
    (hordered.table cluster other hfound).write hcell hcluster

theorem Names.insert {world : World} {cluster : String} {object : Nat}
    (hnames : world.Names cluster object) (fresh : String) :
    (world.insert fresh).Names cluster object := by
  obtain ⟨cell, hcell, hname⟩ := hnames
  refine ⟨cell, ?_, hname⟩
  exact (List.getElem?_append_left (getElem?_lt hcell)).trans hcell

theorem names_insert_self (world : World) (cluster : String) :
    (world.insert cluster).Names cluster world.heap.length :=
  ⟨_, List.getElem?_concat_length, rfl⟩

/-- Where there was no entry there was no live object either. -/
theorem Ordered.insert {world : World} (hordered : world.Ordered) {cluster : String}
    (hmissing : world.table cluster = none) : (world.insert cluster).Ordered where
  live := by
    intro object cell hcell hlive
    change Function.update world.table cluster (some world.heap.length) cell.cluster =
      some object
    rcases Nat.lt_or_ge object world.heap.length with hold | hfresh
    · have hcell' : world.heap[object]? = some cell :=
        (List.getElem?_append_left hold).symm.trans hcell
      have hfound := hordered.live object cell hcell' hlive
      have hne : cell.cluster ≠ cluster := by
        intro hname
        rw [hname, hmissing] at hfound
        contradiction
      rw [Function.update_of_ne hne]
      exact hfound
    · have hobject : object = world.heap.length := by
        have hlt := getElem?_lt hcell
        simp only [World.insert, List.length_append, List.length_singleton] at hlt
        omega
      subst hobject
      have hsame := List.getElem?_concat_length.symm.trans hcell
      rw [← Option.some.inj hsame]
      exact Function.update_self _ _ _
  table := by
    intro name object hfound
    change Function.update world.table cluster (some world.heap.length) name = some object
      at hfound
    by_cases hname : name = cluster
    · subst hname
      rw [Function.update_self] at hfound
      rw [← Option.some.inj hfound]
      exact world.names_insert_self name
    · rw [Function.update_of_ne hname] at hfound
      exact (hordered.table name object hfound).insert cluster

theorem Ordered.unlist {world : World} (hordered : world.Ordered) {object : Nat}
    {cell : Cell} (hcell : world.heap[object]? = some cell) (hretired : cell.retired = true)
    (cluster : String) : (world.unlist cluster object).Ordered where
  live := by
    intro other current hcurrent hlive
    rw [heap_unlist] at hcurrent
    have hne : other ≠ object := by
      intro hother
      rw [hother, hcell] at hcurrent
      rw [← Option.some.inj hcurrent, hretired] at hlive
      contradiction
    exact table_unlist (hordered.live other current hcurrent hlive) hne cluster
  table := by
    intro name other hfound
    have hnames := hordered.table name other (found_of_unlist hfound)
    unfold Names at hnames ⊢
    rw [heap_unlist]
    exact hnames

end World

/-! ## Callers and the objects they have in mind -/

/-- What is known of an object at each stage under its lock. -/
def Stage.Fits (cell : Cell) : Stage → Prop
  | entered | leaving => True
  | emptied => cell.membership.isEmpty = true
  | marked | recorded => cell.retired = true

structure Visit.Fits (world : World) (visit : Visit) : Prop where
  object : world.Names visit.cluster visit.object
  later : ∀ entry ∈ visit.later, world.Names entry.1 entry.2
  /-- an operation on one cluster visits nothing else -/
  aim : ∀ cluster, visit.operation.cluster? = some cluster →
    visit.cluster = cluster ∧ visit.later = []

def Place.Fits (world : World) (caller : Nat) : Place → Prop
  | idle | done _ _ => True
  | seeking operation cluster => operation.cluster? = some cluster
  | listing operation found =>
    operation.cluster? = none ∧ ∀ entry ∈ found, world.Names entry.1 entry.2
  | waiting visit => visit.Fits world
  | within stage visit =>
    visit.Fits world ∧
      ∃ cell, world.heap[visit.object]? = some cell ∧ cell.holder = some caller ∧
        stage.Fits cell

/-- What a move of one caller leaves alone.  Objects keep their names, and those
locked by others are not touched. -/
structure Keeps (caller : Nat) (world next : World) : Prop where
  names : ∀ cluster object, world.Names cluster object → next.Names cluster object
  locked : ∀ (object : Nat) (cell : Cell) (other : Nat), other ≠ caller →
    world.heap[object]? = some cell → cell.holder = some other →
    next.heap[object]? = some cell

theorem Visit.Fits.keep {caller : Nat} {world next : World} {visit : Visit}
    (hfits : visit.Fits world) (hkeeps : Keeps caller world next) : visit.Fits next where
  object := hkeeps.names _ _ hfits.object
  later := fun entry hentry => hkeeps.names _ _ (hfits.later entry hentry)
  aim := hfits.aim

theorem Place.Fits.keep {caller other : Nat} {world next : World} {place : Place}
    (hfits : place.Fits world other) (hkeeps : Keeps caller world next)
    (hother : other ≠ caller) : place.Fits next other := by
  cases place with
  | idle => trivial
  | seeking operation cluster => exact hfits
  | listing operation found =>
      exact ⟨hfits.1, fun entry hentry => hkeeps.names _ _ (hfits.2 entry hentry)⟩
  | waiting visit => exact Visit.Fits.keep hfits hkeeps
  | within stage visit =>
      obtain ⟨hvisit, cell, hcell, hholder, hstage⟩ := hfits
      exact ⟨hvisit.keep hkeeps, cell, hkeeps.locked _ cell other hother hcell hholder,
        hholder, hstage⟩
  | done operation reply => trivial

theorem Place.fits_visiting {world : World} (caller : Nat) {operation : Operation}
    {reply : Reply} {entries : List (String × Nat)}
    (hentries : ∀ entry ∈ entries, world.Names entry.1 entry.2)
    (halone : ∀ cluster, operation.cluster? = some cluster → entries = []) :
    (Place.visiting operation reply entries).Fits world caller := by
  cases entries with
  | nil => trivial
  | cons entry later =>
      exact
        { object := hentries entry List.mem_cons_self
          later := fun other hother => hentries other (List.mem_cons_of_mem _ hother)
          aim := fun cluster hcluster => nomatch halone cluster hcluster }

theorem Visit.Fits.next {world : World} {visit : Visit} (hfits : visit.Fits world)
    (caller : Nat) : visit.next.Fits world caller :=
  Place.fits_visiting caller hfits.later fun cluster hcluster => (hfits.aim cluster hcluster).2

theorem Visit.Fits.refused {world : World} {visit : Visit} (hfits : visit.Fits world)
    (caller : Nat) : visit.refused.Fits world caller := by
  unfold Visit.refused
  split
  next hcreates =>
    obtain ⟨cluster, hcluster⟩ := Operation.exists_cluster?_of_creates hcreates
    rw [(hfits.aim cluster hcluster).1]
    exact hcluster
  · exact hfits.next caller

theorem Visit.Fits.worked {world : World} {visit : Visit} (hfits : visit.Fits world)
    (membership : Membership) : (visit.worked membership).Fits world :=
  ⟨hfits.object, hfits.later, hfits.aim⟩

theorem mem_itinerary {operation : Operation} {found : List (String × Nat)}
    {entry : String × Nat} (hentry : entry ∈ operation.itinerary found) : entry ∈ found := by
  cases operation with
  | dump => exact List.mem_mergeSort.mp hentry
  | _ => exact hentry

structure Sound (world : World) : Prop where
  ordered : world.Ordered
  callers : ∀ caller, (world.callers caller).Fits world caller

theorem sound_start (capacity : Nat) : Sound (.start capacity) where
  ordered := World.ordered_start capacity
  callers := fun _ => trivial

/-- Under its lock nobody else has changed the object since the caller entered. -/
theorem Sound.within {world : World} (hsound : Sound world) {caller : Nat} {stage : Stage}
    {visit : Visit} (hplace : world.callers caller = .within stage visit) {cell : Cell}
    (hcell : world.heap[visit.object]? = some cell) :
    visit.Fits world ∧ cell.cluster = visit.cluster ∧ cell.holder = some caller ∧
      stage.Fits cell := by
  have hfits := hsound.callers caller
  rw [hplace] at hfits
  obtain ⟨hvisit, held, hheld, hholder, hstage⟩ := hfits
  obtain ⟨named, hnamed, hname⟩ := hvisit.object
  rw [hcell] at hheld hnamed
  rw [← Option.some.inj hheld] at hholder hstage
  rw [← Option.some.inj hnamed] at hname
  exact ⟨hvisit, hname, hholder, hstage⟩

theorem keeps_goTo {caller : Nat} {world next : World} (hkeeps : Keeps caller world next)
    (place : Place) : Keeps caller world (next.goTo caller place) :=
  ⟨hkeeps.names, hkeeps.locked⟩

theorem keeps_of_heap {caller : Nat} {world next : World} (hheap : next.heap = world.heap) :
    Keeps caller world next where
  names := by
    intro cluster object hnames
    unfold World.Names at hnames ⊢
    rw [hheap]
    exact hnames
  locked := by
    intro object cell other _ hcell _
    rw [hheap]
    exact hcell

theorem keeps_insert (caller : Nat) (world : World) (cluster : String) :
    Keeps caller world (world.insert cluster) where
  names := fun _ _ hnames => hnames.insert cluster
  locked := fun _ _ _ _ hcell _ =>
    (List.getElem?_append_left (getElem?_lt hcell)).trans hcell

/-- An object is written to by the caller that holds its lock or takes it. -/
theorem keeps_write {caller : Nat} {world : World} {object : Nat} {cell changed : Cell}
    (hcell : world.heap[object]? = some cell) (hcluster : changed.cluster = cell.cluster)
    (hholder : cell.holder = none ∨ cell.holder = some caller) :
    Keeps caller world (world.write object changed) where
  names := fun _ _ hnames => hnames.write hcell hcluster
  locked := by
    intro locked current other hother hcurrent hheld
    have hne : locked ≠ object := by
      intro hlocked
      rw [hlocked, hcell] at hcurrent
      rw [← Option.some.inj hcurrent] at hheld
      rcases hholder with hfree | hmine
      · rw [hfree] at hheld
        contradiction
      · rw [hmine] at hheld
        exact hother (Option.some.inj hheld).symm
    exact (World.heap_write_of_ne hne world changed).trans hcurrent

theorem keeps_step {caller : Nat} {world next : World} {move : Move} (hsound : Sound world)
    (hstep : Step caller world move next) : Keeps caller world next := by
  cases hstep with
  | call _ | find _ _ | miss _ _ _ | list _ _ | listed _ | record _ _ | finish _ =>
      exact keeps_of_heap rfl
  | create _ _ _ => exact keeps_goTo (keeps_insert caller world _) _
  | acquire _ hcell hfree =>
      apply keeps_goTo
      exact keeps_write hcell (by rfl) (.inl hfree)
  | refuse hplace hcell _ | apply hplace hcell _ | mark hplace hcell
  | release hplace hcell =>
      have hmine := (hsound.within hplace hcell).2.2.1
      apply keeps_goTo
      exact keeps_write hcell (by rfl) (.inr hmine)
  | remove _ => exact keeps_of_heap (world.heap_unlist _ _)

theorem callers_of_ne {caller other : Nat} {world next : World} {move : Move}
    (hstep : Step caller world move next) (hother : other ≠ caller) :
    next.callers other = world.callers other := by
  cases hstep with
  | remove hplace =>
      exact (Function.update_of_ne hother _ _).trans
        (congrFun (world.callers_unlist _ _) other)
  | _ => exact Function.update_of_ne hother _ _

theorem ordered_step {caller : Nat} {world next : World} {move : Move}
    (hsound : Sound world) (hstep : Step caller world move next) : next.Ordered := by
  have hordered := hsound.ordered
  cases hstep with
  | call _ | find _ _ | miss _ _ _ | list _ _ | listed _ | finish _ =>
      exact hordered.goTo caller _
  | create _ hmissing _ => exact (hordered.insert hmissing).goTo caller _
  | acquire _ hcell _ | refuse _ hcell _ | apply _ hcell _ | release _ hcell =>
      apply World.Ordered.goTo
      exact hordered.write hcell (by rfl) id
  | mark _ hcell =>
      apply World.Ordered.goTo
      exact hordered.write hcell (by rfl) fun hretired => Bool.noConfusion hretired
  | record _ _ => exact (hordered.note _ _).goTo caller _
  | @remove visit hplace =>
      apply World.Ordered.goTo
      have hfits := hsound.callers caller
      rw [hplace] at hfits
      obtain ⟨_, cell, hcell, _, hretired⟩ := hfits
      exact hordered.unlist hcell hretired visit.cluster

/-- The caller that moves fits its new place. -/
theorem fits_step {caller : Nat} {world next : World} {move : Move} (hsound : Sound world)
    (hstep : Step caller world move next) : (next.callers caller).Fits next caller := by
  have hkeeps := keeps_step hsound hstep
  have hfits := hsound.callers caller
  cases hstep with
  | @call operation hplace =>
      simp only [World.goTo, Function.update_self, Place.beginning]
      cases hcluster : operation.cluster? with
      | some cluster => exact hcluster
      | none => exact ⟨hcluster, fun entry hentry => by contradiction⟩
  | @find operation cluster object hplace hfound =>
      rw [hplace] at hfits
      simp only [World.goTo, Function.update_self]
      exact
        { object := hsound.ordered.table cluster object hfound
          later := fun entry hentry => by contradiction
          aim := fun name hname => ⟨Option.some.inj (hfits.symm.trans hname), rfl⟩ }
  | @create operation cluster hplace hmissing hcreates =>
      rw [hplace] at hfits
      simp only [World.goTo, Function.update_self]
      exact
        { object := world.names_insert_self cluster
          later := fun entry hentry => by contradiction
          aim := fun name hname => ⟨Option.some.inj (hfits.symm.trans hname), rfl⟩ }
  | miss hplace hmissing hcreates =>
      simp only [World.goTo, Function.update_self]
      trivial
  | @list operation found cluster object hplace hfound =>
      rw [hplace] at hfits
      simp only [World.goTo, Function.update_self]
      refine ⟨hfits.1, fun entry hentry => ?_⟩
      rcases List.mem_append.mp hentry with hold | hnew
      · exact hfits.2 entry hold
      · rw [List.mem_singleton.mp hnew]
        exact hsound.ordered.table cluster object hfound
  | @listed operation found hplace =>
      rw [hplace] at hfits
      simp only [World.goTo, Function.update_self]
      apply Place.fits_visiting
      · exact fun entry hentry => hfits.2 entry (mem_itinerary hentry)
      · intro cluster hcluster
        rw [hfits.1] at hcluster
        contradiction
  | @acquire visit cell hplace hcell hfree =>
      rw [hplace] at hfits
      have hvisit := Visit.Fits.keep hfits hkeeps
      simp only [World.goTo, Function.update_self] at hvisit ⊢
      exact ⟨hvisit, _, World.heap_write_self hcell _, rfl, trivial⟩
  | @refuse visit cell hplace hcell hretired =>
      have hvisit := (hsound.within hplace hcell).1.keep hkeeps
      simp only [World.goTo, Function.update_self] at hvisit ⊢
      exact hvisit.refused caller
  | @apply visit cell hplace hcell hlive =>
      obtain ⟨hvisit, _, hholder, _⟩ := hsound.within hplace hcell
      have hvisit := hvisit.keep hkeeps
      simp only [World.goTo, Function.update_self] at hvisit ⊢
      refine ⟨hvisit.worked _, _, World.heap_write_self hcell _, hholder, ?_⟩
      unfold Visit.stageAfter
      split
      next htidied => exact (Bool.and_eq_true_iff.mp htidied).2
      · trivial
  | @mark visit cell hplace hcell =>
      obtain ⟨hvisit, _, hholder, _⟩ := hsound.within hplace hcell
      have hvisit := hvisit.keep hkeeps
      simp only [World.goTo, Function.update_self] at hvisit ⊢
      exact ⟨hvisit, _, World.heap_write_self hcell _, hholder, rfl⟩
  | @record visit cell hplace hcell =>
      obtain ⟨hvisit, _, hholder, hretired⟩ := hsound.within hplace hcell
      simp only [World.goTo, Function.update_self]
      exact ⟨hvisit.keep hkeeps, cell, hcell, hholder, hretired⟩
  | @remove visit hplace =>
      rw [hplace] at hfits
      obtain ⟨hvisit, cell, hcell, hholder, _⟩ := hfits
      have hvisit := hvisit.keep hkeeps
      simp only [World.goTo, Function.update_self] at hvisit ⊢
      exact ⟨hvisit, cell, (congrArg (·[visit.object]?) (world.heap_unlist _ _)).trans hcell,
        hholder, trivial⟩
  | @release visit cell hplace hcell =>
      have hvisit := (hsound.within hplace hcell).1.keep hkeeps
      simp only [World.goTo, Function.update_self] at hvisit ⊢
      exact hvisit.next caller
  | finish hplace =>
      simp only [World.goTo, Function.update_self]
      trivial

theorem sound_step {caller : Nat} {world next : World} {move : Move} (hsound : Sound world)
    (hstep : Step caller world move next) : Sound next where
  ordered := ordered_step hsound hstep
  callers := by
    intro other
    by_cases hother : other = caller
    · subst hother
      exact fits_step hsound hstep
    · rw [callers_of_ne hstep hother]
      exact (hsound.callers other).keep (keeps_step hsound hstep) hother

theorem sound_run {capacity : Nat} {moments : List Moment} {world : World}
    (hrun : Run capacity moments world) : Sound world := by
  induction hrun with
  | start => exact sound_start capacity
  | step _ hstep ih => exact sound_step ih hstep

/-! ## Members stay -/

/-- The table leads to a live object of the cluster that has the address as a
member. -/
def World.Has (world : World) (cluster : String) (address : Address) : Prop :=
  ∃ object cell, world.table cluster = some object ∧ world.heap[object]? = some cell ∧
    cell.cluster = cluster ∧ cell.retired = false ∧
    cell.membership.contains address = true

/-- At this moment the work of a visit is done on an object that is not retired. -/
structure Moment.Applies (moment : Moment) (visit : Visit) (cell : Cell) : Prop where
  move : moment.move = .apply
  place : moment.world.callers moment.caller = .within .entered visit
  object : moment.world.heap[visit.object]? = some cell
  live : cell.retired = false

/-- At this moment somebody is let into a cluster. -/
def Moment.Admits (moment : Moment) (cluster : String) (address : Address) : Prop :=
  ∃ visit cell, moment.Applies visit cell ∧ visit.operation.entrant? = some (cluster, address)

/-- At this moment a member is sent away by a departure. -/
def Moment.Drops (moment : Moment) (cluster : String) (address : Address) : Prop :=
  ∃ visit cell, moment.Applies visit cell ∧ visit.cluster = cluster ∧
    visit.operation.drops cell.membership address = true

theorem World.Has.write {world : World} {cluster : String} {address : Address}
    (hhas : world.Has cluster address) {object : Nat} {cell changed : Cell}
    (hcell : world.heap[object]? = some cell) (hcluster : changed.cluster = cell.cluster)
    (hretired : cell.cluster = cluster → cell.membership.contains address = true →
      cell.retired = false → changed.retired = false)
    (hmember : cell.cluster = cluster → cell.membership.contains address = true →
      changed.membership.contains address = true) :
    (world.write object changed).Has cluster address := by
  obtain ⟨found, current, hfound, hcurrent, hname, hlive, hcontains⟩ := hhas
  by_cases hsame : found = object
  · subst hsame
    rw [hcell] at hcurrent
    rw [← Option.some.inj hcurrent] at hname hlive hcontains
    exact ⟨found, changed, hfound, World.heap_write_self hcell changed, hcluster.trans hname,
      hretired hname hcontains hlive, hmember hname hcontains⟩
  · exact ⟨found, current, hfound, (World.heap_write_of_ne hsame world changed).trans hcurrent,
      hname, hlive, hcontains⟩

/-- A member stays through any move, unless the move sends it away. -/
theorem has_step {caller : Nat} {world next : World} {move : Move} (hsound : Sound world)
    (hstep : Step caller world move next) {cluster : String} {address : Address}
    (hhas : world.Has cluster address) :
    next.Has cluster address ∨
      (⟨world, caller, move⟩ : Moment).Drops cluster address := by
  cases hstep with
  | call _ | find _ _ | miss _ _ _ | list _ _ | listed _ | record _ _ | finish _ =>
      exact .inl hhas
  | @create operation fresh hplace hmissing hcreates =>
      left
      obtain ⟨object, cell, hfound, hcell, hrest⟩ := hhas
      have hne : cluster ≠ fresh := by
        intro hname
        rw [hname, hmissing] at hfound
        contradiction
      exact ⟨object, cell, (Function.update_of_ne hne _ _).trans hfound,
        (List.getElem?_append_left (getElem?_lt hcell)).trans hcell, hrest⟩
  | acquire _ hcell _ | refuse _ hcell _ | release _ hcell =>
      left
      exact hhas.write hcell (by rfl) (fun _ _ hlive => hlive) fun _ hmember => hmember
  | @apply visit cell hplace hcell hlive =>
      cases hdrops : visit.operation.drops cell.membership address with
      | false =>
          left
          refine hhas.write hcell (by rfl) (fun _ _ hlive => hlive) fun _ hmember => ?_
          exact Operation.contains_work hmember hdrops visit.cluster
      | true =>
          by_cases hname : visit.cluster = cluster
          · exact .inr ⟨visit, cell, ⟨rfl, hplace, hcell, hlive⟩, hname, hdrops⟩
          · left
            have hcluster := (hsound.within hplace hcell).2.1
            have hother : cell.cluster ≠ cluster := fun hsame =>
              hname (hcluster.symm.trans hsame)
            exact hhas.write hcell (by rfl) (fun hsame => absurd hsame hother)
              fun hsame => absurd hsame hother
  | @mark visit cell hplace hcell =>
      left
      have hempty : cell.membership.isEmpty = true := (hsound.within hplace hcell).2.2.2
      have hnobody (hmember : cell.membership.contains address = true) : False := by
        rw [Membership.isEmpty_eq_false_of_contains hmember] at hempty
        contradiction
      exact hhas.write hcell (by rfl) (fun _ hmember => (hnobody hmember).elim)
        fun _ hmember => hmember
  | @remove visit hplace =>
      left
      obtain ⟨object, cell, hfound, hcell, hname, hlive, hmember⟩ := hhas
      have hfits := hsound.callers caller
      rw [hplace] at hfits
      obtain ⟨_, gone, hgone, _, hretired⟩ := hfits
      have hne : object ≠ visit.object := by
        intro hsame
        rw [← hsame, hcell] at hgone
        rw [← Option.some.inj hgone, Stage.Fits, hlive] at hretired
        contradiction
      refine ⟨object, cell, World.table_unlist hfound hne _, ?_, hname, hlive, hmember⟩
      exact (congrArg (·[object]?) (world.heap_unlist _ _)).trans hcell

theorem cluster?_of_entrant? {operation : Operation} {cluster : String} {address : Address}
    (hentrant : operation.entrant? = some (cluster, address)) :
    operation.cluster? = some cluster := by
  cases operation with
  | join name newcomer session =>
      exact congrArg some (congrArg Prod.fst (Option.some.inj hentrant))
  | registerView name bulk newcomer session =>
      exact congrArg some (congrArg Prod.fst (Option.some.inj hentrant))
  | _ => contradiction

theorem Moment.Applies.found {moment : Moment} {visit : Visit} {cell : Cell}
    (happlies : moment.Applies visit cell) (hsound : Sound moment.world) :
    moment.world.table visit.cluster = some visit.object := by
  rw [← (hsound.within happlies.place happlies.object).2.1]
  exact hsound.ordered.live visit.object cell happlies.object happlies.live

theorem has_of_admits {caller : Nat} {world next : World} {move : Move}
    (hsound : Sound world) (hstep : Step caller world move next) {cluster : String}
    {address : Address}
    (hadmits : (⟨world, caller, move⟩ : Moment).Admits cluster address) :
    next.Has cluster address := by
  obtain ⟨visit, cell, happlies, hentrant⟩ := hadmits
  have hfound := happlies.found hsound
  obtain ⟨hmove, hplace, hcell, hlive⟩ := happlies
  obtain ⟨hvisit, hname, -, -⟩ := hsound.within hplace hcell
  have haim := (hvisit.aim cluster (cluster?_of_entrant? hentrant)).1
  cases hstep with
  | @apply applied current happlied hcurrent hlive =>
      have hsame : applied = visit := by
        rw [show world.callers caller = _ from hplace] at happlied
        injection happlied with _ hsame
        exact hsame.symm
      subst hsame
      rw [show world.heap[applied.object]? = _ from hcell] at hcurrent
      rw [← Option.some.inj hcurrent] at hlive ⊢
      rw [haim] at hfound hname
      exact ⟨applied.object, _, hfound, World.heap_write_self hcell _, hname, hlive,
        Operation.contains_work_of_entrant hentrant cell.membership⟩
  | _ => contradiction

/-- Whoever is let in at some moment of a run stays until sent away. -/
theorem has_or_drops {capacity : Nat} {moments : List Moment} {world : World}
    (hrun : Run capacity moments world) {earlier later : List Moment} {moment : Moment}
    (hmoments : moments = earlier ++ moment :: later) {cluster : String} {address : Address}
    (hadmits : moment.Admits cluster address) :
    world.Has cluster address ∨ ∃ departure ∈ later, departure.Drops cluster address := by
  induction hrun generalizing later with
  | start => simp at hmoments
  | @step moments world next caller move hrun hstep ih =>
      have hsound := sound_run hrun
      rcases List.eq_nil_or_concat' later with rfl | ⟨later, last, rfl⟩
      · left
        obtain ⟨_, hlast⟩ := List.append_inj' hmoments rfl
        rw [← List.singleton_inj.mp hlast] at hadmits
        exact has_of_admits hsound hstep hadmits
      · rw [← List.cons_append, ← List.append_assoc] at hmoments
        obtain ⟨hmoments, hlast⟩ := List.append_inj' hmoments rfl
        rcases ih hmoments with hhas | ⟨departure, hdeparture, hdrops⟩
        · rcases has_step hsound hstep hhas with hkept | hdrops
          · exact .inl hkept
          · refine .inr ⟨last, List.mem_append_right _ List.mem_cons_self, ?_⟩
            rw [← List.singleton_inj.mp hlast]
            exact hdrops
        · exact .inr ⟨departure, List.mem_append_left _ hdeparture, hdrops⟩

/-! ## What completes was applied -/

/-- What a caller has done its work for, once it has. -/
def Place.outcome? : Place → Option (Operation × Reply)
  | within .entered _ => none
  | within _ visit => some (visit.operation, visit.reply)
  | done operation reply => some (operation, reply)
  | _ => none

/-- During its present call the caller has done the work of an operation, with this
reply, on a live object that the table led to. -/
def Served (moments : List Moment) (caller : Nat) (operation : Operation) (reply : Reply) :
    Prop :=
  ∃ earlier moment later visit cell, moments = earlier ++ moment :: later ∧
    moment.caller = caller ∧ moment.Applies visit cell ∧
    moment.world.table visit.cluster = some visit.object ∧
    visit.operation = operation ∧ operation.cluster? = some visit.cluster ∧
    reply = (visit.work cell.membership).1 ∧
    ∀ other ∈ later, other.caller = caller → ∀ call, other.move ≠ .call call

theorem Served.extend {moments : List Moment} {caller : Nat} {operation : Operation}
    {reply : Reply} (hserved : Served moments caller operation reply) {last : Moment}
    (hlast : last.caller = caller → ∀ call, last.move ≠ .call call) :
    Served (moments ++ [last]) caller operation reply := by
  obtain ⟨earlier, moment, later, visit, cell, hmoments, hcaller, happlies, hfound, hoperation,
    hcluster, hreply, hlater⟩ := hserved
  refine ⟨earlier, moment, later ++ [last], visit, cell, ?_, hcaller, happlies, hfound,
    hoperation, hcluster, hreply, ?_⟩
  · rw [hmoments, List.append_assoc, List.cons_append]
  · intro other hother
    rcases List.mem_append.mp hother with hold | hnew
    · exact hlater other hold
    · rw [List.mem_singleton.mp hnew]
      exact hlast

theorem outcome?_beginning (operation : Operation) :
    (Place.beginning operation).outcome? = none := by
  unfold Place.beginning
  split <;> rfl

theorem outcome?_visiting {operation other : Operation} {reply result : Reply}
    {entries : List (String × Nat)}
    (houtcome : (Place.visiting operation reply entries).outcome? = some (other, result)) :
    operation = other ∧ reply = result := by
  cases entries with
  | nil => exact Prod.mk.inj (Option.some.inj houtcome)
  | cons entry later => contradiction

theorem served_of_step {moments : List Moment} {caller : Nat} {world next : World}
    {move : Move} (hsound : Sound world) (hstep : Step caller world move next)
    (hserved : ∀ operation reply, (world.callers caller).outcome? = some (operation, reply) →
      operation.creates = true → Served moments caller operation reply)
    {operation : Operation} {reply : Reply}
    (houtcome : (next.callers caller).outcome? = some (operation, reply))
    (hcreates : operation.creates = true) :
    Served (moments ++ [⟨world, caller, move⟩]) caller operation reply := by
  have hfits := hsound.callers caller
  cases hstep with
  | @call called hplace =>
      simp only [World.goTo, Function.update_self] at houtcome
      rw [outcome?_beginning] at houtcome
      contradiction
  | find _ _ | create _ _ _ | list _ _ | acquire _ _ _ | finish _ =>
      simp [World.goTo, Function.update_self, Place.outcome?] at houtcome
  | miss _ _ hexisting =>
      simp only [World.goTo, Function.update_self] at houtcome
      obtain ⟨hsame, _⟩ := Prod.mk.inj (Option.some.inj houtcome)
      rw [hsame, hcreates] at hexisting
      contradiction
  | listed hplace =>
      rw [hplace] at hfits
      simp only [World.goTo, Function.update_self] at houtcome
      obtain ⟨cluster, hcluster⟩ := Operation.exists_cluster?_of_creates hcreates
      rw [← (outcome?_visiting houtcome).1, hfits.1] at hcluster
      contradiction
  | refuse hplace hcell hretired =>
      simp only [World.goTo, Function.update_self, Visit.refused] at houtcome
      split at houtcome
      · simp [Place.outcome?] at houtcome
      next hexisting =>
        rw [(outcome?_visiting houtcome).1] at hexisting
        contradiction
  | @apply visit cell hplace hcell hlive =>
      simp only [World.goTo, Function.update_self] at houtcome
      have hworked : (visit.operation, (visit.worked cell.membership).reply) =
          (operation, reply) := by
        revert houtcome
        unfold Visit.stageAfter
        split <;> exact Option.some.inj
      obtain ⟨rfl, hreply⟩ := Prod.mk.inj hworked
      obtain ⟨cluster, hcluster⟩ := Operation.exists_cluster?_of_creates hcreates
      have happlies : (⟨world, caller, .apply⟩ : Moment).Applies visit cell :=
        ⟨rfl, hplace, hcell, hlive⟩
      refine ⟨moments, ⟨world, caller, .apply⟩, [], visit, cell, rfl, rfl, happlies,
        happlies.found hsound, rfl, ?_, ?_, ?_⟩
      · rw [((hsound.within hplace hcell).1.aim cluster hcluster).1]
        exact hcluster
      · rw [← hreply]
        exact Operation.and_work hcluster visit.reply visit.cluster cell.membership
      · exact fun other hother => by contradiction
  | mark hplace _ | record hplace _ | remove hplace =>
      rw [hplace] at hserved
      simp only [World.goTo, Function.update_self] at houtcome
      exact (hserved operation reply houtcome hcreates).extend fun _ call => Move.noConfusion
  | @release visit cell hplace hcell =>
      rw [hplace] at hserved
      simp only [World.goTo, Function.update_self] at houtcome
      obtain ⟨rfl, rfl⟩ := outcome?_visiting houtcome
      exact (hserved visit.operation visit.reply rfl hcreates).extend
        fun _ call => Move.noConfusion

theorem served_run {capacity : Nat} {moments : List Moment} {world : World}
    (hrun : Run capacity moments world) {caller : Nat} {operation : Operation} {reply : Reply}
    (houtcome : (world.callers caller).outcome? = some (operation, reply))
    (hcreates : operation.creates = true) : Served moments caller operation reply := by
  induction hrun generalizing operation reply with
  | start => contradiction
  | @step moments world next mover move hrun hstep ih =>
      by_cases hmover : caller = mover
      · subst hmover
        exact served_of_step (sound_run hrun) hstep (fun _ _ => ih) houtcome hcreates
      · rw [callers_of_ne hstep hmover] at houtcome
        exact (ih houtcome hcreates).extend fun hsame => absurd hsame.symm hmover

/-- However the callers of a registry interleave, an object that is not retired is
the only one of its cluster and the one in the table, a call to join or register
completes only after its work was done on such an object, and whoever was let in is
a member of the table's object until a departure sends it away. -/
theorem retirement_loses_no_update {capacity : Nat} {moments : List Moment} {world : World}
    (hrun : Run capacity moments world) :
    (∀ object cell, world.heap[object]? = some cell → cell.retired = false →
      world.table cell.cluster = some object ∧
      ∀ other twin, world.heap[other]? = some twin → twin.retired = false →
        twin.cluster = cell.cluster → other = object) ∧
    (∀ caller operation reply, world.callers caller = .done operation reply →
      operation.creates = true → Served moments caller operation reply) ∧
    (∀ earlier moment later cluster address, moments = earlier ++ moment :: later →
      moment.Admits cluster address →
      world.Has cluster address ∨ ∃ departure ∈ later, departure.Drops cluster address) := by
  have hlive := (sound_run hrun).ordered.live
  refine ⟨?_, ?_, ?_⟩
  · intro object cell hcell hcurrent
    refine ⟨hlive object cell hcell hcurrent, fun other twin htwin hothers hname => ?_⟩
    have hother := hlive other twin htwin hothers
    rw [hname, hlive object cell hcell hcurrent] at hother
    exact (Option.some.inj hother).symm
  · intro caller operation reply hplace hcreates
    apply served_run hrun _ hcreates
    rw [hplace]
    rfl
  · intro earlier moment later cluster address hmoments hadmits
    exact has_or_drops hrun hmoments hadmits

/-- A reader retires the object that a newcomer has just entered in the table, and
the newcomer is let into another one. -/
theorem retirement_loses_no_update_to_reader :
    let newcomer : Operation := .join "a" (.ofUuid ⟨0, 1⟩) ⟨1⟩
    ∃ moments world reply, Run 1 moments world ∧ world.callers 0 = .done newcomer reply ∧
      world.heap.map Cell.retired = [true, false] ∧ world.table "a" = some 1 ∧
      Served moments 0 newcomer reply ∧ world.Has "a" (.ofUuid ⟨0, 1⟩) := by
  have hrun := @Run.step 1 _ _ _ 0 (.call (.join "a" (.ofUuid ⟨0, 1⟩) ⟨1⟩)) .start (.call rfl)
  have hrun := @Run.step _ _ _ _ 0 .find hrun (.create rfl rfl rfl)
  have hrun := @Run.step _ _ _ _ 1 (.call (.getView "a")) hrun (.call rfl)
  have hrun := @Run.step _ _ _ _ 1 .find hrun (@Step.find _ _ _ _ 0 rfl rfl)
  have hrun := @Run.step _ _ _ _ 1 .acquire hrun
    (@Step.acquire _ _ _ ⟨"a", .startingFrom 0, false, none⟩ rfl rfl rfl)
  have hrun := @Run.step _ _ _ _ 1 .apply hrun
    (@Step.apply _ _ _ ⟨"a", .startingFrom 0, false, some 1⟩ rfl rfl rfl)
  have hrun := @Run.step _ _ _ _ 1 .mark hrun
    (@Step.mark _ _ _ ⟨"a", .startingFrom 0, false, some 1⟩ rfl rfl)
  have hrun := @Run.step _ _ _ _ 1 .record hrun
    (@Step.record _ _ _ ⟨"a", .startingFrom 0, true, some 1⟩ rfl rfl)
  have hrun := @Run.step _ _ _ _ 1 .remove hrun (.remove rfl)
  have hrun := @Run.step _ _ _ _ 1 .release hrun
    (@Step.release _ _ _ ⟨"a", .startingFrom 0, true, some 1⟩ rfl rfl)
  have hrun := @Run.step _ _ _ _ 0 .acquire hrun
    (@Step.acquire _ _ _ ⟨"a", .startingFrom 0, true, none⟩ rfl rfl rfl)
  have hrun := @Run.step _ _ _ _ 0 .refuse hrun
    (@Step.refuse _ _ _ ⟨"a", .startingFrom 0, true, some 0⟩ rfl rfl rfl)
  have hrun := @Run.step _ _ _ _ 0 .find hrun (.create rfl rfl rfl)
  have hrun := @Run.step _ _ _ _ 0 .acquire hrun
    (@Step.acquire _ _ _ ⟨"a", .startingFrom 0, false, none⟩ rfl rfl rfl)
  have hrun := @Run.step _ _ _ _ 0 .apply hrun
    (@Step.apply _ _ _ ⟨"a", .startingFrom 0, false, some 0⟩ rfl rfl rfl)
  have hrun := @Run.step _ _ _ _ 0 .release hrun
    (@Step.release _ _ _ ⟨"a", ⟨[⟨.ofUuid ⟨0, 1⟩, some ⟨1⟩⟩], 1⟩, false, some 0⟩ rfl rfl)
  obtain ⟨_, hserved, hstays⟩ := retirement_loses_no_update hrun
  refine ⟨_, _, _, hrun, rfl, rfl, rfl, hserved 0 _ _ rfl rfl, ?_⟩
  have hkept := hstays _ _ [_] "a" (.ofUuid ⟨0, 1⟩) (List.append_assoc _ [_] [_])
    ⟨⟨.join "a" (.ofUuid ⟨0, 1⟩) ⟨1⟩, "a", 1, [], .joined none⟩,
      ⟨"a", .startingFrom 0, false, some 0⟩, ⟨rfl, rfl, rfl, rfl⟩, rfl⟩
  refine hkept.resolve_right ?_
  rintro ⟨departure, hdeparture, visit, cell, happlies, _⟩
  rw [List.mem_singleton.mp hdeparture] at happlies
  exact Move.noConfusion happlies.move

end Shared

end Muster
