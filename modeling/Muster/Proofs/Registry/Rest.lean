import Muster.Proofs.Registry.Alone
import Muster.Proofs.Registry.Annals
import Muster.Proofs.Registry.Retirement

/-!
# A shared registry at rest

While callers are on their way, the table may lead to an object without members, to one
that is retired, or to one whose name is in the ledger already.  Each of these is somebody's
business: an object is empty because the caller that created it has not done its work yet,
or because a caller has just sent the last member away, and such a caller goes on to retire
it and takes its name out of the table.  Once all calls have returned nobody is left to
blame, so the table leads to live objects with members and none of their names is in the
ledger.

The ledger of a shared registry has annals as well, since every move makes at most one
booking.
-/

namespace Muster

namespace Shared

/-- Whether a caller will see to it that an object does not stay empty. -/
def Place.Attends (object : Nat) : Place → Prop
  | waiting visit | within .entered visit =>
    visit.object = object ∧ visit.operation.creates = true
  | within .emptied visit => visit.object = object
  | _ => False

/-- Whether a caller has yet to take an object that is retired out of the table. -/
def Place.Retires (object : Nat) : Place → Prop
  | within .marked visit | within .recorded visit => visit.object = object
  | _ => False

/-- The same once the name of the object is in the ledger. -/
def Place.HasRecorded (object : Nat) : Place → Prop
  | within .recorded visit => visit.object = object
  | _ => False

/-- The visit of a caller that has found an object without members and not taken it out of
the table yet. -/
def Place.clearing? : Place → Option Visit
  | within .emptied visit | within .marked visit | within .recorded visit => some visit
  | _ => none

/-- What is out of order about an object in the table is the business of some caller. -/
structure World.Kept (world : World) : Prop where
  empty : ∀ object cell, world.heap[object]? = some cell → cell.retired = false →
    cell.membership.isEmpty = true → ∃ caller, (world.callers caller).Attends object
  retired : ∀ object cell, world.heap[object]? = some cell → cell.retired = true →
    world.table cell.cluster = some object → ∃ caller, (world.callers caller).Retires object
  noted : ∀ cluster object, world.table cluster = some object →
    cluster ∈ world.ledger.names → ∃ caller, (world.callers caller).HasRecorded object
  listed : ∀ caller visit, (world.callers caller).clearing? = some visit →
    world.table visit.cluster = some visit.object

theorem World.kept_start (capacity : Nat) : (start capacity).Kept where
  empty := fun _ _ hcell => by simp [start] at hcell
  retired := fun _ _ hcell => by simp [start] at hcell
  noted := fun _ _ hfound => by simp [start] at hfound
  listed := fun _ _ hvisit => by simp [start, Place.clearing?] at hvisit

/-- Whoever answers for something still does so after the move of another caller. -/
theorem exists_caller_step {caller : Nat} {world next : World} {move : Move}
    (hstep : Step caller world move next) {P : Place → Prop}
    (hsome : ∃ other, P (world.callers other)) {place : Place}
    (hplace : world.callers caller = place) (hmover : P place → P (next.callers caller)) :
    ∃ other, P (next.callers other) := by
  obtain ⟨other, hother⟩ := hsome
  refine ⟨other, ?_⟩
  by_cases hsame : other = caller
  · subst hsame
    exact hmover (hplace ▸ hother)
  · rw [callers_of_ne hstep hsame]
    exact hother

theorem World.of_heap_write {world : World} {object other : Nat} {changed current : Cell}
    (hcurrent : (world.write object changed).heap[other]? = some current) :
    (other = object ∧ current = changed) ∨
      (other ≠ object ∧ world.heap[other]? = some current) := by
  by_cases hother : other = object
  · subst hother
    left
    have hlt : other < world.heap.length := by
      have hlt := getElem?_lt hcurrent
      rwa [World.write, List.length_set] at hlt
    rw [World.write, List.getElem?_set_self hlt] at hcurrent
    exact ⟨rfl, (Option.some.inj hcurrent).symm⟩
  · rw [heap_write_of_ne hother world changed] at hcurrent
    exact .inr ⟨hother, hcurrent⟩

theorem World.of_heap_insert {world : World} {cluster : String} {object : Nat} {cell : Cell}
    (hcell : (world.insert cluster).heap[object]? = some cell) :
    (object = world.heap.length ∧
        cell = ⟨cluster, .startingFrom (world.ledger.take cluster).1, false, none⟩) ∨
      world.heap[object]? = some cell := by
  rcases Nat.lt_or_ge object world.heap.length with hold | hfresh
  · exact .inr ((List.getElem?_append_left hold).symm.trans hcell)
  · left
    have hobject : object = world.heap.length := by
      have hlt := getElem?_lt hcell
      simp only [World.insert, List.length_append, List.length_singleton] at hlt
      omega
    subst hobject
    exact ⟨rfl, Option.some.inj (hcell.symm.trans List.getElem?_concat_length)⟩

theorem World.table_unlist_self {world : World} {cluster : String} {object : Nat}
    (hfound : world.table cluster = some object) :
    (world.unlist cluster object).table cluster = none := by
  rw [unlist, if_pos hfound]
  exact Function.update_self _ _ _

/-- Where work leaves nobody behind the caller goes on to retire the object, unless nobody was
there before and the work does not create clusters. -/
theorem Visit.emptied_or_untouched {visit : Visit} {membership : Membership}
    (hempty : (visit.work membership).2.isEmpty = true) :
    visit.stageAfter membership = .emptied ∨
      visit.operation.creates = false ∧ membership.isEmpty = true := by
  cases htidies : visit.operation.tidies membership with
  | true =>
      left
      rw [stageAfter, htidies, hempty]
      rfl
  | false =>
      have hsame : (visit.work membership).2 = membership := work_of_untidy htidies visit.cluster
      refine .inr ⟨?_, hsame ▸ hempty⟩
      rw [Bool.eq_false_iff]
      intro hcreates
      obtain ⟨cluster, hcluster⟩ := Operation.exists_cluster?_of_creates hcreates
      rw [Operation.tidies_of_cluster? hcluster] at htidies
      contradiction

variable {caller : Nat} {world next : World} {move : Move}

/-- An object without members is always somebody's business. -/
theorem empty_step (hkept : world.Kept) (hstep : Step caller world move next) {object : Nat}
    {cell : Cell} (hcell : next.heap[object]? = some cell) (hlive : cell.retired = false)
    (hempty : cell.membership.isEmpty = true) :
    ∃ other, (next.callers other).Attends object := by
  have hmove := hstep
  cases hstep with
  | call hplace | find hplace _ | miss hplace _ _ | list hplace _ | listed hplace
  | record hplace _ | finish hplace =>
      exact exists_caller_step hmove (hkept.empty object cell hcell hlive hempty) hplace False.elim
  | create hplace hmissing hcreates =>
      rcases World.of_heap_insert hcell with ⟨rfl, -⟩ | hold
      · refine ⟨caller, ?_⟩
        rw [World.callers_goTo]
        exact ⟨rfl, hcreates⟩
      · exact exists_caller_step hmove (hkept.empty object cell hold hlive hempty) hplace False.elim
  | acquire hplace hheld hfree =>
      have hattended : ∃ other, (world.callers other).Attends object := by
        rcases World.of_heap_write hcell with ⟨rfl, rfl⟩ | ⟨-, hold⟩
        · exact hkept.empty _ _ hheld hlive hempty
        · exact hkept.empty object cell hold hlive hempty
      refine exists_caller_step hmove hattended hplace ?_
      rw [World.callers_goTo]
      exact id
  | refuse hplace hheld hretired =>
      rcases World.of_heap_write hcell with ⟨-, rfl⟩ | ⟨hne, hold⟩
      · exact Bool.noConfusion (hretired.symm.trans hlive)
      · exact exists_caller_step hmove (hkept.empty object cell hold hlive hempty) hplace
          fun hattends => absurd hattends.1.symm hne
  | @apply visit held hplace hheld hactive =>
      rcases World.of_heap_write hcell with ⟨rfl, rfl⟩ | ⟨hne, hold⟩
      · rcases Visit.emptied_or_untouched hempty with hstage | ⟨hlooks, hbefore⟩
        · refine ⟨caller, ?_⟩
          rw [World.callers_goTo, hstage]
          exact rfl
        · refine exists_caller_step hmove (hkept.empty _ _ hheld hactive hbefore) hplace ?_
          rintro ⟨-, hcreates⟩
          exact Bool.noConfusion (hlooks.symm.trans hcreates)
      · exact exists_caller_step hmove (hkept.empty object cell hold hlive hempty) hplace
          fun hattends => absurd hattends.1.symm hne
  | mark hplace hheld =>
      rcases World.of_heap_write hcell with ⟨-, rfl⟩ | ⟨hne, hold⟩
      · contradiction
      · exact exists_caller_step hmove (hkept.empty object cell hold hlive hempty) hplace
          fun hattends => absurd hattends.symm hne
  | remove hplace =>
      have hold : world.heap[object]? = some cell :=
        (congrArg (·[object]?) (world.heap_unlist _ _)).symm.trans hcell
      exact exists_caller_step hmove (hkept.empty object cell hold hlive hempty) hplace False.elim
  | release hplace hheld =>
      have hattended : ∃ other, (world.callers other).Attends object := by
        rcases World.of_heap_write hcell with ⟨rfl, rfl⟩ | ⟨-, hold⟩
        · exact hkept.empty _ _ hheld hlive hempty
        · exact hkept.empty object cell hold hlive hempty
      exact exists_caller_step hmove hattended hplace False.elim

/-- An object that is retired stays in the table only until the caller that has marked it
removes it. -/
theorem retired_step (hsound : Sound world) (hkept : world.Kept)
    (hstep : Step caller world move next) {object : Nat} {cell : Cell}
    (hcell : next.heap[object]? = some cell) (hretired : cell.retired = true)
    (hfound : next.table cell.cluster = some object) :
    ∃ other, (next.callers other).Retires object := by
  have hmove := hstep
  cases hstep with
  | call hplace | find hplace _ | miss hplace _ _ | list hplace _ | listed hplace
  | finish hplace =>
      exact exists_caller_step hmove (hkept.retired object cell hcell hretired hfound) hplace
        False.elim
  | @create operation cluster hplace hmissing hcreates =>
      rcases World.of_heap_insert hcell with ⟨-, rfl⟩ | hold
      · contradiction
      · have hne : cell.cluster ≠ cluster := by
          intro hname
          change Function.update world.table cluster (some world.heap.length) cell.cluster =
            some object at hfound
          rw [hname, Function.update_self] at hfound
          exact Nat.lt_irrefl _ (Option.some.inj hfound ▸ getElem?_lt hold)
        have hlisted : world.table cell.cluster = some object :=
          (Function.update_of_ne hne _ _).symm.trans hfound
        exact exists_caller_step hmove (hkept.retired object cell hold hretired hlisted) hplace
          False.elim
  | acquire hplace hheld _ | refuse hplace hheld _ | release hplace hheld =>
      have hsome : ∃ other, (world.callers other).Retires object := by
        rcases World.of_heap_write hcell with ⟨rfl, rfl⟩ | ⟨-, hold⟩
        · exact hkept.retired _ _ hheld hretired hfound
        · exact hkept.retired object cell hold hretired hfound
      exact exists_caller_step hmove hsome hplace False.elim
  | apply hplace hheld hactive =>
      rcases World.of_heap_write hcell with ⟨-, rfl⟩ | ⟨-, hold⟩
      · exact Bool.noConfusion (hactive.symm.trans hretired)
      · exact exists_caller_step hmove (hkept.retired object cell hold hretired hfound) hplace
          False.elim
  | mark hplace hheld =>
      rcases World.of_heap_write hcell with ⟨rfl, -⟩ | ⟨-, hold⟩
      · refine ⟨caller, ?_⟩
        rw [World.callers_goTo]
        exact rfl
      · exact exists_caller_step hmove (hkept.retired object cell hold hretired hfound) hplace
          False.elim
  | record hplace hheld =>
      refine exists_caller_step hmove (hkept.retired object cell hcell hretired hfound) hplace ?_
      rw [World.callers_goTo]
      exact id
  | @remove visit hplace =>
      have hold : world.heap[object]? = some cell :=
        (congrArg (·[object]?) (world.heap_unlist _ _)).symm.trans hcell
      have hlisted : world.table cell.cluster = some object := World.found_of_unlist hfound
      refine exists_caller_step hmove (hkept.retired object cell hold hretired hlisted) hplace ?_
      rintro rfl
      rw [(hsound.within hplace hold).2.1] at hfound
      have hgone := World.table_unlist_self (hkept.listed caller visit (by rw [hplace]; rfl))
      exact nomatch hgone.symm.trans hfound

/-- A name that is in the ledger stays in the table only until the caller that has recorded
it removes it. -/
theorem noted_step (hsound : Sound world) (hkept : world.Kept)
    (hstep : Step caller world move next) {cluster : String} {object : Nat}
    (hfound : next.table cluster = some object) (hnoted : cluster ∈ next.ledger.names) :
    ∃ other, (next.callers other).HasRecorded object := by
  have hmove := hstep
  cases hstep with
  | call hplace | find hplace _ | miss hplace _ _ | list hplace _ | listed hplace
  | acquire hplace _ _ | refuse hplace _ _ | apply hplace _ _ | mark hplace _
  | release hplace _ | finish hplace =>
      exact exists_caller_step hmove (hkept.noted cluster object hfound hnoted) hplace False.elim
  | @create operation fresh hplace hmissing hcreates =>
      obtain ⟨hnoted, hne⟩ := Ledger.mem_names_take.mp hnoted
      have hlisted : world.table cluster = some object :=
        (Function.update_of_ne hne _ _).symm.trans hfound
      exact exists_caller_step hmove (hkept.noted cluster object hlisted hnoted) hplace False.elim
  | @record visit held hplace hheld =>
      rcases Ledger.eq_or_mem_names_of_record hnoted with rfl | hold
      · have hlisted := hkept.listed caller visit (by rw [hplace]; rfl)
        refine ⟨caller, ?_⟩
        rw [World.callers_goTo]
        exact Option.some.inj (hlisted.symm.trans hfound)
      · exact exists_caller_step hmove (hkept.noted cluster object hfound hold) hplace False.elim
  | @remove visit hplace =>
      have hlisted : world.table cluster = some object := World.found_of_unlist hfound
      have hold : cluster ∈ world.ledger.names := by
        have hledger : (world.unlist visit.cluster visit.object).ledger = world.ledger := by
          unfold World.unlist
          split <;> rfl
        rw [← hledger]
        exact hnoted
      refine exists_caller_step hmove (hkept.noted cluster object hlisted hold) hplace ?_
      rintro rfl
      obtain ⟨cell, hcell, rfl⟩ := hsound.ordered.table cluster visit.object hlisted
      rw [(hsound.within hplace hcell).2.1] at hfound
      have hgone := World.table_unlist_self (hkept.listed caller visit (by rw [hplace]; rfl))
      exact nomatch hgone.symm.trans hfound

theorem Place.exists_of_clearing? {place : Place} {visit : Visit}
    (hclearing : place.clearing? = some visit) : ∃ stage, place = within stage visit := by
  unfold clearing? at hclearing
  split at hclearing
  · exact ⟨.emptied, by rw [Option.some.inj hclearing]⟩
  · exact ⟨.marked, by rw [Option.some.inj hclearing]⟩
  · exact ⟨.recorded, by rw [Option.some.inj hclearing]⟩
  · contradiction

/-- The lock of an object is held by one caller only. -/
theorem Sound.eq_of_within (hsound : Sound world) {other : Nat} {stage last : Stage}
    {visit another : Visit} (hplace : world.callers caller = .within stage visit)
    (hother : world.callers other = .within last another)
    (hobject : visit.object = another.object) : caller = other := by
  have hfits := hsound.callers caller
  rw [hplace] at hfits
  obtain ⟨-, cell, hcell, hholder, -⟩ := hfits
  rw [hobject] at hcell
  exact Option.some.inj (hholder.symm.trans (hsound.within hother hcell).2.2.1)

theorem clearing?_visiting (operation : Operation) (reply : Reply)
    (entries : List (String × Nat)) :
    (Place.visiting operation reply entries).clearing? = none := by
  cases entries <;> rfl

/-- An object that is being cleared away is the one that its name leads to. -/
theorem listed_step (hsound : Sound world) (hkept : world.Kept)
    (hstep : Step caller world move next) {other : Nat} {visit : Visit}
    (hvisit : (next.callers other).clearing? = some visit) :
    next.table visit.cluster = some visit.object := by
  by_cases hother : other = caller
  · -- The caller that moves has just left nobody behind, or goes on with what it does.
    subst hother
    have hbefore := hkept.listed other
    cases hstep with
    | @call operation hplace =>
        rw [World.callers_goTo, Place.beginning] at hvisit
        split at hvisit <;> contradiction
    | find _ _ | create _ _ _ | miss _ _ _ | list _ _ | acquire _ _ _ | remove _
    | finish _ =>
        rw [World.callers_goTo] at hvisit
        contradiction
    | listed _ =>
        rw [World.callers_goTo, clearing?_visiting] at hvisit
        contradiction
    | refuse _ _ _ =>
        rw [World.callers_goTo, Visit.refused] at hvisit
        split at hvisit
        · contradiction
        · rw [Visit.next, clearing?_visiting] at hvisit
          contradiction
    | release _ _ =>
        rw [World.callers_goTo, Visit.next, clearing?_visiting] at hvisit
        contradiction
    | @apply current held hplace hheld hactive =>
        have hfound := hsound.ordered.live current.object held hheld hactive
        rw [(hsound.within hplace hheld).2.1] at hfound
        rw [World.callers_goTo] at hvisit
        unfold Visit.stageAfter at hvisit
        split at hvisit
        · rw [← Option.some.inj hvisit]
          exact hfound
        · contradiction
    | mark hplace _ | record hplace _ =>
        rw [World.callers_goTo] at hvisit
        rw [← Option.some.inj hvisit]
        exact hbefore _ (by rw [hplace]; rfl)
  · rw [callers_of_ne hstep hother] at hvisit
    have hfound := hkept.listed other visit hvisit
    cases hstep with
    | create _ hmissing _ =>
        have hne : visit.cluster ≠ _ := fun hname => by
          rw [hname, hmissing] at hfound
          contradiction
        exact (Function.update_of_ne hne _ _).trans hfound
    | remove hplace =>
        obtain ⟨stage, hclearing⟩ := Place.exists_of_clearing? hvisit
        exact World.table_unlist hfound
          (fun hobject => hother (hsound.eq_of_within hclearing hplace hobject)) _
    | _ => exact hfound

theorem kept_step (hsound : Sound world) (hkept : world.Kept)
    (hstep : Step caller world move next) : next.Kept where
  empty _ _ hcell hlive hempty := empty_step hkept hstep hcell hlive hempty
  retired _ _ hcell hretired hfound := retired_step hsound hkept hstep hcell hretired hfound
  noted _ _ hfound hnoted := noted_step hsound hkept hstep hfound hnoted
  listed _ _ hvisit := listed_step hsound hkept hstep hvisit

theorem kept_run {capacity : Nat} {moments : List Moment}
    (hrun : Run capacity moments world) : world.Kept := by
  induction hrun with
  | start => exact World.kept_start capacity
  | step hrun hstep ih => exact kept_step (sound_run hrun) ih hstep

/-! ## Annals -/

/-- What a move does to the ledger. -/
def Moment.booking? (moment : Moment) : Option Ledger.Booking :=
  match moment.world.callers moment.caller, moment.move with
  | .seeking operation cluster, .find =>
    if operation.creates && (moment.world.table cluster).isNone then some (.taken cluster)
    else none
  | .within .marked visit, .record =>
    (moment.world.heap[visit.object]?).map fun cell =>
      .recorded visit.cluster cell.membership.lastViewId
  | _, _ => none

theorem ledger_step (hstep : Step caller world move next) :
    next.ledger =
      (⟨world, caller, move⟩ : Moment).booking?.toList.foldl Ledger.book world.ledger := by
  unfold Moment.booking?
  cases hstep with
  | call hplace | list hplace _ | listed hplace | acquire hplace _ _ | refuse hplace _ _
  | apply hplace _ _ | mark hplace _ | release hplace _ | finish hplace =>
      simp only [hplace]
      rfl
  | find hplace hfound =>
      simp only [hplace, hfound, Option.isNone_some, Bool.and_false]
      rfl
  | create hplace hmissing hcreates =>
      simp only [hplace, hmissing, hcreates, Option.isNone_none, Bool.and_self]
      rfl
  | miss hplace hmissing hcreates =>
      simp only [hplace, hcreates, Bool.false_and]
      rfl
  | record hplace hheld =>
      simp only [hplace, hheld]
      rfl
  | remove hplace =>
      simp only [hplace]
      change (world.unlist _ _).ledger = world.ledger
      unfold World.unlist
      split <;> rfl

/-- The annals of a shared registry that starts without clusters. -/
def annals (capacity : Nat) (moments : List Moment) : Annals :=
  (moments.flatMap fun moment => moment.booking?.toList).foldl Annals.book (.empty capacity)

theorem ledger_annals {capacity : Nat} {moments : List Moment}
    (hrun : Run capacity moments world) : (annals capacity moments).ledger = world.ledger := by
  induction hrun with
  | start => rfl
  | step hrun hstep ih =>
      rw [annals, List.flatMap_append, List.foldl_append, List.flatMap_singleton,
        Annals.ledger_foldl_book, ledger_step hstep, ← ih]
      rfl

/-! ## At rest -/

/-- A shared registry in which nothing is left to be done. -/
structure World.Settled (capacity : Nat) (moments : List Moment) (world : World) : Prop where
  live : ∀ cluster object, world.table cluster = some object →
    ∃ cell, world.heap[object]? = some cell ∧ cell.cluster = cluster ∧
      cell.retired = false ∧ cell.membership.isEmpty = false
  apart : ∀ cluster object, world.table cluster = some object →
    cluster ∉ world.ledger.names
  ledger : world.ledger.Orderly capacity
  annals : (Shared.annals capacity moments).ledger = world.ledger
  oldestFirst : ∀ gone ∈ (Shared.annals capacity moments).forgotten,
    ∀ dated ∈ (Shared.annals capacity moments).kept, gone.date < dated.date

theorem settled_of_rest {capacity : Nat} {moments : List Moment}
    (hrun : Run capacity moments world) (hrest : ∀ caller, world.callers caller = .idle) :
    world.Settled capacity moments where
  live := by
    intro cluster object hfound
    have hkept := kept_run hrun
    obtain ⟨cell, hcell, rfl⟩ := (sound_run hrun).ordered.table cluster object hfound
    have hlive : cell.retired = false := by
      cases hretired : cell.retired with
      | false => rfl
      | true =>
          obtain ⟨caller, hcaller⟩ := hkept.retired object cell hcell hretired hfound
          rw [hrest] at hcaller
          exact hcaller.elim
    refine ⟨cell, hcell, rfl, hlive, ?_⟩
    cases hempty : cell.membership.isEmpty with
    | false => rfl
    | true =>
        obtain ⟨caller, hcaller⟩ := hkept.empty object cell hcell hlive hempty
        rw [hrest] at hcaller
        exact hcaller.elim
  apart := by
    intro cluster object hfound hnoted
    obtain ⟨caller, hcaller⟩ := (kept_run hrun).noted cluster object hfound hnoted
    rw [hrest] at hcaller
    exact hcaller
  ledger := by
    rw [← ledger_annals hrun, annals, Annals.ledger_foldl_book]
    exact (Ledger.orderly_empty capacity).foldl_book _
  annals := ledger_annals hrun
  oldestFirst _ hgone _ hdated :=
    ((Annals.chronological_empty capacity).foldl_book _).date_lt hgone hdated

end Shared

end Muster
