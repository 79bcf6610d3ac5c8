import Mathlib.Logic.Function.Basic
import Muster.Proofs.Registry.Operation

/-!
# A registry shared by several callers

A caller reaches a cluster in two steps.  It looks the cluster's object up in the
table, and later it takes the lock of that object.  The object may have been
retired in between, and then a caller that came to create the cluster looks again
while all others give up.  An object that is left empty is retired under its
lock, in three steps: it is marked, its number goes to the ledger, and it is taken
out of the table.  The table and the ledger are not covered by the lock, so that
other callers find the object while this goes on.

Any number of callers move in any order.  A run keeps the world before each move.
-/

namespace Muster

def Reply.and : Reply → Reply → Reply
  | removed earlier, removed later => removed (earlier ++ later)
  | listed earlier, listed later => listed (earlier ++ later)
  | _, later => later

namespace Operation

def opening : Operation → Reply
  | dump => .listed "members:\n"
  | operation => operation.fallback

/-- The clusters that were found, in the order of the visits. -/
def itinerary : Operation → List (String × Nat) → List (String × Nat)
  | dump, found => found.mergeSort fun a b => a.1 ≤ b.1
  | _, found => found

/-- Whether a cluster is retired should nobody be left in it.  A listing retires
nothing, nor does the removal of a session that reaches none of the members. -/
def tidies : Operation → Membership → Bool
  | dump, _ => false
  | removeSession session _, membership => !(membership.removeSession session).1.isEmpty
  | _, _ => true

theorem and_work {operation : Operation} {name : String}
    (hcluster : operation.cluster? = some name) (reply : Reply) (cluster : String)
    (membership : Membership) :
    reply.and (operation.work cluster membership).1 =
      (operation.work cluster membership).1 := by
  cases operation with
  | removeSession _ _ | dump => contradiction
  | _ => cases reply <;> rfl

theorem tidies_of_cluster? {operation : Operation} {name : String}
    (hcluster : operation.cluster? = some name) (membership : Membership) :
    operation.tidies membership = true := by
  cases operation with
  | removeSession _ _ | dump => contradiction
  | _ => rfl

theorem exists_cluster?_of_creates {operation : Operation}
    (hcreates : operation.creates = true) : ∃ cluster, operation.cluster? = some cluster := by
  cases operation with
  | join cluster address session => exact ⟨cluster, rfl⟩
  | registerView cluster bulk address session => exact ⟨cluster, rfl⟩
  | _ => contradiction

end Operation

namespace Shared

structure Cell where
  cluster : String
  membership : Membership
  retired : Bool
  /-- the caller that holds the lock -/
  holder : Option Nat

/-- Work on one object, with the objects that come after it and the reply so far. -/
structure Visit where
  operation : Operation
  cluster : String
  object : Nat
  later : List (String × Nat)
  reply : Reply

/-- How far a caller is under the lock of an object. -/
inductive Stage
  | entered
  /-- the work is done and nobody is left -/
  | emptied
  | marked
  | recorded
  | leaving

inductive Place
  | idle
  | seeking (operation : Operation) (cluster : String)
  | listing (operation : Operation) (found : List (String × Nat))
  | waiting (visit : Visit)
  | within (stage : Stage) (visit : Visit)
  | done (operation : Operation) (reply : Reply)

namespace Place

def beginning (operation : Operation) : Place :=
  match operation.cluster? with
  | some cluster => seeking operation cluster
  | none => listing operation []

/-- Before the next visit, or at the end of all of them. -/
def visiting (operation : Operation) (reply : Reply) : List (String × Nat) → Place
  | [] => done operation reply
  | (cluster, object) :: later => waiting ⟨operation, cluster, object, later, reply⟩

end Place

namespace Visit

def next (visit : Visit) : Place :=
  .visiting visit.operation visit.reply visit.later

def refused (visit : Visit) : Place :=
  if visit.operation.creates then .seeking visit.operation visit.cluster else visit.next

def work (visit : Visit) (membership : Membership) : Reply × Membership :=
  visit.operation.work visit.cluster membership

def worked (visit : Visit) (membership : Membership) : Visit :=
  { visit with reply := visit.reply.and (visit.work membership).1 }

def stageAfter (visit : Visit) (membership : Membership) : Stage :=
  if visit.operation.tidies membership && (visit.work membership).2.isEmpty then .emptied
  else .leaving

end Visit

theorem getElem?_lt {α : Type} {entries : List α} {index : Nat} {entry : α}
    (hentry : entries[index]? = some entry) : index < entries.length :=
  (List.getElem?_eq_some_iff.mp hentry).1

/-- The objects, the table that finds them by name, the ledger, and the callers. -/
structure World where
  heap : List Cell
  table : String → Option Nat
  ledger : Ledger
  callers : Nat → Place

namespace World

def start (capacity : Nat) : World :=
  ⟨[], fun _ => none, .empty capacity, fun _ => .idle⟩

def goTo (world : World) (caller : Nat) (place : Place) : World :=
  { world with callers := Function.update world.callers caller place }

def write (world : World) (object : Nat) (cell : Cell) : World :=
  { world with heap := world.heap.set object cell }

/-- The world with a fresh object for a cluster, which goes on from the ledger. -/
def insert (world : World) (cluster : String) : World :=
  { world with
    heap := world.heap ++ [⟨cluster, .startingFrom (world.ledger.take cluster).1, false, none⟩]
    table := Function.update world.table cluster (some world.heap.length)
    ledger := (world.ledger.take cluster).2 }

def note (world : World) (cluster : String) (lastViewId : UInt64) : World :=
  { world with ledger := world.ledger.record cluster lastViewId }

/-- The world without the entry of a cluster, if it still leads to the object. -/
def unlist (world : World) (cluster : String) (object : Nat) : World :=
  if world.table cluster = some object then
    { world with table := Function.update world.table cluster none }
  else world

@[simp] theorem callers_goTo (world : World) (caller : Nat) (place : Place) :
    (world.goTo caller place).callers caller = place :=
  Function.update_self _ _ _

theorem goTo_goTo (world : World) (caller : Nat) (first second : Place) :
    (world.goTo caller first).goTo caller second = world.goTo caller second := by
  simp [goTo]

theorem heap_write_self {world : World} {object : Nat} {cell : Cell}
    (hcell : world.heap[object]? = some cell) (changed : Cell) :
    (world.write object changed).heap[object]? = some changed :=
  List.getElem?_set_self (getElem?_lt hcell)

theorem heap_write_of_ne {object other : Nat} (hne : other ≠ object) (world : World)
    (changed : Cell) : (world.write object changed).heap[other]? = world.heap[other]? :=
  List.getElem?_set_ne hne.symm

theorem heap_unlist (world : World) (cluster : String) (object : Nat) :
    (world.unlist cluster object).heap = world.heap := by
  unfold unlist
  split <;> rfl

theorem callers_unlist (world : World) (cluster : String) (object : Nat) :
    (world.unlist cluster object).callers = world.callers := by
  unfold unlist
  split <;> rfl

theorem table_unlist {world : World} {name : String} {other : Nat}
    (hfound : world.table name = some other) {object : Nat} (hne : other ≠ object)
    (cluster : String) : (world.unlist cluster object).table name = some other := by
  unfold unlist
  split
  next hlisted =>
    have hname : name ≠ cluster := by
      intro hname
      rw [hname, hlisted] at hfound
      exact hne (Option.some.inj hfound).symm
    exact (Function.update_of_ne hname _ _).trans hfound
  · exact hfound

theorem found_of_unlist {world : World} {cluster name : String} {object other : Nat}
    (hfound : (world.unlist cluster object).table name = some other) :
    world.table name = some other := by
  unfold unlist at hfound
  split at hfound
  · by_cases hname : name = cluster
    · subst hname
      simp at hfound
    · exact (Function.update_of_ne hname _ _).symm.trans hfound
  · exact hfound

end World

inductive Move
  | call (operation : Operation)
  | find
  | list (cluster : String)
  | listed
  | acquire
  | refuse
  | apply
  | mark
  | record
  | remove
  | release
  | finish

/-- What a caller can do.  The table is read entry by entry for a listing, which
may miss what comes and goes meanwhile. -/
inductive Step (caller : Nat) (world : World) : Move → World → Prop
  | call {operation : Operation}
      (hplace : world.callers caller = .idle) :
      Step caller world (.call operation) (world.goTo caller (.beginning operation))
  | find {operation : Operation} {cluster : String} {object : Nat}
      (hplace : world.callers caller = .seeking operation cluster)
      (hfound : world.table cluster = some object) :
      Step caller world .find
        (world.goTo caller (.waiting ⟨operation, cluster, object, [], operation.opening⟩))
  | create {operation : Operation} {cluster : String}
      (hplace : world.callers caller = .seeking operation cluster)
      (hmissing : world.table cluster = none) (hcreates : operation.creates = true) :
      Step caller world .find
        ((world.insert cluster).goTo caller
          (.waiting ⟨operation, cluster, world.heap.length, [], operation.opening⟩))
  | miss {operation : Operation} {cluster : String}
      (hplace : world.callers caller = .seeking operation cluster)
      (hmissing : world.table cluster = none) (hcreates : operation.creates = false) :
      Step caller world .find (world.goTo caller (.done operation operation.fallback))
  | list {operation : Operation} {found : List (String × Nat)}
      {cluster : String} {object : Nat}
      (hplace : world.callers caller = .listing operation found)
      (hfound : world.table cluster = some object) :
      Step caller world (.list cluster)
        (world.goTo caller (.listing operation (found ++ [(cluster, object)])))
  | listed {operation : Operation} {found : List (String × Nat)}
      (hplace : world.callers caller = .listing operation found) :
      Step caller world .listed
        (world.goTo caller
          (.visiting operation operation.opening (operation.itinerary found)))
  | acquire {visit : Visit} {cell : Cell}
      (hplace : world.callers caller = .waiting visit)
      (hcell : world.heap[visit.object]? = some cell) (hfree : cell.holder = none) :
      Step caller world .acquire
        ((world.write visit.object { cell with holder := some caller }).goTo caller
          (.within .entered visit))
  | refuse {visit : Visit} {cell : Cell}
      (hplace : world.callers caller = .within .entered visit)
      (hcell : world.heap[visit.object]? = some cell) (hretired : cell.retired = true) :
      Step caller world .refuse
        ((world.write visit.object { cell with holder := none }).goTo caller visit.refused)
  | apply {visit : Visit} {cell : Cell}
      (hplace : world.callers caller = .within .entered visit)
      (hcell : world.heap[visit.object]? = some cell) (hlive : cell.retired = false) :
      Step caller world .apply
        ((world.write visit.object
            { cell with membership := (visit.work cell.membership).2 }).goTo caller
          (.within (visit.stageAfter cell.membership) (visit.worked cell.membership)))
  | mark {visit : Visit} {cell : Cell}
      (hplace : world.callers caller = .within .emptied visit)
      (hcell : world.heap[visit.object]? = some cell) :
      Step caller world .mark
        ((world.write visit.object { cell with retired := true }).goTo caller
          (.within .marked visit))
  | record {visit : Visit} {cell : Cell}
      (hplace : world.callers caller = .within .marked visit)
      (hcell : world.heap[visit.object]? = some cell) :
      Step caller world .record
        ((world.note visit.cluster cell.membership.lastViewId).goTo caller
          (.within .recorded visit))
  | remove {visit : Visit}
      (hplace : world.callers caller = .within .recorded visit) :
      Step caller world .remove
        ((world.unlist visit.cluster visit.object).goTo caller (.within .leaving visit))
  | release {visit : Visit} {cell : Cell}
      (hplace : world.callers caller = .within .leaving visit)
      (hcell : world.heap[visit.object]? = some cell) :
      Step caller world .release
        ((world.write visit.object { cell with holder := none }).goTo caller visit.next)
  | finish {operation : Operation} {reply : Reply}
      (hplace : world.callers caller = .done operation reply) :
      Step caller world .finish (world.goTo caller .idle)

/-- A move, and the world just before it. -/
structure Moment where
  world : World
  caller : Nat
  move : Move

/-- What can happen to a registry that starts without clusters. -/
inductive Run (capacity : Nat) : List Moment → World → Prop
  | start : Run capacity [] (.start capacity)
  | step {moments : List Moment} {world next : World} {caller : Nat} {move : Move}
      (hrun : Run capacity moments world) (hstep : Step caller world move next) :
      Run capacity (moments ++ [⟨world, caller, move⟩]) next

end Shared

end Muster
