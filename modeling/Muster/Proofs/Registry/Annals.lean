import Muster.Proofs.Registry.Binding

/-!
# The annals of the ledger

Two things happen to a ledger: a name is taken out of it, and a name is recorded in it.
`Registry.bookings` lists what an operation does in this way, and the ledger that a run
leaves behind is what its bookings have made of the first one.

Annals are a ledger whose entries bear the date of their recording, and which keeps what a
ledger forgets.  Without the dates they are the ledger itself.  With them they tell that it
forgets in the order of recording: nothing that is kept was recorded before anything that
is forgotten.
-/

namespace Muster

namespace Ledger

/-! ## Bookings -/

inductive Booking
  | taken (name : String)
  | recorded (name : String) (lastViewId : UInt64)
  deriving DecidableEq, Repr

def Booking.name : Booking → String
  | taken name => name
  | recorded name _ => name

def book (ledger : Ledger) : Booking → Ledger
  | .taken name => (ledger.take name).2
  | .recorded name lastViewId => ledger.record name lastViewId

def names (ledger : Ledger) : List String :=
  ledger.entries.map Prod.fst

theorem mem_names_take {ledger : Ledger} {name other : String} :
    other ∈ (ledger.take name).2.names ↔ other ∈ ledger.names ∧ other ≠ name := by
  simp only [names, take, without, List.mem_map, List.mem_filter, decide_eq_true_eq]
  constructor
  · rintro ⟨entry, ⟨hentry, hne⟩, rfl⟩
    exact ⟨⟨entry, hentry, rfl⟩, hne⟩
  · rintro ⟨⟨entry, hentry, rfl⟩, hne⟩
    exact ⟨entry, ⟨hentry, hne⟩, rfl⟩

theorem eq_or_mem_names_of_record {ledger : Ledger} {name other : String} {lastViewId : UInt64}
    (hother : other ∈ (ledger.record name lastViewId).names) :
    other = name ∨ other ∈ ledger.names := by
  obtain ⟨entry, hentry, rfl⟩ := List.mem_map.mp hother
  rcases List.mem_append.mp (List.mem_of_mem_drop hentry) with hold | hnew
  · exact .inr (List.mem_map_of_mem (List.mem_filter.mp hold).1)
  · rw [List.mem_singleton.mp hnew]
    exact .inl rfl

/-- What holds of a ledger at any time, given the capacity that was asked for. -/
structure Orderly (capacity : Nat) (ledger : Ledger) : Prop where
  distinct : ledger.Distinct
  room : ledger.capacity = max 1 capacity
  bounded : ledger.size ≤ max 1 capacity

theorem orderly_empty (capacity : Nat) : (empty capacity).Orderly capacity where
  distinct := distinct_empty capacity
  room := Nat.max_comm capacity 1
  bounded := Nat.zero_le _

theorem Orderly.take {capacity : Nat} {ledger : Ledger} (horderly : ledger.Orderly capacity)
    (name : String) : (ledger.take name).2.Orderly capacity where
  distinct := horderly.distinct.take name
  room := horderly.room
  bounded := Nat.le_trans (List.length_filter_le _ _) horderly.bounded

theorem Orderly.record {capacity : Nat} {ledger : Ledger} (horderly : ledger.Orderly capacity)
    (name : String) (lastViewId : UInt64) :
    (ledger.record name lastViewId).Orderly capacity where
  distinct := horderly.distinct.record name lastViewId
  room := horderly.room
  bounded := by
    rw [← horderly.room]
    simp only [Ledger.record, trim, size, List.length_drop]
    omega

theorem Orderly.book {capacity : Nat} {ledger : Ledger} (horderly : ledger.Orderly capacity)
    (booking : Booking) : (ledger.book booking).Orderly capacity := by
  cases booking with
  | taken name => exact horderly.take name
  | recorded name lastViewId => exact horderly.record name lastViewId

theorem Orderly.foldl_book {capacity : Nat} {ledger : Ledger}
    (horderly : ledger.Orderly capacity) (bookings : List Booking) :
    (bookings.foldl Ledger.book ledger).Orderly capacity := by
  induction bookings generalizing ledger with
  | nil => exact horderly
  | cons booking bookings ih => exact ih (horderly.book booking)

/-- Bookings under other names do not lower the number that a name goes on from. -/
theorem Orderly.resume_le_resume_foldl_book {capacity : Nat} {ledger : Ledger}
    (horderly : ledger.Orderly capacity) {bookings : List Booking} {other : String}
    (hother : ∀ booking ∈ bookings, booking.name ≠ other) :
    ledger.resume other ≤ (bookings.foldl Ledger.book ledger).resume other := by
  induction bookings generalizing ledger with
  | nil => exact UInt64.le_refl _
  | cons booking bookings ih =>
      have hfirst : ledger.resume other ≤ (ledger.book booking).resume other := by
        have hne := (hother booking List.mem_cons_self).symm
        cases booking with
        | taken name =>
            have hsame : (ledger.take name).2.resume other = ledger.resume other :=
              resume_take_of_ne ledger hne
            rw [Ledger.book, hsame]
            exact UInt64.le_refl _
        | recorded name lastViewId =>
            exact resume_le_resume_record_of_ne horderly.distinct hne lastViewId
      exact UInt64.le_trans hfirst (ih (horderly.book booking) fun later hlater =>
        hother later (List.mem_cons_of_mem _ hlater))

end Ledger

/-! ## Annals -/

/-- An entry of a ledger with the date of its recording. -/
structure Dated where
  date : Nat
  name : String
  lastViewId : UInt64

def Dated.entry (dated : Dated) : String × UInt64 :=
  (dated.name, dated.lastViewId)

/-- A ledger with dates, the oldest first.  A date is the number of recordings before. -/
structure Annals where
  capacity : Nat
  recordings : Nat
  kept : List Dated
  forgotten : List Dated

namespace Annals

def empty (capacity : Nat) : Annals :=
  ⟨max capacity 1, 0, [], []⟩

/-- The annals without their dates. -/
def ledger (annals : Annals) : Ledger where
  entries := annals.kept.map Dated.entry
  floor := annals.forgotten.foldl (fun floor dated => max floor dated.lastViewId) 0
  capacity := annals.capacity

def without (annals : Annals) (name : String) : List Dated :=
  annals.kept.filter fun dated => dated.name ≠ name

def record (annals : Annals) (name : String) (lastViewId : UInt64) : Annals :=
  let noted := annals.without name ++ [⟨annals.recordings, name, lastViewId⟩]
  let excess := noted.length - annals.capacity
  { annals with
    recordings := annals.recordings + 1
    kept := noted.drop excess
    forgotten := annals.forgotten ++ noted.take excess }

def book (annals : Annals) : Ledger.Booking → Annals
  | .taken name => { annals with kept := annals.without name }
  | .recorded name lastViewId => annals.record name lastViewId

theorem map_entry_without (annals : Annals) (name : String) :
    (annals.without name).map Dated.entry = annals.ledger.without name := by
  unfold without ledger Ledger.without
  rw [List.filter_map]
  rfl

theorem ledger_record (annals : Annals) (name : String) (lastViewId : UInt64) :
    (annals.record name lastViewId).ledger = annals.ledger.record name lastViewId := by
  have hnoted : (annals.without name ++ [Dated.mk annals.recordings name lastViewId]).map
      Dated.entry = annals.ledger.without name ++ [(name, lastViewId)] := by
    rw [List.map_append, map_entry_without]
    rfl
  unfold record Ledger.record Ledger.trim Ledger.size
  rw [← hnoted, List.length_map]
  simp only [ledger, List.map_drop, ← List.map_take, List.foldl_append, List.foldl_map]
  rfl

theorem ledger_book (annals : Annals) (booking : Ledger.Booking) :
    (annals.book booking).ledger = annals.ledger.book booking := by
  cases booking with
  | taken name =>
      change Ledger.mk ((annals.without name).map Dated.entry) _ _ = _
      rw [map_entry_without]
      rfl
  | recorded name lastViewId => exact annals.ledger_record name lastViewId

theorem ledger_foldl_book (bookings : List Ledger.Booking) (annals : Annals) :
    (bookings.foldl book annals).ledger = bookings.foldl Ledger.book annals.ledger := by
  induction bookings generalizing annals with
  | nil => rfl
  | cons booking bookings ih => rw [List.foldl_cons, List.foldl_cons, ih, ledger_book]

/-- The dates go up from what was forgotten first to what was recorded last. -/
structure Chronological (annals : Annals) : Prop where
  order : (annals.forgotten ++ annals.kept).Pairwise fun earlier later =>
    earlier.date < later.date
  past : ∀ dated ∈ annals.forgotten ++ annals.kept, dated.date < annals.recordings

theorem chronological_empty (capacity : Nat) : (empty capacity).Chronological where
  order := List.Pairwise.nil
  past := fun _ hdated => by contradiction

theorem Chronological.book {annals : Annals} (hchronological : annals.Chronological)
    (booking : Ledger.Booking) : (annals.book booking).Chronological := by
  have hstay (name : String) :
      (annals.forgotten ++ annals.without name).Sublist (annals.forgotten ++ annals.kept) :=
    (List.Sublist.refl _).append List.filter_sublist
  cases booking with
  | taken name =>
      exact ⟨hchronological.order.sublist (hstay name),
        fun dated hdated => hchronological.past dated ((hstay name).subset hdated)⟩
  | recorded name lastViewId =>
      -- The boundary between what is forgotten and what is kept moves on, and the new
      -- entry stands behind all others.
      have hall : (annals.record name lastViewId).forgotten ++
            (annals.record name lastViewId).kept =
          (annals.forgotten ++ annals.without name) ++
            [⟨annals.recordings, name, lastViewId⟩] := by
        simp only [record, List.append_assoc, List.take_append_drop]
      have hpast : ∀ dated ∈ annals.forgotten ++ annals.without name,
          dated.date < annals.recordings :=
        fun dated hdated => hchronological.past dated ((hstay name).subset hdated)
      refine ⟨?_, ?_⟩
      · change List.Pairwise _ ((annals.record name lastViewId).forgotten ++
          (annals.record name lastViewId).kept)
        rw [hall, List.pairwise_append]
        refine ⟨hchronological.order.sublist (hstay name), List.pairwise_singleton _ _, ?_⟩
        intro earlier hearlier later hlater
        rw [List.mem_singleton.mp hlater]
        exact hpast earlier hearlier
      · intro dated hdated
        change dated ∈ (annals.record name lastViewId).forgotten ++
          (annals.record name lastViewId).kept at hdated
        change dated.date < annals.recordings + 1
        rw [hall] at hdated
        rcases List.mem_append.mp hdated with hold | hnew
        · exact Nat.lt_succ_of_lt (hpast dated hold)
        · rw [List.mem_singleton.mp hnew]
          exact Nat.lt_succ_self _

theorem Chronological.foldl_book {annals : Annals} (hchronological : annals.Chronological)
    (bookings : List Ledger.Booking) : (bookings.foldl Annals.book annals).Chronological := by
  induction bookings generalizing annals with
  | nil => exact hchronological
  | cons booking bookings ih => exact ih (hchronological.book booking)

theorem Chronological.date_lt {annals : Annals} (hchronological : annals.Chronological)
    {gone : Dated} (hgone : gone ∈ annals.forgotten) {dated : Dated}
    (hdated : dated ∈ annals.kept) : gone.date < dated.date :=
  (List.pairwise_append.mp hchronological.order).2.2 gone hgone dated hdated

end Annals

/-! ## The bookings of a registry -/

namespace Registry

/-- What storing a cluster comes to in the ledger. -/
def retirement (cluster : String) (membership : Membership) : List Ledger.Booking :=
  if membership.isEmpty then [.recorded cluster membership.lastViewId] else []

/-- What work on a cluster comes to in the ledger. -/
def bookingsAt (registry : Registry) (operation : Operation) (cluster : String) :
    List Ledger.Booking :=
  let after := (operation.work cluster (registry.current cluster)).2
  if registry.contains cluster then retirement cluster after
  else if operation.creates then .taken cluster :: retirement cluster after
  else []

def removalBookings (session : SessionId) : List String → Registry → List Ledger.Booking
  | [], _ => []
  | cluster :: clusters, registry =>
    let removal := Operation.removeSession session clusters
    registry.bookingsAt removal cluster ++
      removalBookings session clusters (registry.withExisting cluster (removal.work cluster)).2

/-- What an operation does to the ledger. -/
def bookings (registry : Registry) (operation : Operation) : List Ledger.Booking :=
  match operation.cluster?, operation with
  | some cluster, _ => registry.bookingsAt operation cluster
  | none, .removeSession session clusters => removalBookings session clusters registry
  | none, _ => []

/-- What a run does to the ledger. -/
def allBookings (registry : Registry) : List Operation → List Ledger.Booking
  | [] => []
  | operation :: operations =>
    registry.bookings operation ++ (registry.perform operation).2.allBookings operations

theorem retired_store_eq (registry : Registry) (cluster : String) (membership : Membership) :
    (registry.store cluster membership).retired =
      (retirement cluster membership).foldl Ledger.book registry.retired := by
  rw [retired_store, retirement]
  split <;> rfl

theorem name_of_mem_retirement {cluster : String} {membership : Membership}
    {booking : Ledger.Booking} (hbooking : booking ∈ retirement cluster membership) :
    booking.name = cluster := by
  unfold retirement at hbooking
  split at hbooking
  · rw [List.mem_singleton.mp hbooking]
    rfl
  · contradiction

theorem name_of_mem_bookingsAt {registry : Registry} {operation : Operation} {cluster : String}
    {booking : Ledger.Booking} (hbooking : booking ∈ registry.bookingsAt operation cluster) :
    booking.name = cluster := by
  simp only [bookingsAt] at hbooking
  split at hbooking
  · exact name_of_mem_retirement hbooking
  · split at hbooking
    · rcases List.mem_cons.mp hbooking with rfl | hrest
      · rfl
      · exact name_of_mem_retirement hrest
    · contradiction

theorem bookingsAt_of_find? {registry : Registry} {cluster : String} {membership : Membership}
    (hfind : registry.find? cluster = some membership) (operation : Operation) :
    registry.bookingsAt operation cluster =
      retirement cluster (operation.work cluster membership).2 := by
  rw [bookingsAt, contains, hfind, current_of_find? hfind]
  rfl

theorem retired_withExisting (registry : Registry) (session : SessionId)
    (clusters : List String) (cluster : String) :
    let removal := Operation.removeSession session clusters
    (registry.withExisting cluster (removal.work cluster)).2.retired =
      (registry.bookingsAt removal cluster).foldl Ledger.book registry.retired := by
  intro removal
  cases hfind : registry.find? cluster with
  | some membership =>
      rw [bookingsAt_of_find? hfind, ← retired_store_eq, withExisting, hfind]
  | none =>
      rw [bookingsAt, contains, hfind, withExisting, hfind]
      rfl

theorem retired_removeSession (session : SessionId) (clusters : List String)
    (registry : Registry) :
    (registry.perform (.removeSession session clusters)).2.retired =
      (removalBookings session clusters registry).foldl Ledger.book registry.retired := by
  induction clusters generalizing registry with
  | nil => rfl
  | cons cluster clusters ih =>
      rw [perform_removeSession_cons, removalBookings]
      simp only [List.foldl_append]
      rw [ih, retired_withExisting]

theorem bookings_of_cluster? (registry : Registry) {operation : Operation} {cluster : String}
    (hcluster : operation.cluster? = some cluster) :
    registry.bookings operation = registry.bookingsAt operation cluster := by
  unfold bookings
  rw [hcluster]

theorem retired_perform (registry : Registry) (operation : Operation) :
    (registry.perform operation).2.retired =
      (registry.bookings operation).foldl Ledger.book registry.retired := by
  cases hcluster : operation.cluster? with
  | some cluster =>
      rw [bookings_of_cluster? registry hcluster]
      cases hfind : registry.find? cluster with
      | some membership =>
          rw [perform_of_found registry hcluster hfind, bookingsAt_of_find? hfind,
            retired_store_eq]
      | none =>
          cases hcreates : operation.creates with
          | true =>
              rw [perform_of_created registry hcluster hcreates hfind, retired_store_eq,
                bookingsAt, contains, hfind, hcreates]
              rfl
          | false =>
              rw [perform_of_missing registry hcluster hcreates hfind, bookingsAt, contains,
                hfind, hcreates]
              rfl
  | none =>
      cases operation with
      | removeSession session clusters => exact retired_removeSession session clusters registry
      | dump => rfl
      | _ => contradiction

theorem retired_after (registry : Registry) (operations : List Operation) :
    (registry.after operations).retired =
      (registry.allBookings operations).foldl Ledger.book registry.retired := by
  induction operations generalizing registry with
  | nil => rfl
  | cons operation operations ih =>
      rw [after_cons, ih, allBookings, List.foldl_append, retired_perform]

/-- The annals of a run that starts without clusters. -/
def annals (capacity : Nat) (operations : List Operation) : Annals :=
  ((empty capacity).allBookings operations).foldl Annals.book (.empty capacity)

theorem ledger_annals (capacity : Nat) (operations : List Operation) :
    (annals capacity operations).ledger = ((empty capacity).after operations).retired := by
  rw [annals, Annals.ledger_foldl_book, retired_after]
  rfl

theorem chronological_annals (capacity : Nat) (operations : List Operation) :
    (annals capacity operations).Chronological :=
  (Annals.chronological_empty capacity).foldl_book _

theorem orderly_after (capacity : Nat) (operations : List Operation) :
    ((empty capacity).after operations).retired.Orderly capacity := by
  rw [retired_after]
  exact (Ledger.orderly_empty capacity).foldl_book _

/-- An operation on one cluster lowers the number of no other name. -/
theorem resume_le_resume_perform {capacity : Nat} {registry : Registry}
    (horderly : registry.retired.Orderly capacity) {operation : Operation}
    {cluster other : String} (hcluster : operation.cluster? = some cluster)
    (hne : other ≠ cluster) :
    registry.retired.resume other ≤ (registry.perform operation).2.retired.resume other := by
  rw [retired_perform, bookings_of_cluster? registry hcluster]
  apply horderly.resume_le_resume_foldl_book
  intro booking hbooking
  rw [name_of_mem_bookingsAt hbooking]
  exact hne.symm

end Registry

end Muster
