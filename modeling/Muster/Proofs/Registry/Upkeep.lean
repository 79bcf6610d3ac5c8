import Mathlib.Data.String.Basic
import Muster.Proofs.Address.Spelling
import Muster.Proofs.Registry.Addressees
import Muster.Proofs.Registry.Rest
import Muster.Proofs.Text.Order

/-!
# Upkeep

Every operation leaves a registry in order: each cluster of the table has members, no two
clusters share a name, and none of them is in the ledger, which stays within its capacity.
So whatever is only read stays as it is, because retiring empty clusters on the way finds
none.

A listing shows every cluster that has a view, in the byte order of the names, whatever the
order of the table.  Members are shown by their names, and those without one by the groups of
hexadecimal digits of their identities.
-/

namespace Muster

open Text

/-- What a function gives for every item can be shown for the items themselves. -/
theorem map_filterMap_of_some {α β γ : Type} {pick : α → Option β} {read : β → γ}
    {name : α → γ} {items : List α}
    (hall : ∀ item ∈ items, ∃ picked, pick item = some picked ∧ read picked = name item) :
    (items.filterMap pick).map read = items.map name := by
  rw [List.map_filterMap, ← List.filterMap_eq_map]
  apply List.filterMap_congr
  intro item hitem
  obtain ⟨picked, hpicked, hname⟩ := hall item hitem
  rw [hpicked, Option.map_some, hname]
  rfl

/-! ## Members on show -/

namespace Uuid

/-- Some digits of an identity in hexadecimal, from the given place on. -/
def group (id : Uuid) (first count : Nat) : String :=
  String.ofList ((List.range' first count).map fun place =>
    Nat.digitChar ((id.high.toNat * 2 ^ 64 + id.low.toNat) / 16 ^ (31 - place) % 16))

/-- The digits of an identity in groups of 8, 4, 4, 4 and 12. -/
def grouped (id : Uuid) : String :=
  "-".intercalate [id.group 0 8, id.group 8 4, id.group 12 4, id.group 16 4, id.group 20 12]

theorem hexDigits_eq_map (count value : Nat) :
    hexDigits count value = (List.range count).map fun place =>
      Nat.digitChar (value / 16 ^ (count - 1 - place) % 16) := by
  induction count generalizing value with
  | zero => rfl
  | succ count ih =>
      rw [hexDigits, ih, List.range_succ, List.map_append, Nat.add_sub_cancel]
      congr 1
      · apply List.map_congr_left
        intro place hplace
        have hlt : place < count := List.mem_range.mp hplace
        have hpow : count - place = (count - 1 - place) + 1 := by omega
        rw [hpow, Nat.pow_succ', Nat.div_div_eq_div_mul]
      · simp [hexDigit]

theorem toList_group (id : Uuid) (first count : Nat) (hcount : first + count ≤ 32) :
    (id.group first count).toList = (id.digits.drop first).take count := by
  have hplaces : List.range' first count = ((List.range 32).drop first).take count := by
    apply List.ext_getElem
    · simp only [List.length_range', List.length_take, List.length_drop, List.length_range]
      omega
    · intro place _ _
      simp
  rw [group, String.toList_ofList, digits_eq, hexDigits_eq_map, hplaces, List.map_take,
    List.map_drop]

theorem text_eq_grouped (id : Uuid) : id.text = id.grouped := by
  have hlast : id.digits.drop 20 = (id.digits.drop 20).take 12 :=
    (List.take_of_length_le (by simp [length_digits])).symm
  rw [← String.toList_inj, text, grouped, String.toList_ofList, String.toList_intercalate,
    hyphenated, hlast]
  simp [toList_group]

end Uuid

/-- How a listing shows a member. -/
def Address.shown (address : Address) : String :=
  match address.name with
  | some name => name
  | none => address.uuid.grouped

theorem Address.display_eq_shown (address : Address) : address.display = address.shown := by
  unfold display shown
  cases address.name with
  | none => exact address.uuid.text_eq_grouped
  | some name => rfl

namespace Registry

/-! ## Order -/

/-- No cluster of the table is in the ledger. -/
def Apart (registry : Registry) : Prop :=
  registry.Throughout fun cluster _ => cluster ∉ registry.retired.names

theorem apart_empty (capacity : Nat) : (empty capacity).Apart :=
  fun _ _ hfind => by contradiction

theorem Apart.store {registry : Registry} (hapart : registry.Apart) {cluster : String}
    (hfresh : cluster ∉ registry.retired.names) (membership : Membership) :
    (registry.store cluster membership).Apart := by
  intro other found hfind hnoted
  rw [retired_store] at hnoted
  by_cases hother : other = cluster
  · subst hother
    rw [find?_store_self] at hfind
    split at hfind
    · contradiction
    next hoccupied =>
      rw [if_neg hoccupied] at hnoted
      exact hfresh hnoted
  · rw [find?_store_of_ne registry hother] at hfind
    split at hnoted
    · exact (Ledger.eq_or_mem_names_of_record hnoted).elim hother (hapart other found hfind)
    · exact hapart other found hfind hnoted

theorem Apart.perform {registry : Registry} (hapart : registry.Apart) (operation : Operation) :
    (registry.perform operation).2.Apart := by
  apply perform_keeps_stored _ _ hapart
  · intro before cluster membership after hfind hbefore
    exact hbefore.store (hbefore cluster membership hfind) after
  · intro before cluster after hfind hbefore
    apply Apart.store
    · intro other found hother hnoted
      exact hbefore other found hother (Ledger.mem_names_take.mp hnoted).1
    · exact fun hnoted => (Ledger.mem_names_take.mp hnoted).2 rfl

theorem Apart.after {registry : Registry} (hapart : registry.Apart)
    (operations : List Operation) : (registry.after operations).Apart :=
  after_keeps (fun _ operation hbefore => hbefore.perform operation) hapart operations

/-- A registry in which every cluster has members and its number in one place. -/
structure Tidy (capacity : Nat) (registry : Registry) : Prop where
  names : (registry.clusters.map Prod.fst).Nodup
  occupied : ∀ entry ∈ registry.clusters, entry.2.isEmpty = false
  apart : ∀ entry ∈ registry.clusters, entry.1 ∉ registry.retired.names
  ledger : registry.retired.Orderly capacity

theorem tidy_after (capacity : Nat) (operations : List Operation) :
    ((empty capacity).after operations).Tidy capacity := by
  have hdistinct := (distinct_empty capacity).after operations
  refine ⟨hdistinct, ?_, ?_, orderly_after capacity operations⟩
  · intro entry hentry
    exact (occupied_empty capacity).after operations entry.1 entry.2
      (lookup_of_mem hdistinct hentry)
  · intro entry hentry
    exact (apart_empty capacity).after operations entry.1 entry.2
      (lookup_of_mem hdistinct hentry)

/-! ## Reading -/

theorem Tidy.occupied_of_find? {capacity : Nat} {registry : Registry}
    (htidy : registry.Tidy capacity) {cluster : String} {membership : Membership}
    (hfind : registry.find? cluster = some membership) : membership.isEmpty = false :=
  htidy.occupied (cluster, membership) (mem_of_lookup hfind)

/-- Looking at a cluster without changing it leaves everything in place. -/
theorem Tidy.withExisting {capacity : Nat} {registry : Registry} (htidy : registry.Tidy capacity)
    {α : Type} (cluster : String) (look : Membership → α) :
    (registry.withExisting cluster fun membership => (look membership, membership)).2 =
      registry := by
  unfold Registry.withExisting
  cases hfind : registry.find? cluster with
  | none => rfl
  | some membership => exact store_of_find? hfind (htidy.occupied_of_find? hfind)

/-! ## Listing -/

variable {capacity : Nat} {registry : Registry}

/-- The clusters in the order of their names. -/
def sorted (registry : Registry) : List (String × Membership) :=
  registry.clusters.mergeSort fun a b => a.1 ≤ b.1

theorem mem_sorted {entry : String × Membership} :
    entry ∈ registry.sorted ↔ entry ∈ registry.clusters :=
  List.mem_mergeSort

theorem pairwise_le_sorted (registry : Registry) :
    registry.sorted.Pairwise fun a b => a.1 ≤ b.1 := by
  have hsorted := @List.pairwise_mergeSort (String × Membership) (fun a b => a.1 ≤ b.1)
    (fun a b c hab hbc => by simpa using le_trans (by simpa using hab) (by simpa using hbc))
    (fun a b => by simpa using le_total a.1 b.1) registry.clusters
  exact hsorted.imp fun hle => by simpa using hle

theorem Tidy.pairwise_lt_sorted (htidy : registry.Tidy capacity) :
    registry.sorted.Pairwise fun a b => a.1 < b.1 := by
  have hnames : (registry.sorted.map Prod.fst).Nodup :=
    ((List.mergeSort_perm _ _).map Prod.fst).nodup_iff.mpr htidy.names
  have hne : registry.sorted.Pairwise fun a b => a.1 ≠ b.1 := List.pairwise_map.mp hnames
  exact (registry.pairwise_le_sorted.and hne).imp fun hboth => lt_of_le_of_ne hboth.1 hboth.2

/-- The order in which the table happens to be read does not matter. -/
theorem Tidy.dump_perm (htidy : registry.Tidy capacity) {clusters : List (String × Membership)}
    (hperm : clusters.Perm registry.clusters) :
    ({ registry with clusters } : Registry).dump = registry.dump := by
  have hsorted : ({ registry with clusters } : Registry).sorted = registry.sorted := by
    apply List.Perm.eq_of_pairwise _ (pairwise_le_sorted _) (pairwise_le_sorted _)
    · exact (List.mergeSort_perm _ _).trans (hperm.trans (List.mergeSort_perm _ _).symm)
    · intro first second hfirst hsecond hle hge
      exact List.inj_on_of_nodup_map htidy.names (hperm.mem_iff.mp (List.mem_mergeSort.mp hfirst))
        (mem_sorted.mp hsecond) (le_antisymm hle hge)
  unfold dump
  rw [← sorted, ← sorted, hsorted]

theorem fst_getView_eq_some_iff {name : String} {view : View} :
    (registry.getView name).1 = some view ↔
      ∃ membership, registry.find? name = some membership ∧ membership.view? = some view := by
  cases hfind : registry.find? name with
  | none => simp [getView, withExisting, hfind]
  | some membership => simp [getView_of_find? hfind]

/-- What a listing says about a cluster. -/
def viewLine (entry : String × View) : String :=
  entry.1 ++ ": [" ++ ", ".intercalate (entry.2.members.map Address.shown) ++ "]\n"

theorem line_eq_viewLine {name : String} {membership : Membership} {view : View}
    (hmembers : view.members = membership.addresses) :
    line (name, membership) = viewLine (name, view) := by
  rw [line, viewLine, hmembers, Address.displayAll, bracketed, joined,
    List.map_congr_left fun address _ => Address.display_eq_shown address, ← String.toList_inj]
  simp

/-- A cluster with its view, if it has one. -/
def viewed? (entry : String × Membership) : Option (String × View) :=
  entry.2.view?.map fun view => (entry.1, view)

theorem exists_viewed? {entry : String × Membership} (hoccupied : entry.2.isEmpty = false) :
    ∃ shown, viewed? entry = some shown ∧ shown.1 = entry.1 ∧ viewLine shown = line entry := by
  obtain ⟨name, members, lastViewId⟩ := entry
  cases members with
  | nil => contradiction
  | cons member members => exact ⟨(name, _), rfl, rfl, (line_eq_viewLine rfl).symm⟩

theorem Tidy.exists_listing (htidy : registry.Tidy capacity) :
    ∃ listing : List (String × View),
      (listing.map fun entry => utf8 entry.1).Pairwise (· < ·) ∧
      (∀ name view, (name, view) ∈ listing ↔ (registry.getView name).1 = some view) ∧
      registry.dump = "members:\n" ++ "".intercalate (listing.map viewLine) := by
  have hshown : ∀ entry ∈ registry.sorted,
      ∃ shown, viewed? entry = some shown ∧ shown.1 = entry.1 ∧ viewLine shown = line entry :=
    fun entry hentry => exists_viewed? (htidy.occupied entry (mem_sorted.mp hentry))
  have hnames : (registry.sorted.filterMap viewed?).map (fun entry => utf8 entry.1) =
      registry.sorted.map fun entry => utf8 entry.1 := by
    apply map_filterMap_of_some
    intro entry hentry
    obtain ⟨shown, hviewed, hname, -⟩ := hshown entry hentry
    exact ⟨shown, hviewed, congrArg utf8 hname⟩
  have hlines : (registry.sorted.filterMap viewed?).map viewLine = registry.sorted.map line := by
    apply map_filterMap_of_some
    intro entry hentry
    obtain ⟨shown, hviewed, -, hline⟩ := hshown entry hentry
    exact ⟨shown, hviewed, hline⟩
  refine ⟨registry.sorted.filterMap viewed?, ?_, ?_, ?_⟩
  · rw [hnames, List.pairwise_map]
    exact htidy.pairwise_lt_sorted.imp utf8_lt_utf8
  · intro name view
    rw [List.mem_filterMap, fst_getView_eq_some_iff]
    constructor
    · rintro ⟨entry, hentry, hviewed⟩
      obtain ⟨found, hview, hsame⟩ := Option.map_eq_some_iff.mp hviewed
      obtain ⟨rfl, rfl⟩ := Prod.mk.inj hsame
      exact ⟨entry.2, lookup_of_mem htidy.names (mem_sorted.mp hentry), hview⟩
    · rintro ⟨membership, hfind, hview⟩
      refine ⟨(name, membership), mem_sorted.mpr (mem_of_lookup hfind), ?_⟩
      rw [viewed?, hview]
      rfl
  · rw [hlines]
    rfl

/-! ## Upkeep -/

/-- What holds of a registry at the end of a run. -/
structure Upkeep (capacity : Nat) (history : List Operation) (registry : Registry) : Prop where
  tidy : registry.Tidy capacity
  /-- The annals of the run are the ledger with dates, -/
  annals : (Registry.annals capacity history).ledger = registry.retired
  /-- and nothing in it was recorded before anything that is forgotten. -/
  oldestFirst : ∀ gone ∈ (Registry.annals capacity history).forgotten,
    ∀ dated ∈ (Registry.annals capacity history).kept, gone.date < dated.date
  getView : ∀ cluster, (registry.getView cluster).2 = registry
  route : ∀ envelope, (registry.route envelope).2 = registry
  dump : (registry.perform .dump).2 = registry
  /-- A listing shows the clusters that have a view in the byte order of their names. -/
  listing : ∃ listing : List (String × View),
    (listing.map fun entry => utf8 entry.1).Pairwise (· < ·) ∧
    (∀ name view, (name, view) ∈ listing ↔ (registry.getView name).1 = some view) ∧
    registry.dump = "members:\n" ++ "".intercalate (listing.map viewLine)
  anyOrder : ∀ clusters, clusters.Perm registry.clusters →
    ({ registry with clusters } : Registry).dump = registry.dump

theorem Tidy.upkeep {history : List Operation} (htidy : registry.Tidy capacity)
    (hregistry : (empty capacity).after history = registry) :
    registry.Upkeep capacity history where
  tidy := htidy
  annals := (ledger_annals capacity history).trans (congrArg Registry.retired hregistry)
  oldestFirst _ hgone _ hdated := (chronological_annals capacity history).date_lt hgone hdated
  getView cluster := htidy.withExisting cluster Membership.view?
  route envelope := htidy.withExisting envelope.cluster (direct envelope)
  dump := rfl
  listing := htidy.exists_listing
  anyOrder _ hperm := htidy.dump_perm hperm

/-- Every run of operations leaves the registry in order, reading it changes nothing, and
its listing is exact.  A registry that is shared by several callers is in order whenever
all their calls have returned, and its table then leads to no object that is retired. -/
theorem upkeep_after (capacity : Nat) (history : List Operation) :
    ((empty capacity).after history).Upkeep capacity history ∧
      ∀ moments world, Shared.Run capacity moments world →
        (∀ caller, world.callers caller = .idle) → world.Settled capacity moments :=
  ⟨(tidy_after capacity history).upkeep rfl, fun _ _ hrun hrest =>
    Shared.settled_of_rest hrun hrest⟩

/-- A member without a name is in two clusters, and a third cluster has been left.  A shared
registry comes to rest after somebody has joined and somebody else has looked in vain. -/
theorem upkeep_after_three_clusters :
    let nameless := Address.ofUuid ⟨0x550e8400e29b41d4, 0xa716446655440000⟩
    let named := (Address.ofUuid ⟨0, 65⟩).withName "A"
    let history : List Operation := [.join "c" named ⟨2⟩, .leave "c" named,
      .join "b" nameless ⟨1⟩, .join "a" named ⟨2⟩, .join "a" nameless ⟨1⟩]
    ((empty 1).after history).Upkeep 1 history ∧
      ((empty 1).after history).retired.names = ["c"] ∧
      ((empty 1).after history).dump = "members:\n" ++
        "a: [A, 550e8400-e29b-41d4-a716-446655440000]\n" ++
        "b: [550e8400-e29b-41d4-a716-446655440000]\n" ∧
      ∃ moments world, Shared.Run 1 moments world ∧ (∀ caller, world.callers caller = .idle) ∧
        world.table "a" = some 0 ∧ world.Settled 1 moments := by
  intro nameless named history
  obtain ⟨hupkeep, hsettled⟩ := upkeep_after 1 history
  have hrun := @Shared.Run.step 1 _ _ _ 0 (.call (.join "a" nameless ⟨1⟩)) .start (.call rfl)
  have hrun := @Shared.Run.step _ _ _ _ 0 .find hrun (.create rfl rfl rfl)
  have hrun := @Shared.Run.step _ _ _ _ 0 .acquire hrun
    (@Shared.Step.acquire _ _ _ ⟨"a", .startingFrom 0, false, none⟩ rfl rfl rfl)
  have hrun := @Shared.Run.step _ _ _ _ 0 .apply hrun
    (@Shared.Step.apply _ _ _ ⟨"a", .startingFrom 0, false, some 0⟩ rfl rfl rfl)
  have hrun := @Shared.Run.step _ _ _ _ 0 .release hrun
    (@Shared.Step.release _ _ _ ⟨"a", ⟨[⟨nameless, some ⟨1⟩⟩], 1⟩, false, some 0⟩ rfl rfl)
  have hrun := @Shared.Run.step _ _ _ _ 0 .finish hrun (.finish rfl)
  have hrun := @Shared.Run.step _ _ _ _ 1 (.call (.getView "b")) hrun (.call rfl)
  have hrun := @Shared.Run.step _ _ _ _ 1 .find hrun (.miss rfl rfl rfl)
  have hrun := @Shared.Run.step _ _ _ _ 1 .finish hrun (.finish rfl)
  have hrest := hsettled _ _ hrun
  refine ⟨hupkeep, rfl, ?dump, _, _, hrun, ?idle, rfl, hrest ?idle⟩
  case dump =>
    have hsorted := hupkeep.anyOrder _ (List.Perm.swap _ _ [])
    rw [← hsorted, dump, List.mergeSort_of_pairwise (by decide)]
    decide
  case idle =>
    rintro (_ | _ | caller)
    · rfl
    · rfl
    · rfl

end Registry

end Muster
