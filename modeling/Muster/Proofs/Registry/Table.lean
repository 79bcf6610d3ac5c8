import Mathlib.Data.List.Nodup
import Muster.Registry.Basic

/-!
# Looking up clusters and ledger entries

Clusters and retired numbers are kept under names.  Storing a cluster is seen
under its own name only, and the ledger gives every name a number to go on from.
Recording and forgetting never lower that number, because whatever is forgotten
raises the floor.
-/

namespace Muster

section Lookup

variable {α : Type}

theorem lookup_erase_self (name : String) (entries : List (String × α)) :
    (entries.filter fun entry => entry.1 ≠ name).lookup name = none := by
  rw [List.lookup_eq_none_iff]
  intro entry hentry
  have hne := (List.mem_filter.mp hentry).2
  simp only [decide_eq_true_eq] at hne
  simpa using fun heq => hne heq.symm

theorem lookup_erase_of_ne {name other : String} (hne : other ≠ name)
    (entries : List (String × α)) :
    (entries.filter fun entry => entry.1 ≠ name).lookup other = entries.lookup other := by
  induction entries with
  | nil => rfl
  | cons entry entries ih =>
      obtain ⟨key, value⟩ := entry
      by_cases hkey : key = name
      · have hother : (other == key) = false := by
          simpa [hkey] using hne
        rw [List.filter_cons_of_neg (by simpa using hkey), ih, List.lookup_cons, hother]
      · rw [List.filter_cons_of_pos (by simpa using hkey), List.lookup_cons,
          List.lookup_cons, ih]

theorem lookup_append (first second : List (String × α)) (name : String) :
    (first ++ second).lookup name = (first.lookup name).or (second.lookup name) := by
  induction first with
  | nil => rfl
  | cons entry first ih =>
      obtain ⟨key, value⟩ := entry
      rw [List.cons_append, List.lookup_cons, List.lookup_cons]
      cases name == key with
      | true => rfl
      | false => exact ih

theorem mem_of_lookup {entries : List (String × α)} {name : String} {value : α}
    (hlookup : entries.lookup name = some value) : (name, value) ∈ entries := by
  induction entries with
  | nil => simp at hlookup
  | cons entry entries ih =>
      obtain ⟨key, other⟩ := entry
      rw [List.lookup_cons] at hlookup
      cases hkey : name == key with
      | true =>
          rw [hkey] at hlookup
          rw [← Option.some.inj hlookup, eq_of_beq hkey]
          exact List.mem_cons_self
      | false =>
          rw [hkey] at hlookup
          exact List.mem_cons_of_mem _ (ih hlookup)

theorem lookup_of_mem {entries : List (String × α)} (hnodup : (entries.map Prod.fst).Nodup)
    {entry : String × α} (hentry : entry ∈ entries) :
    entries.lookup entry.1 = some entry.2 := by
  induction entries with
  | nil => contradiction
  | cons first entries ih =>
      obtain ⟨key, value⟩ := first
      rw [List.map_cons, List.nodup_cons] at hnodup
      rw [List.lookup_cons]
      rcases List.mem_cons.mp hentry with rfl | hrest
      · simp
      · have hne : (entry.1 == key) = false := by
          rw [beq_eq_false_iff_ne]
          intro hsame
          exact hnodup.1 (List.mem_map.mpr ⟨entry, hrest, hsame⟩)
        rw [hne]
        exact ih hnodup.2 hrest

theorem lookup_eq_none_of_nodup_append {first second : List (String × α)} {name : String}
    {value : α} (hnodup : ((first ++ second).map Prod.fst).Nodup)
    (hlookup : second.lookup name = some value) : first.lookup name = none := by
  rw [List.lookup_eq_none_iff]
  intro entry hentry
  rw [List.map_append, List.nodup_append] at hnodup
  have hsecond : name ∈ second.map Prod.fst :=
    List.mem_map.mpr ⟨(name, value), mem_of_lookup hlookup, rfl⟩
  have hne := hnodup.2.2 entry.1 (List.mem_map_of_mem hentry) name hsecond
  simpa using fun heq => hne heq.symm

end Lookup

namespace Registry

theorem lookup_replace_self
    (cluster : String) (membership : Membership) (clusters : List (String × Membership)) :
    (replace cluster membership clusters).lookup cluster = some membership := by
  induction clusters with
  | nil => simp [replace]
  | cons entry clusters ih =>
      obtain ⟨name, other⟩ := entry
      by_cases hname : name = cluster
      · simp [replace, hname]
      · have hcluster : (cluster == name) = false := by
          simpa using fun heq => hname heq.symm
        simp only [replace, hname, if_false]
        rw [List.lookup_cons, hcluster]
        exact ih

theorem lookup_replace_of_ne {cluster other : String} (hne : other ≠ cluster)
    (membership : Membership) (clusters : List (String × Membership)) :
    (replace cluster membership clusters).lookup other = clusters.lookup other := by
  induction clusters with
  | nil =>
      have hother : (other == cluster) = false := by simpa using hne
      simp [replace, List.lookup_cons, hother]
  | cons entry clusters ih =>
      obtain ⟨name, current⟩ := entry
      by_cases hname : name = cluster
      · have hother : (other == cluster) = false := by simpa using hne
        simp [replace, hname, List.lookup_cons, hother]
      · simp only [replace, hname, if_false]
        rw [List.lookup_cons, List.lookup_cons, ih]

theorem replace_of_lookup {cluster : String} {membership : Membership}
    {clusters : List (String × Membership)}
    (hlookup : clusters.lookup cluster = some membership) :
    replace cluster membership clusters = clusters := by
  induction clusters with
  | nil => contradiction
  | cons entry clusters ih =>
      obtain ⟨name, other⟩ := entry
      rw [List.lookup_cons] at hlookup
      by_cases hname : name = cluster
      · subst hname
        simp only [beq_self_eq_true] at hlookup
        simp [replace, Option.some.inj hlookup]
      · have hcluster : (cluster == name) = false := by
          simpa using fun heq => hname heq.symm
        rw [hcluster] at hlookup
        simp only [replace, hname, if_false]
        rw [ih hlookup]

/-- Storing what is there already changes nothing. -/
theorem store_of_find? {registry : Registry} {cluster : String} {membership : Membership}
    (hfind : registry.find? cluster = some membership)
    (hoccupied : membership.isEmpty = false) :
    registry.store cluster membership = registry := by
  unfold store
  rw [hoccupied, replace_of_lookup hfind]
  rfl

theorem find?_store_self
    (registry : Registry) (cluster : String) (membership : Membership) :
    (registry.store cluster membership).find? cluster =
      if membership.isEmpty then none else some membership := by
  unfold store find?
  split
  · exact lookup_erase_self cluster registry.clusters
  · exact lookup_replace_self cluster membership registry.clusters

theorem find?_store_of_ne
    (registry : Registry) {cluster other : String} (hne : other ≠ cluster)
    (membership : Membership) :
    (registry.store cluster membership).find? other = registry.find? other := by
  unfold store find?
  split
  · exact lookup_erase_of_ne hne registry.clusters
  · exact lookup_replace_of_ne hne membership registry.clusters

theorem find?_withExisting_self {α : Type} (registry : Registry) (cluster : String)
    (work : Membership → α × Membership) :
    (registry.withExisting cluster work).2.find? cluster =
      ((registry.find? cluster).map fun membership => (work membership).2).filter
        fun membership => !membership.isEmpty := by
  cases hfind : registry.find? cluster with
  | none => simp [withExisting, hfind]
  | some membership =>
      simp only [withExisting, hfind, find?_store_self, Option.map_some, Option.filter_some]
      cases (work membership).2.isEmpty <;> rfl

theorem find?_withExisting_of_ne {α : Type} {cluster other : String} (hother : other ≠ cluster)
    (registry : Registry) (work : Membership → α × Membership) :
    (registry.withExisting cluster work).2.find? other = registry.find? other := by
  cases hfind : registry.find? cluster with
  | none => simp only [withExisting, hfind]
  | some membership => simp only [withExisting, hfind, find?_store_of_ne registry hother]

theorem fst_withExisting {α : Type} (registry : Registry) (cluster : String)
    (work : Membership → α × Membership) :
    (registry.withExisting cluster work).1 =
      (registry.find? cluster).map fun membership => (work membership).1 := by
  cases hfind : registry.find? cluster <;> simp only [withExisting, hfind] <;> rfl

theorem getView_of_find? {registry : Registry} {cluster : String} {membership : Membership}
    (hfind : registry.find? cluster = some membership) :
    (registry.getView cluster).1 = membership.view? := by
  rw [getView, withExisting, hfind]
  rfl

theorem retired_store
    (registry : Registry) (cluster : String) (membership : Membership) :
    (registry.store cluster membership).retired =
      if membership.isEmpty then registry.retired.record cluster membership.lastViewId
      else registry.retired := by
  unfold store
  split <;> rfl

end Registry

namespace Ledger

/-- No name has two entries. -/
def Distinct (ledger : Ledger) : Prop :=
  (ledger.entries.map Prod.fst).Nodup

theorem distinct_empty (capacity : Nat) : (empty capacity).Distinct :=
  List.nodup_nil

theorem Distinct.take {ledger : Ledger} (hdistinct : ledger.Distinct) (name : String) :
    (ledger.take name).2.Distinct :=
  hdistinct.sublist (List.filter_sublist.map _)

theorem Distinct.trim {ledger : Ledger} (hdistinct : ledger.Distinct) : ledger.trim.Distinct :=
  hdistinct.sublist ((List.drop_sublist _ _).map _)

/-- The ledger with an entry at its end, before the oldest ones are forgotten. -/
def noted (ledger : Ledger) (name : String) (lastViewId : UInt64) : Ledger :=
  { ledger with entries := ledger.without name ++ [(name, lastViewId)] }

theorem Distinct.noted {ledger : Ledger} (hdistinct : ledger.Distinct)
    (name : String) (lastViewId : UInt64) : (ledger.noted name lastViewId).Distinct := by
  unfold Distinct Ledger.noted
  rw [List.map_append, List.map_singleton, ← List.concat_eq_append]
  apply List.Nodup.concat
  · intro hmem
    obtain ⟨entry, hentry, hname⟩ := List.mem_map.mp hmem
    have hne := (List.mem_filter.mp hentry).2
    simp [hname] at hne
  · exact hdistinct.sublist (List.filter_sublist.map _)

theorem Distinct.record {ledger : Ledger} (hdistinct : ledger.Distinct)
    (name : String) (lastViewId : UInt64) : (ledger.record name lastViewId).Distinct :=
  (hdistinct.noted name lastViewId).trim

theorem resume_take_of_ne (ledger : Ledger) {name other : String} (hne : other ≠ name) :
    (ledger.take name).2.resume other = ledger.resume other := by
  unfold take resume without
  rw [lookup_erase_of_ne hne]

theorem resume_noted_self (ledger : Ledger) (name : String) (lastViewId : UInt64) :
    (ledger.noted name lastViewId).resume name = lastViewId := by
  unfold noted resume without
  rw [lookup_append, lookup_erase_self]
  simp

theorem resume_noted_of_ne (ledger : Ledger) {name other : String} (hne : other ≠ name)
    (lastViewId : UInt64) :
    (ledger.noted name lastViewId).resume other = ledger.resume other := by
  have hother : (other == name) = false := by simpa using hne
  unfold noted resume without
  rw [lookup_append, lookup_erase_of_ne hne, List.lookup_cons, hother]
  simp

/-! ## Forgetting -/

theorem le_max_left (a b : UInt64) : a ≤ max a b := by
  change a ≤ if a ≤ b then b else a
  split
  next hle => exact hle
  · exact UInt64.le_refl a

theorem le_max_right (a b : UInt64) : b ≤ max a b := by
  change b ≤ if a ≤ b then b else a
  split
  · exact UInt64.le_refl b
  next hnot => exact UInt64.le_of_lt (UInt64.not_le.mp hnot)

theorem le_foldl_floor (entries : List (String × UInt64)) (floor : UInt64) :
    floor ≤ entries.foldl (fun floor entry => max floor entry.2) floor := by
  induction entries generalizing floor with
  | nil => exact UInt64.le_refl floor
  | cons entry entries ih =>
      exact UInt64.le_trans (le_max_left floor entry.2) (ih (max floor entry.2))

theorem le_foldl_floor_of_mem {entries : List (String × UInt64)} {entry : String × UInt64}
    (hentry : entry ∈ entries) (floor : UInt64) :
    entry.2 ≤ entries.foldl (fun floor entry => max floor entry.2) floor := by
  induction entries generalizing floor with
  | nil => contradiction
  | cons first entries ih =>
      rw [List.foldl_cons]
      rcases List.mem_cons.mp hentry with rfl | hrest
      · exact UInt64.le_trans (le_max_right floor entry.2) (le_foldl_floor entries _)
      · exact ih hrest (max floor first.2)

/-- A name that is forgotten goes on from the floor, which is at least as high
as the entry was.  Distinct names matter: were there a second, lower entry, it
would show once the first one is gone. -/
theorem resume_le_resume_trim {ledger : Ledger} (hdistinct : ledger.Distinct)
    (name : String) : ledger.resume name ≤ ledger.trim.resume name := by
  have hsplit := List.take_append_drop (ledger.size - ledger.capacity) ledger.entries
  unfold resume trim
  generalize ledger.size - ledger.capacity = excess at hsplit ⊢
  have hlookup := lookup_append (ledger.entries.take excess) (ledger.entries.drop excess) name
  rw [hsplit] at hlookup
  rw [hlookup]
  cases hkept : (ledger.entries.drop excess).lookup name with
  | some id =>
      unfold Distinct at hdistinct
      rw [← hsplit] at hdistinct
      rw [lookup_eq_none_of_nodup_append hdistinct hkept]
      exact UInt64.le_refl id
  | none =>
      cases hdropped : (ledger.entries.take excess).lookup name with
      | some id => exact le_foldl_floor_of_mem (mem_of_lookup hdropped) ledger.floor
      | none => exact le_foldl_floor (ledger.entries.take excess) ledger.floor

theorem le_resume_record_self {ledger : Ledger} (hdistinct : ledger.Distinct)
    (name : String) (lastViewId : UInt64) :
    lastViewId ≤ (ledger.record name lastViewId).resume name := by
  have htrim := resume_le_resume_trim (hdistinct.noted name lastViewId) name
  rw [resume_noted_self] at htrim
  exact htrim

theorem resume_le_resume_record_of_ne {ledger : Ledger} (hdistinct : ledger.Distinct)
    {name other : String} (hne : other ≠ name) (lastViewId : UInt64) :
    ledger.resume other ≤ (ledger.record name lastViewId).resume other := by
  have htrim := resume_le_resume_trim (hdistinct.noted name lastViewId) other
  rw [resume_noted_of_ne ledger hne] at htrim
  exact htrim

end Ledger

end Muster
