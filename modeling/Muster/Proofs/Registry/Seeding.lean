import Mathlib.Data.List.Induction
import Mathlib.Data.List.Perm.Basic
import Muster.Proofs.Registry.Seniority

/-!
# Registering a shared view

Several members bring the same view to a cluster, each of them over a session of its own.
The first registration adds whoever is missing, in the order of the view; every other one
finds all of them there and only binds the member that brings it.  Bonds of different
members do not touch each other, so the cluster does not depend on who came first, and
whoever comes again changes nothing.
-/

namespace Muster

attribute [ext] Member

/-- The member as it is once a caller has bound itself. -/
def Member.boundBy (member : Member) (caller : Recipient) : Member :=
  if caller.address.same member.address then { member with session := some caller.session }
  else member

@[simp] theorem Member.address_boundBy (member : Member) (caller : Recipient) :
    (member.boundBy caller).address = member.address := by
  unfold boundBy
  split <;> rfl

theorem Member.session_boundBy (member : Member) (caller : Recipient) :
    (member.boundBy caller).session =
      if caller.address.uuid = member.address.uuid then some caller.session
      else member.session := by
  simp only [boundBy, Address.same_iff]
  split <;> rfl

namespace Membership

variable {membership : Membership} {shared : List Address} {caller : Recipient}

/-- Reaches a member through another session.  Strangers are not let in. -/
def rebind (membership : Membership) (caller : Recipient) : Membership :=
  { membership with members := membership.members.map (·.boundBy caller) }

/-- The membership with everybody from a shared view, where some of them are bound. -/
def seeded (membership : Membership) (shared : List Address) (callers : List Recipient) :
    Membership :=
  callers.foldl rebind (shared.foldl expect membership)

theorem seeded_snoc (membership : Membership) (shared : List Address)
    (callers : List Recipient) (caller : Recipient) :
    membership.seeded shared (callers ++ [caller]) =
      (membership.seeded shared callers).rebind caller :=
  List.foldl_append

/-! ## Binding -/

theorem bind_eq_rebind (hmember : membership.contains caller.address = true) :
    membership.bind caller.address caller.session = membership.rebind caller :=
  if_pos hmember

@[simp] theorem addresses_rebind (membership : Membership) (caller : Recipient) :
    (membership.rebind caller).addresses = membership.addresses := by
  simp [addresses, rebind]

@[simp] theorem identities_rebind (membership : Membership) (caller : Recipient) :
    (membership.rebind caller).identities = membership.identities := by
  simp [identities_eq_map_addresses]

theorem contains_rebind (membership : Membership) (caller : Recipient) (address : Address) :
    (membership.rebind caller).contains address = membership.contains address := by
  rw [Bool.eq_iff_iff, contains_iff, contains_iff, identities_rebind]

/-- Only the later one of two bonds of a member is left. -/
theorem rebind_rebind_self (membership : Membership) (caller : Recipient) :
    (membership.rebind caller).rebind caller = membership.rebind caller := by
  simp only [rebind, List.map_map, Membership.mk.injEq, and_true]
  apply List.map_congr_left
  intro member _
  simp only [Function.comp_apply, Member.ext_iff, Member.address_boundBy,
    Member.session_boundBy, true_and]
  split <;> rfl

/-- Bonds of different members can be made in either order. -/
theorem rebind_rebind_comm {first second : Recipient}
    (hother : first.address.uuid ≠ second.address.uuid) (membership : Membership) :
    (membership.rebind first).rebind second = (membership.rebind second).rebind first := by
  simp only [rebind, List.map_map, Membership.mk.injEq, and_true]
  apply List.map_congr_left
  intro member _
  simp only [Function.comp_apply, Member.ext_iff, Member.address_boundBy,
    Member.session_boundBy, true_and]
  split
  next hsecond => rw [if_neg fun hfirst => hother (hfirst.trans hsecond.symm)]
  · rfl

theorem find?_rebind (membership : Membership) (caller : Recipient) (address : Address) :
    (membership.rebind caller).find? address =
      (membership.find? address).map (·.boundBy caller) := by
  have hsame : (fun member : Member => address.same member.address) ∘
      (fun member : Member => member.boundBy caller) =
        fun member : Member => address.same member.address := by
    funext member
    rw [Function.comp_apply, Member.address_boundBy]
  rw [find?, rebind, List.find?_map, hsame, find?]

theorem uuid_of_find? {address : Address} {member : Member}
    (hfind : membership.find? address = some member) :
    address.uuid = member.address.uuid := by
  unfold find? at hfind
  have hsame := List.find?_some hfind
  exact Address.same_iff.mp hsame

theorem sessionOf?_rebind (membership : Membership) (caller : Recipient) (address : Address) :
    (membership.rebind caller).sessionOf? address =
      if caller.address.uuid = address.uuid ∧ membership.contains address = true then
        some caller.session
      else membership.sessionOf? address := by
  unfold sessionOf? contains
  rw [find?_rebind]
  cases hfind : membership.find? address with
  | none => simp
  | some member =>
      simp only [Option.map_some, Option.bind_some, Member.session_boundBy, Option.isSome_some,
        and_true, uuid_of_find? hfind]

/-! ## Expecting -/

theorem contains_foldl_expect {address : Address} (hlisted : address.isIn shared = true)
    (membership : Membership) : (shared.foldl expect membership).contains address = true := by
  induction shared generalizing membership with
  | nil => contradiction
  | cons first shared ih =>
      obtain ⟨other, hother, hsame⟩ := Address.isIn_iff.mp hlisted
      rcases List.mem_cons.mp hother with rfl | hlater
      · have hearly : (membership.expect other).contains address = true := by
          rw [contains_iff, hsame, identities_expect]
          split
          next hmem => exact hmem
          · simp
        exact contains_of_prefix_identities (identities_prefix_foldl_expect shared _) hearly
      · exact ih (Address.isIn_iff.mpr ⟨other, hlater, hsame⟩) (membership.expect first)

theorem sessionOf?_expect (membership : Membership) (expected address : Address) :
    (membership.expect expected).sessionOf? address = membership.sessionOf? address := by
  unfold expect
  split
  · rfl
  · rw [sessionOf?, find?, add, List.find?_append, sessionOf?, find?]
    cases membership.members.find? fun member => address.same member.address with
    | some member => rfl
    | none =>
        rw [Option.none_or, List.find?_singleton]
        split <;> rfl

theorem sessionOf?_foldl_expect (shared : List Address) (membership : Membership)
    (address : Address) :
    (shared.foldl expect membership).sessionOf? address = membership.sessionOf? address := by
  induction shared generalizing membership with
  | nil => rfl
  | cons first shared ih => rw [List.foldl_cons, ih, sessionOf?_expect]

/-! ## Registering -/

theorem addresses_seeded (membership : Membership) (shared : List Address)
    (callers : List Recipient) :
    (membership.seeded shared callers).addresses =
      membership.addresses ++ membership.newcomers shared := by
  induction callers using List.reverseRecOn with
  | nil => exact addresses_foldl_expect shared membership
  | append_singleton callers caller ih => rw [seeded_snoc, addresses_rebind, ih]

theorem lastViewId_seeded (membership : Membership) (shared : List Address)
    (callers : List Recipient) :
    (membership.seeded shared callers).lastViewId = membership.lastViewId := by
  induction callers using List.reverseRecOn with
  | nil => exact lastViewId_foldl_expect shared membership
  | append_singleton callers caller ih => rw [seeded_snoc, ← ih, rebind]

theorem contains_seeded {address : Address} (hlisted : address.isIn shared = true)
    (membership : Membership) (callers : List Recipient) :
    (membership.seeded shared callers).contains address = true := by
  induction callers using List.reverseRecOn with
  | nil => exact contains_foldl_expect hlisted membership
  | append_singleton callers caller ih => rw [seeded_snoc, contains_rebind, ih]

theorem isEmpty_seeded (hlisted : caller.address.isIn shared = true)
    (membership : Membership) (callers : List Recipient) :
    (membership.seeded shared callers).isEmpty = false :=
  isEmpty_eq_false_of_contains (contains_seeded hlisted membership callers)

/-- The first registration. -/
theorem registerView_eq_seeded (hlisted : caller.address.isIn shared = true)
    (membership : Membership) :
    membership.registerView shared caller.address caller.session =
      membership.seeded shared [caller] :=
  bind_eq_rebind (contains_foldl_expect hlisted membership)

/-- Every later registration finds everybody there. -/
theorem registerView_seeded (hlisted : caller.address.isIn shared = true)
    (membership : Membership) (callers : List Recipient) :
    (membership.seeded shared callers).registerView shared caller.address caller.session =
      membership.seeded shared (callers ++ [caller]) := by
  have hknown : ∀ address ∈ shared,
      (membership.seeded shared callers).contains address = true :=
    fun address haddress =>
      contains_seeded (Address.isIn_iff.mpr ⟨address, haddress, rfl⟩) membership callers
  rw [registerView, foldl_expect_of_contains hknown, seeded_snoc,
    bind_eq_rebind (contains_seeded hlisted membership callers)]

theorem seeded_perm {order callers : List Recipient} (horder : order.Perm callers)
    (hdistinct : (callers.map fun caller => caller.address.uuid).Nodup)
    (membership : Membership) (shared : List Address) :
    membership.seeded shared order = membership.seeded shared callers := by
  refine horder.foldl_eq' ?_ _
  intro first hfirst second hsecond reached
  by_cases hsame : first.address.uuid = second.address.uuid
  · have heq : first = second :=
      List.inj_on_of_nodup_map hdistinct (horder.subset hfirst) (horder.subset hsecond) hsame
    rw [heq]
  · exact rebind_rebind_comm hsame reached

/-- Whoever registers again is bound already. -/
theorem seeded_again {callers : List Recipient} (hcaller : caller ∈ callers)
    (hdistinct : (callers.map fun caller => caller.address.uuid).Nodup)
    (membership : Membership) (shared : List Address) :
    membership.seeded shared (callers ++ [caller]) = membership.seeded shared callers := by
  obtain ⟨earlier, later, rfl⟩ := List.append_of_mem hcaller
  have hlast : ((earlier ++ later) ++ [caller]).Perm (earlier ++ caller :: later) :=
    (List.perm_append_singleton caller _).trans List.perm_middle.symm
  rw [seeded_snoc, ← seeded_perm hlast hdistinct, seeded_snoc, rebind_rebind_self]

/-- What a membership becomes when some members of a shared view register it. -/
structure Seeds (before : Membership) (shared : List Address) (callers : List Recipient)
    (after : Membership) : Prop where
  /-- The old members come first, and then the others in the order of the view. -/
  addresses : after.addresses = before.addresses ++ before.newcomers shared
  bound : ∀ caller ∈ callers, after.sessionOf? caller.address = some caller.session
  /-- All other bonds are as they were; whoever is new is not reached. -/
  unbound : ∀ address, (∀ caller ∈ callers, caller.address.uuid ≠ address.uuid) →
    after.sessionOf? address = before.sessionOf? address
  number : after.lastViewId = before.lastViewId

theorem sessionOf?_seeded_of_ne {callers : List Recipient} {address : Address}
    (hothers : ∀ caller ∈ callers, caller.address.uuid ≠ address.uuid)
    (membership : Membership) (shared : List Address) :
    (membership.seeded shared callers).sessionOf? address = membership.sessionOf? address := by
  induction callers using List.reverseRecOn with
  | nil => exact sessionOf?_foldl_expect shared membership address
  | append_singleton callers caller ih =>
      have hother : caller.address.uuid ≠ address.uuid := hothers caller (by simp)
      rw [seeded_snoc, sessionOf?_rebind, if_neg fun hsame => hother hsame.1]
      exact ih fun other hmem => hothers other (List.mem_append_left _ hmem)

theorem seeds_seeded {callers : List Recipient}
    (hlisted : ∀ caller ∈ callers, caller.address.isIn shared = true)
    (hdistinct : (callers.map fun caller => caller.address.uuid).Nodup)
    (membership : Membership) :
    membership.Seeds shared callers (membership.seeded shared callers) where
  addresses := membership.addresses_seeded shared callers
  bound := by
    intro caller hcaller
    rw [← seeded_again hcaller hdistinct, seeded_snoc, sessionOf?_rebind,
      if_pos ⟨rfl, contains_seeded (hlisted caller hcaller) membership callers⟩]
  unbound := fun _ hothers => sessionOf?_seeded_of_ne hothers membership shared
  number := membership.lastViewId_seeded shared callers

end Membership

namespace Registry

theorem replace_replace (cluster : String) (first second : Membership)
    (clusters : List (String × Membership)) :
    replace cluster second (replace cluster first clusters) =
      replace cluster second clusters := by
  induction clusters with
  | nil => simp [replace]
  | cons entry clusters ih =>
      obtain ⟨name, other⟩ := entry
      by_cases hname : name = cluster <;> simp [replace, hname, ih]

/-- Of two memberships stored one after the other the second one is left. -/
theorem store_store (registry : Registry) (cluster : String) {first second : Membership}
    (hfirst : first.isEmpty = false) (hsecond : second.isEmpty = false) :
    (registry.store cluster first).store cluster second = registry.store cluster second := by
  simp [store, hfirst, hsecond, replace_replace]

/-- The registrations of a shared view by some of its members, one after the other. -/
def registrations (cluster : String) (shared : List Address) (callers : List Recipient) :
    List Operation :=
  callers.map fun caller => .registerView cluster shared caller.address caller.session

variable {cluster : String} {shared : List Address} {callers : List Recipient}

/-- The registry as work on a cluster finds it: a cluster that is not there has been taken
from the ledger. -/
def opened (registry : Registry) (cluster : String) : Registry :=
  match registry.find? cluster with
  | some _ => registry
  | none => { registry with retired := (registry.retired.take cluster).2 }

theorem perform_registerView (registry : Registry) (cluster : String) (shared : List Address)
    (caller : Recipient) :
    (registry.perform (.registerView cluster shared caller.address caller.session)).2 =
      (registry.opened cluster).store cluster
        ((registry.current cluster).registerView shared caller.address caller.session) := by
  cases hfind : registry.find? cluster with
  | some membership =>
      rw [perform_of_found registry rfl hfind, current_of_find? hfind, opened, hfind]
      rfl
  | none =>
      rw [perform_of_created registry rfl rfl hfind, opened, hfind]
      rfl

/-- Only the first registration can create the cluster. -/
theorem after_registrations (registry : Registry) (hsome : callers ≠ [])
    (hlisted : ∀ caller ∈ callers, caller.address.isIn shared = true) :
    registry.after (registrations cluster shared callers) =
      (registry.opened cluster).store cluster
        ((registry.current cluster).seeded shared callers) := by
  induction callers using List.reverseRecOn with
  | nil => contradiction
  | append_singleton callers caller ih =>
      have hlast : caller.address.isIn shared = true := hlisted caller (by simp)
      rw [registrations, List.map_append, List.map_singleton, after_snoc]
      cases callers with
      | nil =>
          rw [List.map_nil, after_nil, perform_registerView,
            Membership.registerView_eq_seeded hlast, List.nil_append]
      | cons first callers =>
          have hearlier := ih (List.cons_ne_nil _ _)
            fun other hother => hlisted other (List.mem_append_left _ hother)
          have hsome := Membership.isEmpty_seeded hlast (registry.current cluster) (first :: callers)
          have hfind : (registry.after (registrations cluster shared (first :: callers))).find?
              cluster = some ((registry.current cluster).seeded shared (first :: callers)) := by
            rw [hearlier, find?_store_self, hsome]
            rfl
          rw [registrations] at hearlier hfind
          rw [perform_of_found _ rfl hfind, hearlier, Operation.work,
            Membership.registerView_seeded hlast]
          exact store_store _ cluster hsome (Membership.isEmpty_seeded hlast _ _)

/-- Members of a shared view may register it in any order: the cluster is the same in the end,
and registering again changes nothing. -/
theorem registrations_in_any_order (registry : Registry) (cluster : String)
    {shared : List Address} {callers : List Recipient} (hsome : callers ≠ [])
    (hlisted : ∀ caller ∈ callers, caller.address.isIn shared = true)
    (hdistinct : (callers.map fun caller => caller.address.uuid).Nodup) :
    let seeded := registry.after (registrations cluster shared callers)
    (∃ membership, seeded.find? cluster = some membership ∧
        (registry.current cluster).Seeds shared callers membership) ∧
      (∀ order : List Recipient, order.Perm callers →
        registry.after (registrations cluster shared order) = seeded) ∧
      ∀ again : List Recipient, again ⊆ callers →
        seeded.after (registrations cluster shared again) = seeded := by
  intro seeded
  have hseeded : seeded = (registry.opened cluster).store cluster
      ((registry.current cluster).seeded shared callers) :=
    after_registrations registry hsome hlisted
  obtain ⟨caller, hcaller⟩ := List.exists_mem_of_ne_nil callers hsome
  have hoccupied := Membership.isEmpty_seeded (hlisted caller hcaller)
    (registry.current cluster) callers
  have hfind : seeded.find? cluster =
      some ((registry.current cluster).seeded shared callers) := by
    rw [hseeded, find?_store_self, hoccupied]
    rfl
  refine ⟨⟨_, hfind, Membership.seeds_seeded hlisted hdistinct _⟩, ?_, ?_⟩
  · intro order horder
    have hordered : order ≠ [] := fun hnone => hsome (List.nil_perm.mp (hnone ▸ horder))
    rw [hseeded, after_registrations registry hordered
      fun other hother => hlisted other (horder.subset hother),
      Membership.seeded_perm horder hdistinct]
  · intro again hagain
    induction again with
    | nil => rfl
    | cons other again ih =>
        obtain ⟨hother, hrest⟩ := List.cons_subset.mp hagain
        have hstay : (seeded.perform
            (.registerView cluster shared other.address other.session)).2 = seeded := by
          rw [perform_of_found seeded rfl hfind, Operation.work,
            Membership.registerView_seeded (hlisted other hother),
            Membership.seeded_again hother hdistinct]
          exact store_of_find? hfind hoccupied
        rw [registrations, List.map_cons, after_cons, hstay]
        exact ih hrest

/-- One caller is expected already and the other one is new; the view lists a stranger twice
and somebody who is bound elsewhere. -/
theorem registrations_in_any_order_mixed :
    let first := Address.ofUuid ⟨0, 1⟩
    let second := Address.ofUuid ⟨0, 2⟩
    let third := Address.ofUuid ⟨0, 3⟩
    let fourth := Address.ofUuid ⟨0, 4⟩
    let registry := (empty 1).after [.join "a" first ⟨1⟩,
      .registerView "a" [second] third ⟨3⟩]
    let shared := [fourth, second, fourth, first]
    let callers : List Recipient := [⟨second, ⟨2⟩⟩, ⟨fourth, ⟨4⟩⟩]
    let seeded := registry.after (registrations "a" shared callers)
    (callers ≠ [] ∧ (∀ caller ∈ callers, caller.address.isIn shared = true) ∧
        (callers.map fun caller => caller.address.uuid).Nodup) ∧
      seeded.find? "a" = some ⟨[⟨first, some ⟨1⟩⟩, ⟨second, some ⟨2⟩⟩, ⟨third, some ⟨3⟩⟩,
        ⟨fourth, some ⟨4⟩⟩], 1⟩ ∧
      (∃ membership, seeded.find? "a" = some membership ∧
        (registry.current "a").Seeds shared callers membership) ∧
      (∀ order : List Recipient, order.Perm callers →
        registry.after (registrations "a" shared order) = seeded) ∧
      ∀ again : List Recipient, again ⊆ callers →
        seeded.after (registrations "a" shared again) = seeded := by
  intro first second third fourth registry shared callers seeded
  have hsome : callers ≠ [] := by decide
  have hlisted : ∀ caller ∈ callers, caller.address.isIn shared = true := by decide
  have hdistinct : (callers.map fun caller => caller.address.uuid).Nodup := by decide
  exact ⟨⟨hsome, hlisted, hdistinct⟩, by decide,
    registrations_in_any_order registry "a" hsome hlisted hdistinct⟩

end Registry

end Muster
