import Mathlib.Data.List.Perm.Basic
import Muster.Client.EventBus
import Muster.Proofs.Registry.Table

/-!
# Who holds the subscriptions of a bus

Every subscription is held by exactly one holder: under a name, or by the handler that it
has been entrusted to.  As long as the bus is not stuck, ending some subscriptions ends these
and no others, and a handler that owns a subscription is itself subscribed, or an event is on
its way to it.

The bus gets stuck exactly if the subscription of a handler is ended that no event is on its
way to and that owns another subscription.
-/

namespace Muster

/-- Some members of a list that has no member twice, and then the others. -/
theorem perm_append_filter_not_mem {ids all : List Nat} (hids : ids.Nodup) (hall : all.Nodup)
    (hsub : ids ⊆ all) : (ids ++ all.filter (· ∉ ids)).Perm all := by
  have hfirst : ids.Perm (all.filter (· ∈ ids)) := by
    refine (List.perm_ext_iff_of_nodup hids (hall.filter _)).mpr fun id => ?_
    rw [List.mem_filter, decide_eq_true_eq]
    exact ⟨fun hid => ⟨hsub hid, hid⟩, And.right⟩
  have hrest := List.filter_append_perm (· ∈ ids) all
  simp only [← decide_not] at hrest
  exact (hfirst.append_right _).trans hrest

namespace EventBus

variable {bus : EventBus}

/-- The subscriptions that somebody holds. -/
def values (bus : EventBus) : List Nat :=
  bus.held.map Prod.snd ++ bus.owned.map Prod.snd

theorem isAlive_iff {id : Nat} :
    bus.isAlive id = true ↔ id ∈ bus.subscriptions.map Prod.fst ∨ id ∈ bus.lent := by
  rw [isAlive, Bool.or_eq_true, List.any_eq_true, List.contains_iff_mem, List.mem_map]
  simp only [decide_eq_true_eq]

theorem map_filter_fst (subscriptions : List (Nat × Handler)) (ids : List Nat) :
    (subscriptions.filter fun subscription => subscription.1 ∉ ids).map Prod.fst =
      (subscriptions.map Prod.fst).filter (· ∉ ids) := by
  rw [List.filter_map]
  rfl

theorem values_take (bus : EventBus) (ids : List Nat) :
    (bus.take ids).values = bus.values.filter (· ∉ ids) := by
  simp only [values, take, List.filter_append, List.filter_map]
  rfl

theorem mem_values_of_lookup {name : String} {id : Nat} (hlookup : bus.held.lookup name = some id) :
    id ∈ bus.values :=
  List.mem_append_left _ (List.mem_map_of_mem (mem_of_lookup hlookup))

/-! ## Getting stuck -/

theorem unsubscribe_of_stuck (hstuck : bus.isStuck = true) (id : Nat) :
    bus.unsubscribe id = bus :=
  if_pos hstuck

theorem unsubscribe_of_free (hfree : bus.isStuck = false) (id : Nat) :
    bus.unsubscribe id =
      { bus with
        subscriptions := bus.subscriptions.filter fun subscription => subscription.1 ≠ id
        isStuck := !bus.lent.contains id && bus.owned.any fun owning => owning.1 = id } :=
  if_neg (by simp [hfree])

theorem foldl_unsubscribe_of_stuck (hstuck : bus.isStuck = true) (ids : List Nat) :
    ids.foldl unsubscribe bus = bus := by
  induction ids with
  | nil => rfl
  | cons id ids ih => rw [List.foldl_cons, unsubscribe_of_stuck hstuck, ih]

theorem isStuck_unsubscribe (hfree : bus.isStuck = false) (id : Nat) :
    (bus.unsubscribe id).isStuck = true ↔ id ∉ bus.lent ∧ ∃ inner, (id, inner) ∈ bus.owned := by
  rw [unsubscribe_of_free hfree]
  simp

/-- The bus gets stuck if one of the subscriptions keeps a handler that owns another one and
that nobody else refers to. -/
theorem isStuck_foldl_unsubscribe (hfree : bus.isStuck = false) (ids : List Nat) :
    (ids.foldl unsubscribe bus).isStuck = true ↔
      ∃ id ∈ ids, id ∉ bus.lent ∧ ∃ inner, (id, inner) ∈ bus.owned := by
  induction ids generalizing bus with
  | nil => simp [hfree]
  | cons id ids ih =>
      have hfirst := isStuck_unsubscribe hfree id
      rw [List.foldl_cons]
      simp only [List.mem_cons, exists_eq_or_imp, ← hfirst]
      cases hstuck : (bus.unsubscribe id).isStuck with
      | true => simp [foldl_unsubscribe_of_stuck hstuck, hstuck]
      | false =>
          rw [ih hstuck, unsubscribe_of_free hfree]
          simp

theorem foldl_unsubscribe_of_free {ids : List Nat} (hfree : bus.isStuck = false)
    (hafter : (ids.foldl unsubscribe bus).isStuck = false) :
    ids.foldl unsubscribe bus =
      { bus with
        subscriptions := bus.subscriptions.filter fun subscription => subscription.1 ∉ ids } := by
  induction ids generalizing bus with
  | nil => simp
  | cons id ids ih =>
      rw [List.foldl_cons] at hafter ⊢
      cases hstuck : (bus.unsubscribe id).isStuck with
      | true =>
          rw [foldl_unsubscribe_of_stuck hstuck, hstuck] at hafter
          contradiction
      | false =>
          rw [ih hstuck hafter, hstuck, unsubscribe_of_free hfree]
          simp [hfree, List.filter_filter, Bool.and_comm]

/-- A bus without the given subscriptions, which nobody holds any more. -/
def without (bus : EventBus) (ids : List Nat) : EventBus :=
  { bus.take ids with
    subscriptions := bus.subscriptions.filter fun subscription => subscription.1 ∉ ids }

/-- Where dropping subscriptions comes to its end, these are gone and nothing else is. -/
theorem discard_of_free {ids : List Nat} (hfree : bus.isStuck = false)
    (hafter : (bus.discard ids).isStuck = false) : bus.discard ids = bus.without ids := by
  rw [discard, if_neg (by simp [hfree])] at hafter ⊢
  exact @foldl_unsubscribe_of_free (bus.take ids) ids hfree hafter

theorem isStuck_discard (hfree : bus.isStuck = false) (ids : List Nat) :
    (bus.discard ids).isStuck = true ↔
      ∃ id ∈ ids, id ∉ bus.lent ∧ ∃ inner ∉ ids, (id, inner) ∈ bus.owned := by
  rw [discard, if_neg (by simp [hfree]), @isStuck_foldl_unsubscribe (bus.take ids) hfree]
  simp [take, and_comm]

/-! ## What everybody holds -/

/-- What holds of the subscriptions of a bus and of those who hold them. -/
structure Placed (bus : EventBus) : Prop where
  ordered : (bus.subscriptions.map Prod.fst).Pairwise (· < ·)
  below : ∀ id ∈ bus.subscriptions.map Prod.fst, id < bus.nextId
  /-- each subscription is held by exactly one holder -/
  values : bus.values.Perm (bus.subscriptions.map Prod.fst)
  /-- no two are held under one name -/
  names : (bus.held.map Prod.fst).Nodup

/-- Besides, handlers that own something are there. -/
structure Kept (bus : EventBus) : Prop extends Placed bus where
  alive : ∀ owning ∈ bus.owned, bus.isAlive owning.1 = true

theorem kept_empty : empty.Kept := by
  constructor
  · constructor <;> simp [empty, EventBus.values]
  · simp [empty]

theorem Placed.nodup (hplaced : bus.Placed) : (bus.subscriptions.map Prod.fst).Nodup :=
  hplaced.ordered.imp Nat.ne_of_lt

theorem Placed.nodup_values (hplaced : bus.Placed) : bus.values.Nodup :=
  hplaced.values.nodup_iff.mpr hplaced.nodup

theorem Placed.mem_of_value (hplaced : bus.Placed) {id : Nat} (hid : id ∈ bus.values) :
    id ∈ bus.subscriptions.map Prod.fst :=
  hplaced.values.mem_iff.mp hid

theorem Placed.without (hplaced : bus.Placed) (ids : List Nat) : (bus.without ids).Placed := by
  have hsublist : ((bus.without ids).subscriptions.map Prod.fst).Sublist
      (bus.subscriptions.map Prod.fst) :=
    List.filter_sublist.map _
  constructor
  · exact hplaced.ordered.sublist hsublist
  · exact fun id hid => hplaced.below id (hsublist.subset hid)
  · have hvalues : (bus.without ids).values = bus.values.filter (· ∉ ids) := values_take bus ids
    rw [hvalues, EventBus.without, map_filter_fst]
    exact hplaced.values.filter _
  · exact hplaced.names.sublist (List.filter_sublist.map _)

/-- A handler that owns something is still there after others have ended, unless the bus gets
stuck. -/
theorem isAlive_without {ids : List Nat} {owner inner : Nat} (hfree : bus.isStuck = false)
    (hafter : (bus.discard ids).isStuck = false) (halive : bus.isAlive owner = true)
    (howns : (owner, inner) ∈ bus.owned) (hout : inner ∉ ids) :
    (bus.without ids).isAlive owner = true := by
  rw [isAlive_iff] at halive ⊢
  by_cases hlent : owner ∈ bus.lent
  · exact .inr hlent
  · have howner : owner ∉ ids := by
      intro hid
      have hstuck := (isStuck_discard hfree ids).mpr ⟨owner, hid, hlent, inner, hout, howns⟩
      rw [hafter] at hstuck
      contradiction
    left
    rw [without, map_filter_fst, List.mem_filter]
    exact ⟨halive.resolve_right hlent, decide_eq_true howner⟩

/-- Only what is dropped may be owned by handlers that are not there any more. -/
theorem Placed.kept_discard {ids : List Nat} (hplaced : bus.Placed) (hfree : bus.isStuck = false)
    (hafter : (bus.discard ids).isStuck = false)
    (halive : ∀ owning ∈ bus.owned, owning.2 ∉ ids → bus.isAlive owning.1 = true) :
    (bus.discard ids).Kept := by
  have hstill (owning : Nat × Nat) (howning : owning ∈ (bus.without ids).owned) :
      (bus.without ids).isAlive owning.1 = true := by
    obtain ⟨hbefore, hout⟩ := List.mem_filter.mp howning
    rw [decide_eq_true_eq] at hout
    exact isAlive_without hfree hafter (halive owning hbefore hout) hbefore hout
  rw [discard_of_free hfree hafter]
  exact ⟨hplaced.without ids, hstill⟩

theorem Kept.discard {ids : List Nat} (hkept : bus.Kept) (hfree : bus.isStuck = false)
    (hafter : (bus.discard ids).isStuck = false) : (bus.discard ids).Kept :=
  hkept.kept_discard hfree hafter fun owning howning _ => hkept.alive owning howning

/-! ## Making subscriptions -/

/-- A bus with one more subscription, which nobody holds yet. -/
def add (bus : EventBus) (handler : Handler) : EventBus :=
  { bus with
    subscriptions := bus.subscriptions ++ [(bus.nextId, handler)]
    nextId := bus.nextId + 1 }

theorem subscribe_of_free (hfree : bus.isStuck = false) (handler : Handler) :
    bus.subscribe handler =
      { (bus.add handler).drop handler.name with
        held := (handler.name, bus.nextId) :: ((bus.add handler).drop handler.name).held } :=
  if_neg (by simp [hfree])

theorem isStuck_subscribe (hfree : bus.isStuck = false) (handler : Handler) :
    (bus.subscribe handler).isStuck = (bus.drop handler.name).isStuck := by
  rw [subscribe_of_free hfree]
  have hadded := @isStuck_discard (bus.add handler) hfree (bus.held.lookup handler.name).toList
  exact Bool.eq_iff_iff.mpr (hadded.trans (isStuck_discard hfree _).symm)

theorem without_add {ids : List Nat} (hnew : bus.nextId ∉ ids) (handler : Handler) :
    (bus.add handler).without ids = (bus.without ids).add handler := by
  simp [without, add, take, hnew]

theorem Placed.nextId_not_mem_lookup (hplaced : bus.Placed) (name : String) :
    bus.nextId ∉ (bus.held.lookup name).toList := by
  intro hid
  have hvalue := mem_values_of_lookup (Option.mem_toList.mp hid)
  exact Nat.lt_irrefl _ (hplaced.below _ (hplaced.mem_of_value hvalue))

/-- A new subscription comes last, and the one that was held under its name has ended. -/
theorem Placed.subscribe_eq {handler : Handler} (hplaced : bus.Placed)
    (hfree : bus.isStuck = false) (hafter : (bus.subscribe handler).isStuck = false) :
    let rest := bus.without (bus.held.lookup handler.name).toList
    bus.subscribe handler =
      { rest.add handler with held := (handler.name, bus.nextId) :: rest.held } := by
  intro rest
  rw [subscribe_of_free hfree] at hafter ⊢
  have hdrop : (bus.add handler).drop handler.name = rest.add handler :=
    (@discard_of_free (bus.add handler) (bus.held.lookup handler.name).toList hfree hafter).trans
      (without_add (hplaced.nextId_not_mem_lookup handler.name) handler)
  rw [hdrop]
  rfl

theorem Kept.subscribe {handler : Handler} (hkept : bus.Kept) (hfree : bus.isStuck = false)
    (hafter : (bus.subscribe handler).isStuck = false) : (bus.subscribe handler).Kept := by
  have hdrop : (bus.drop handler.name).isStuck = false := by
    rw [← hafter, isStuck_subscribe hfree]
  have hrest := hkept.discard hfree hdrop
  rw [discard_of_free hfree hdrop] at hrest
  rw [hkept.subscribe_eq hfree hafter]
  refine ⟨⟨?_, ?_, ?_, ?_⟩, ?_⟩
  · rw [add, List.map_append, List.pairwise_append]
    refine ⟨hrest.ordered, List.pairwise_singleton _ _, fun id hid other hother => ?_⟩
    rw [List.map_singleton, List.mem_singleton] at hother
    rw [hother]
    exact hrest.below id hid
  · intro id hid
    rw [add, List.map_append] at hid
    rcases List.mem_append.mp hid with hold | hnew
    · exact Nat.lt_succ_of_lt (hrest.below id hold)
    · rw [List.map_singleton, List.mem_singleton] at hnew
      rw [hnew]
      exact Nat.lt_succ_self _
  · rw [add, List.map_append]
    exact (hrest.values.cons bus.nextId).trans (List.perm_append_singleton _ _).symm
  · rw [List.map_cons, List.nodup_cons]
    refine ⟨fun hname => ?_, hrest.names⟩
    -- An entry under the name would be the one that has been dropped.
    obtain ⟨entry, hentry, hsame⟩ := List.mem_map.mp hname
    obtain ⟨hbefore, hout⟩ := List.mem_filter.mp hentry
    have hlookup := lookup_of_mem hkept.names hbefore
    rw [hsame] at hlookup
    rw [decide_eq_true_eq, hlookup] at hout
    exact hout (Option.mem_toList.mpr rfl)
  · intro owning howning
    rw [isAlive_iff]
    refine (isAlive_iff.mp (hrest.alive owning howning)).imp_left fun hthere => ?_
    rw [add, List.map_append]
    exact List.mem_append_left _ hthere

/-! ## Passing subscriptions on -/

theorem isStuck_pass (bus : EventBus) (id owner : Nat) :
    (bus.pass id owner).isStuck = bus.isStuck := by
  unfold pass
  split <;> rfl

theorem pass_of_free (hfree : bus.isStuck = false) (id owner : Nat) :
    bus.pass id owner =
      { bus.take [id] with owned := (bus.take [id]).owned ++ [(owner, id)] } :=
  if_neg (by simp [hfree])

theorem Kept.pass {id owner : Nat} (hkept : bus.Kept) (hfree : bus.isStuck = false)
    (hid : id ∈ bus.values) (howner : bus.isAlive owner = true) : (bus.pass id owner).Kept := by
  have hvalues : (bus.pass id owner).values = bus.values.filter (· ∉ [id]) ++ [id] := by
    rw [pass_of_free hfree, ← values_take]
    simp [EventBus.values]
  rw [pass_of_free hfree] at hvalues ⊢
  refine ⟨⟨hkept.ordered, hkept.below, ?_, ?_⟩, ?_⟩
  · rw [hvalues]
    refine List.perm_append_comm.trans (.trans ?_ hkept.values)
    exact perm_append_filter_not_mem (List.nodup_singleton id) hkept.nodup_values (by simpa)
  · exact hkept.names.sublist (List.filter_sublist.map _)
  · intro owning howning
    rcases List.mem_append.mp howning with hold | hnew
    · exact hkept.alive owning (List.mem_filter.mp hold).1
    · rw [List.mem_singleton.mp hnew]
      exact howner

/-! ## Referring to handlers -/

theorem Kept.lend (hkept : bus.Kept) : bus.lend.Kept := by
  refine ⟨⟨hkept.ordered, hkept.below, hkept.values, hkept.names⟩, fun owning howning => ?_⟩
  rw [isAlive_iff]
  refine (isAlive_iff.mp (hkept.alive owning howning)).imp_right fun hlent => ?_
  exact List.mem_append_right _ hlent

/-- A handler that leaves something is not there any more, and it owned all of that. -/
theorem mem_left {id inner : Nat} :
    inner ∈ bus.left id ↔ bus.isAlive id = false ∧ (id, inner) ∈ bus.owned := by
  unfold left
  cases bus.isAlive id <;> simp

theorem left_sublist (bus : EventBus) (id : Nat) :
    (bus.left id).Sublist (bus.owned.map Prod.snd) := by
  unfold left
  split
  · exact List.nil_sublist _
  · exact List.filter_sublist.map _

theorem giveBack_of_stuck (hstuck : bus.isStuck = true) (id : Nat) : bus.giveBack id = bus :=
  if_pos hstuck

theorem giveBack_of_free (hfree : bus.isStuck = false) (id : Nat) :
    bus.giveBack id = (bus.release id).discard ((bus.release id).left id) :=
  if_neg (by simp [hfree])

theorem giveBack_eq {id : Nat} (hfree : bus.isStuck = false)
    (hafter : (bus.giveBack id).isStuck = false) :
    bus.giveBack id = (bus.release id).without ((bus.release id).left id) := by
  have hreleased : (bus.release id).isStuck = false := hfree
  rw [giveBack_of_free hfree] at hafter ⊢
  exact discard_of_free hreleased hafter

theorem isAlive_release {id other : Nat} (halive : bus.isAlive other = true) (hne : other ≠ id) :
    (bus.release id).isAlive other = true := by
  rw [isAlive_iff] at halive ⊢
  exact halive.imp_right (List.mem_erase_of_ne hne).mpr

theorem Placed.release (hplaced : bus.Placed) (id : Nat) : (bus.release id).Placed :=
  ⟨hplaced.ordered, hplaced.below, hplaced.values, hplaced.names⟩

theorem Kept.giveBack {id : Nat} (hkept : bus.Kept) (hfree : bus.isStuck = false)
    (hafter : (bus.giveBack id).isStuck = false) : (bus.giveBack id).Kept := by
  rw [giveBack_of_free hfree] at hafter ⊢
  refine (hkept.release id).kept_discard hfree hafter fun owning howning hout => ?_
  -- The handler is still there if it keeps what it owns.
  by_cases hsame : owning.1 = id
  · by_contra hgone
    rw [Bool.not_eq_true, hsame] at hgone
    exact hout (mem_left.mpr ⟨hgone, hsame ▸ howning⟩)
  · exact isAlive_release (hkept.alive owning howning) hsame

/-- What a change does to the subscriptions: some end, and one may be made. -/
structure Changes (bus later : EventBus) (ids : List Nat) (handler? : Option Handler) : Prop where
  kept : later.Kept
  subscriptions : later.subscriptions =
    (bus.subscriptions.filter fun subscription => subscription.1 ∉ ids) ++
      handler?.toList.map (bus.nextId, ·)
  nextId : later.nextId = bus.nextId + handler?.toList.length

theorem Kept.changes_of_eq {later : EventBus} (hlater : later.Kept)
    (hsubscriptions : later.subscriptions = bus.subscriptions)
    (hnextId : later.nextId = bus.nextId) : bus.Changes later [] none := by
  refine ⟨hlater, ?_, hnextId⟩
  rw [hsubscriptions]
  simp

theorem Kept.changes_discard {ids : List Nat} (hkept : bus.Kept) (hfree : bus.isStuck = false)
    (hafter : (bus.discard ids).isStuck = false) : bus.Changes (bus.discard ids) ids none := by
  refine ⟨hkept.discard hfree hafter, ?_, ?_⟩
  · rw [discard_of_free hfree hafter]
    exact (List.append_nil _).symm
  · rw [discard_of_free hfree hafter]
    rfl

theorem Kept.changes_subscribe {handler : Handler} (hkept : bus.Kept)
    (hfree : bus.isStuck = false) (hafter : (bus.subscribe handler).isStuck = false) :
    bus.Changes (bus.subscribe handler) (bus.held.lookup handler.name).toList (some handler) := by
  refine ⟨hkept.subscribe hfree hafter, ?_, ?_⟩
  · rw [hkept.subscribe_eq hfree hafter]
    rfl
  · rw [hkept.subscribe_eq hfree hafter]
    rfl

theorem Kept.changes_pass {id owner : Nat} (hkept : bus.Kept) (hfree : bus.isStuck = false)
    (hid : id ∈ bus.values) (howner : bus.isAlive owner = true) :
    bus.Changes (bus.pass id owner) [] none := by
  refine (hkept.pass hfree hid howner).changes_of_eq ?_ ?_
  · rw [pass_of_free hfree]
    rfl
  · rw [pass_of_free hfree]
    rfl

theorem Kept.changes_giveBack {id : Nat} (hkept : bus.Kept) (hfree : bus.isStuck = false)
    (hafter : (bus.giveBack id).isStuck = false) :
    bus.Changes (bus.giveBack id) ((bus.release id).left id) none := by
  refine ⟨hkept.giveBack hfree hafter, ?_, ?_⟩
  · rw [giveBack_eq hfree hafter]
    exact (List.append_nil _).symm
  · rw [giveBack_eq hfree hafter]
    rfl

end EventBus

end Muster
