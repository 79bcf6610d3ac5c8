import Muster.Proofs.Client.News
import Muster.Proofs.Client.Ownership

/-!
# A bus in use

Handlers subscribe, drop subscriptions, let others own them and emit events while they run,
and so does the application from without.  So a bus in use goes through a history of single
acts: a subscription is made, dropped or passed on, an event comes up, a handler that is due is
called, or it is done.  The acts of different emissions may come in any order, and a handler
may do anything whatever between its call and its end.

Nothing comes of the acts that follow once the bus is stuck.  Before that, the subscriptions
are those that have been made and that nobody has dropped.
-/

namespace Muster

namespace EventBus

/-! ## Acts -/

/-- What happens to a bus at once, by the application or by a handler that runs. -/
inductive Act
  | react (reaction : Reaction)
  /-- whoever holds a subscription drops it -/
  | discard (id : Nat)
  /-- whoever holds a subscription lets a handler own it -/
  | entrust (id owner : Nat)
  /-- an event comes up -/
  | emit (event : Event)
  /-- the next handler of an emission is called, after the last one is done -/
  | call (emission : Nat)
  /-- the handler of an emission that was called last is done -/
  | leave (emission : Nat)

/-- An event on its way to those who were subscribed when it came up. -/
structure Emission where
  event : Event
  /-- those who are still to be called -/
  waiting : List (Nat × Handler)
  /-- the one who has been called and is not done -/
  running : Option Nat

/-- The handlers that an emission refers to. -/
def Emission.lent (emission : Emission) : List Nat :=
  emission.running.toList ++ emission.waiting.map Prod.fst

/-- The body of a handler has run. -/
structure Body where
  emission : Nat
  event : Event
  subscription : Nat × Handler

/-- A bus with the events that have come up, and with what has come of them. -/
structure Use where
  bus : EventBus
  emissions : List Emission
  bodies : List Body
  /-- the subscriptions that have been dropped -/
  dropped : List Nat

/-- A handler as it is called, before it does anything. -/
def still (handler : Handler) : Handler :=
  .mk handler.name handler.interest []

/-- The bodies that run when handlers are called because of one event. -/
def bodiesOf (number : Nat) (event : Event) (audience : List (Nat × Handler)) : List Body :=
  (audience.filter fun subscription => subscription.2.interest.covers event).map
    (⟨number, event, ·⟩)

namespace Use

/-- The handler of an emission that was called last is done, if there is one. -/
def leave (use : Use) (number : Nat) : Use :=
  match use.emissions[number]? with
  | some ⟨event, waiting, some id⟩ =>
    { use with
      bus := use.bus.giveBack id
      emissions := use.emissions.set number ⟨event, waiting, none⟩ }
  | _ => use

/-- The next handler of an emission is called, if there is one. -/
def call (use : Use) (number : Nat) : Use :=
  match use.emissions[number]? with
  | some ⟨event, subscription :: waiting, none⟩ =>
    { use with
      bus := use.bus.call event (still subscription.2)
      emissions := use.emissions.set number ⟨event, waiting, some subscription.1⟩
      bodies := use.bodies ++ bodiesOf number event [subscription] }
  | _ => use

/-- The subscriptions that are dropped because the handler called last is done. -/
def leftBy (use : Use) (number : Nat) : List Nat :=
  match use.emissions[number]? with
  | some ⟨_, _, some id⟩ => (use.bus.release id).left id
  | _ => []

/-- The subscriptions that an act drops.  Taking a name again drops what is held under it, and
a handler that is destroyed drops what it owns. -/
def drops (use : Use) : Act → List Nat
  | .react (.drop name) => (use.bus.held.lookup name).toList
  | .react (.subscribe handler) => (use.bus.held.lookup handler.name).toList
  | .discard id => if id ∈ use.bus.values then [id] else []
  | .call number | .leave number => use.leftBy number
  | .react (.entrust _ _) | .entrust _ _ | .emit _ => []

def perform (use : Use) : Act → Use
  | .react reaction => { use with bus := use.bus.react reaction }
  | .discard id => { use with bus := use.bus.discard (use.drops (.discard id)) }
  | .entrust id owner =>
    if id ∈ use.bus.values ∧ use.bus.isAlive owner then
      { use with bus := use.bus.pass id owner }
    else use
  | .emit event =>
    { use with
      bus := use.bus.lend
      emissions := use.emissions ++ [⟨event, use.bus.subscriptions, none⟩] }
  | .call number =>
    if (use.leave number).bus.isStuck then use.leave number else (use.leave number).call number
  | .leave number => use.leave number

def step (use : Use) (act : Act) : Use :=
  if use.bus.isStuck then use
  else { use.perform act with dropped := use.dropped ++ use.drops act }

def run (use : Use) (acts : List Act) : Use :=
  acts.foldl Use.step use

/-- Whether an event is on its way to a handler. -/
def Refers (use : Use) (id : Nat) : Prop :=
  ∃ emission ∈ use.emissions, id ∈ emission.lent

/-- Whether an act ends the subscription of a handler that owns another one and that nobody
else refers to. -/
def Wedges (use : Use) (act : Act) : Prop :=
  ∃ id ∈ use.drops act, ¬use.Refers id ∧ ∃ inner ∉ use.drops act, (id, inner) ∈ use.bus.owned

end Use

/-- A bus that has been used from its creation on. -/
def used (history : List Act) : Use :=
  Use.run ⟨.empty, [], [], []⟩ history

/-! ## What a history says -/

def Act.handler? : Act → Option Handler
  | .react (.subscribe handler) => some handler
  | .react (.drop _) | .react (.entrust _ _) => none
  | .discard _ | .entrust _ _ | .emit _ | .call _ | .leave _ => none

/-- Whether an act lets a handler own a subscription. -/
def Act.entrusts : Act → Bool
  | .react (.entrust _ _) | .entrust _ _ => true
  | .react (.drop _) | .react (.subscribe _) => false
  | .discard _ | .emit _ | .call _ | .leave _ => false

def Act.calls (number : Nat) : Act → Bool
  | .call other => other = number
  | .react _ | .discard _ | .entrust _ _ | .emit _ | .leave _ => false

/-- How many subscriptions have been made. -/
def made (history : List Act) : Nat :=
  (history.filterMap Act.handler?).length

/-- The subscriptions that have been made, in order and with their numbers. -/
def enrolled (history : List Act) : List (Nat × Handler) :=
  (history.filterMap Act.handler?).mapIdx Prod.mk

/-- The number of events that have come up. -/
def emitted (history : List Act) : Nat :=
  history.countP fun act => act matches .emit _

theorem used_concat (history : List Act) (act : Act) :
    used (history ++ [act]) = (used history).step act := by
  simp [used, Use.run]

theorem made_concat (history : List Act) (act : Act) :
    made (history ++ [act]) = made history + act.handler?.toList.length := by
  cases hhandler : act.handler? <;> simp [made, hhandler]

theorem made_append (history later : List Act) :
    made (history ++ later) = made history + made later := by
  simp [made]

theorem enrolled_concat (history : List Act) (act : Act) :
    enrolled (history ++ [act]) =
      enrolled history ++ act.handler?.toList.map (made history, ·) := by
  cases hhandler : act.handler? <;> simp [enrolled, made, hhandler, List.mapIdx_concat]

theorem map_fst_enrolled (history : List Act) :
    (enrolled history).map Prod.fst = List.range (made history) := by
  induction history using List.reverseRecOn with
  | nil => rfl
  | append_singleton history act ih =>
      rw [enrolled_concat, made_concat, List.map_append, ih]
      cases act.handler? with
      | none => simp
      | some handler => simp [List.range_succ]

/-! ## What an act does to the subscriptions -/

variable {use : Use}

theorem Use.step_of_stuck (hstuck : use.bus.isStuck = true) (act : Act) : use.step act = use :=
  if_pos hstuck

theorem Use.step_of_free (hfree : use.bus.isStuck = false) (act : Act) :
    use.step act = { use.perform act with dropped := use.dropped ++ use.drops act } :=
  if_neg (by simp [hfree])

theorem Use.run_of_stuck (hstuck : use.bus.isStuck = true) (acts : List Act) :
    use.run acts = use := by
  induction acts with
  | nil => rfl
  | cons act acts ih =>
      rw [run, List.foldl_cons, step_of_stuck hstuck]
      exact ih

theorem Use.isStuck_of_step {act : Act} (hafter : (use.step act).bus.isStuck = false) :
    use.bus.isStuck = false := by
  cases hstuck : use.bus.isStuck with
  | true => rw [step_of_stuck hstuck, hstuck] at hafter; contradiction
  | false => rfl

/-- A handler that cares for an event is called, unless the bus is stuck. -/
theorem call_still_eq_ite (bus : EventBus) (event : Event) (handler : Handler) :
    bus.call event (still handler) =
      if !bus.isStuck && handler.interest.covers event then
        { bus with calls := bus.calls ++ [(handler.name, event)] }
      else bus :=
  rfl

theorem call_still (bus : EventBus) (event : Event) (handler : Handler) :
    bus.call event (still handler) =
      { bus with calls := bus.calls ++ if bus.isStuck then [] else callsOf [handler] event } := by
  have hnote : (if bus.isStuck then [] else callsOf [handler] event) =
      if !bus.isStuck && handler.interest.covers event then [(handler.name, event)] else [] := by
    cases bus.isStuck with
    | true => rfl
    | false => by_cases hcovers : handler.interest.covers event = true <;> simp [hcovers, callsOf]
  rw [call_still_eq_ite, hnote]
  split
  · rfl
  · rw [List.append_nil]

@[simp] theorem lent_discard (bus : EventBus) (ids : List Nat) :
    (bus.discard ids).lent = bus.lent := by
  obtain ⟨_, _, _, _, hdiscard⟩ := bus.exists_discard ids
  rw [hdiscard]

theorem lent_pass (bus : EventBus) (id owner : Nat) : (bus.pass id owner).lent = bus.lent := by
  unfold pass
  split <;> rfl

theorem react_of_stuck {bus : EventBus} (hstuck : bus.isStuck = true) (reaction : Reaction) :
    bus.react reaction = bus := by
  cases reaction with
  | drop name => exact if_pos hstuck
  | subscribe handler => exact if_pos hstuck
  | entrust name owner =>
      simp only [react, EventBus.entrust]
      split
      · exact if_pos hstuck
      · rfl

theorem lent_react (bus : EventBus) (reaction : Reaction) :
    (bus.react reaction).lent = bus.lent := by
  cases reaction with
  | drop name => exact lent_discard _ _
  | subscribe handler =>
      simp only [react, EventBus.subscribe]
      split
      · rfl
      · exact lent_discard _ _
  | entrust name owner =>
      simp only [react, EventBus.entrust]
      split
      · exact lent_pass _ _ _
      · rfl

/-- Calling a handler only leaves a note of it. -/
theorem Use.exists_call (use : Use) (number : Nat) :
    ∃ emissions bodies calls,
      use.call number = { use with bus := { use.bus with calls }, emissions, bodies } := by
  unfold call
  split
  · rw [call_still]
    exact ⟨_, _, _, rfl⟩
  · exact ⟨_, _, _, rfl⟩

theorem Use.isStuck_call (use : Use) (number : Nat) :
    (use.call number).bus.isStuck = use.bus.isStuck := by
  obtain ⟨_, _, _, hcall⟩ := use.exists_call number
  rw [hcall]

theorem Use.perform_call_of_free {number : Nat} (hfree : (use.leave number).bus.isStuck = false) :
    use.perform (.call number) = (use.leave number).call number :=
  if_neg (by simp [hfree])

theorem Use.isStuck_perform_call (use : Use) (number : Nat) :
    (use.perform (.call number)).bus.isStuck = (use.leave number).bus.isStuck := by
  simp only [perform]
  split
  · rfl
  · exact isStuck_call _ _

theorem Use.changes_leave {number : Nat} (hkept : use.bus.Kept) (hfree : use.bus.isStuck = false)
    (hafter : (use.leave number).bus.isStuck = false) :
    use.bus.Changes (use.leave number).bus (use.leftBy number) none := by
  have hidle : use.bus.Changes use.bus [] none := hkept.changes_of_eq rfl rfl
  unfold leave leftBy at *
  cases hemission : use.emissions[number]? with
  | none => exact hidle
  | some emission =>
      obtain ⟨event, waiting, _ | id⟩ := emission
      · exact hidle
      · rw [hemission] at hafter
        exact hkept.changes_giveBack hfree hafter

theorem Use.changes_call {ids : List Nat} {bus : EventBus} {number : Nat}
    (hchanges : bus.Changes use.bus ids none) : bus.Changes (use.call number).bus ids none := by
  obtain ⟨_, _, _, hcall⟩ := use.exists_call number
  rw [hcall]
  have hkept := hchanges.kept
  exact ⟨⟨⟨hkept.ordered, hkept.below, hkept.values, hkept.names⟩, hkept.alive⟩,
    hchanges.subscriptions, hchanges.nextId⟩

theorem Use.changes_react (hkept : use.bus.Kept) (hfree : use.bus.isStuck = false)
    {reaction : Reaction} (hafter : (use.bus.react reaction).isStuck = false) :
    use.bus.Changes (use.bus.react reaction) (use.drops (.react reaction))
      (Act.react reaction).handler? := by
  cases reaction with
  | drop name => exact hkept.changes_discard hfree hafter
  | subscribe handler => exact hkept.changes_subscribe hfree hafter
  | entrust name owner =>
      simp only [react, EventBus.entrust] at hafter ⊢
      split
      next id owner hid howner =>
        refine hkept.changes_pass hfree (mem_values_of_lookup hid) (isAlive_iff.mpr (.inl ?_))
        exact hkept.mem_of_value (mem_values_of_lookup howner)
      next => exact hkept.changes_of_eq rfl rfl

/-- Unless the bus gets stuck, an act ends the subscriptions that it drops and makes at most
one. -/
theorem Use.changes_step {act : Act} (hkept : use.bus.Kept)
    (hafter : (use.step act).bus.isStuck = false) :
    use.bus.Changes (use.step act).bus (use.drops act) act.handler? := by
  have hfree := isStuck_of_step hafter
  rw [step_of_free hfree] at hafter ⊢
  cases act with
  | react reaction => exact changes_react hkept hfree hafter
  | discard id => exact hkept.changes_discard hfree hafter
  | entrust id owner =>
      simp only [perform]
      split
      next hvalid => exact hkept.changes_pass hfree hvalid.1 hvalid.2
      next => exact hkept.changes_of_eq rfl rfl
  | emit event => exact hkept.lend.changes_of_eq rfl rfl
  | call number =>
      have hleave := (use.isStuck_perform_call number).symm.trans hafter
      rw [perform_call_of_free hleave]
      exact changes_call (changes_leave hkept hfree hleave)
  | leave number => exact changes_leave hkept hfree hafter

theorem Use.leftBy_sublist (use : Use) (number : Nat) :
    (use.leftBy number).Sublist (use.bus.owned.map Prod.snd) := by
  unfold leftBy
  split
  · exact left_sublist _ _
  · exact List.nil_sublist _

/-- What is dropped is held by somebody. -/
theorem Use.drops_sublist (use : Use) (act : Act) : (use.drops act).Sublist use.bus.values := by
  have hlookup (name : String) : (use.bus.held.lookup name).toList.Sublist use.bus.values := by
    cases hid : use.bus.held.lookup name with
    | none => exact List.nil_sublist _
    | some id => exact List.singleton_sublist.mpr (mem_values_of_lookup hid)
  have hleft (number : Nat) : (use.leftBy number).Sublist use.bus.values :=
    (use.leftBy_sublist number).trans (List.sublist_append_right _ _)
  cases act with
  | react reaction =>
      cases reaction with
      | drop name => exact hlookup name
      | subscribe handler => exact hlookup handler.name
      | entrust name owner => exact List.nil_sublist _
  | discard id =>
      simp only [drops]
      split
      next hid => exact List.singleton_sublist.mpr hid
      next => exact List.nil_sublist _
  | entrust id owner => exact List.nil_sublist _
  | emit event => exact List.nil_sublist _
  | call number => exact hleft number
  | leave number => exact hleft number

theorem Use.mem_of_drops (hkept : use.bus.Kept) {act : Act} {id : Nat} (hid : id ∈ use.drops act) :
    id ∈ use.bus.subscriptions.map Prod.fst :=
  hkept.mem_of_value ((use.drops_sublist act).subset hid)

theorem Use.nodup_drops (hkept : use.bus.Kept) (act : Act) : (use.drops act).Nodup :=
  hkept.nodup_values.sublist (use.drops_sublist act)

/-! ## What is left of a history -/

/-- The subscriptions of a bus in use are those that have been made and not been dropped. -/
structure Use.Counts (use : Use) (history : List Act) : Prop where
  kept : use.bus.Kept
  nextId : use.bus.nextId = made history
  subscriptions : use.bus.subscriptions =
    (enrolled history).filter fun subscription => subscription.1 ∉ use.dropped
  /-- each number is that of a subscription, or has been dropped once -/
  numbers : (use.bus.subscriptions.map Prod.fst ++ use.dropped).Perm (List.range (made history))

variable {history : List Act}

theorem Use.Counts.lt_of_dropped (hcounts : use.Counts history) {id : Nat}
    (hid : id ∈ use.dropped) : id < made history :=
  List.mem_range.mp (hcounts.numbers.mem_iff.mp (List.mem_append_right _ hid))

theorem Use.Counts.lt_of_drops (hcounts : use.Counts history) {act : Act} {id : Nat}
    (hid : id ∈ use.drops act) : id < made history := by
  rw [← hcounts.nextId]
  exact hcounts.kept.below id (mem_of_drops hcounts.kept hid)

/-- Dropping subscriptions moves their numbers. -/
theorem Use.Counts.numbers_of_drops (hcounts : use.Counts history) (act : Act) :
    ((use.bus.subscriptions.map Prod.fst).filter (· ∉ use.drops act) ++
      (use.dropped ++ use.drops act)).Perm (List.range (made history)) := by
  have hmoved := perm_append_filter_not_mem (nodup_drops hcounts.kept act) hcounts.kept.nodup
    fun _ => mem_of_drops hcounts.kept
  rw [← List.append_assoc]
  refine List.perm_append_comm.trans ?_
  rw [← List.append_assoc]
  exact (hmoved.append_right _).trans hcounts.numbers

theorem Use.dropped_step (hfree : use.bus.isStuck = false) (act : Act) :
    (use.step act).dropped = use.dropped ++ use.drops act := by
  rw [step_of_free hfree]

theorem Use.Counts.step (hcounts : use.Counts history) {act : Act}
    (hafter : (use.step act).bus.isStuck = false) :
    (use.step act).Counts (history ++ [act]) := by
  have hchanges := changes_step hcounts.kept hafter
  have hdropped := dropped_step (isStuck_of_step hafter) act
  have hnew : made history ∉ use.dropped ++ use.drops act := fun hid =>
    (List.mem_append.mp hid).elim (fun hold => Nat.lt_irrefl _ (hcounts.lt_of_dropped hold))
      fun hnow => Nat.lt_irrefl _ (hcounts.lt_of_drops hnow)
  constructor
  · exact hchanges.kept
  · rw [hchanges.nextId, hcounts.nextId, made_concat]
  · rw [hchanges.subscriptions, hdropped, hcounts.subscriptions, hcounts.nextId, enrolled_concat,
      List.filter_append, List.filter_filter]
    congr 1
    · refine List.filter_congr fun subscription _ => ?_
      simp [Bool.and_comm]
    · refine (List.filter_eq_self.mpr fun subscription hmem => ?_).symm
      obtain ⟨handler, -, rfl⟩ := List.mem_map.mp hmem
      exact decide_eq_true hnew
  · rw [hchanges.subscriptions, hdropped, hcounts.nextId, made_concat, List.map_append,
      map_filter_fst]
    have hold := hcounts.numbers_of_drops act
    cases act.handler? with
    | none => simpa using hold
    | some handler =>
        simp only [Option.toList_some, List.map_singleton, List.length_singleton,
          List.range_succ]
        rw [List.append_assoc]
        refine (List.perm_middle.trans ?_)
        exact (hold.cons _).trans (List.perm_append_singleton _ _).symm

/-! ## Events on their way -/

/-- One of some emissions changes, and the others refer to what they did. -/
theorem exists_perm_set {emissions : List Emission} {number : Nat} {emission : Emission}
    (hemission : emissions[number]? = some emission) :
    ∃ others, (emissions.flatMap Emission.lent).Perm (emission.lent ++ others) ∧
      ∀ later, ((emissions.set number later).flatMap Emission.lent).Perm
        (later.lent ++ others) := by
  induction emissions generalizing number with
  | nil => contradiction
  | cons first emissions ih =>
      cases number with
      | zero =>
          obtain rfl : first = emission := Option.some.inj hemission
          exact ⟨emissions.flatMap Emission.lent, .refl _, fun later => .refl _⟩
      | succ number =>
          obtain ⟨others, hbefore, hafter⟩ := ih hemission
          refine ⟨first.lent ++ others, ?_, fun later => ?_⟩
          · exact (hbefore.append_left first.lent).trans (List.perm_append_comm_assoc _ _ _)
          · exact ((hafter later).append_left first.lent).trans
              (List.perm_append_comm_assoc _ _ _)

/-- What holds of the emissions of a bus in use, and of the bodies that have run. -/
structure Use.Tracks (use : Use) : Prop where
  /-- the bus refers to those handlers that an event is on its way to, as often as there are
  such events -/
  lent : use.bus.lent.Perm (use.emissions.flatMap Emission.lent)
  calls : use.bus.calls = use.bodies.map fun body => (body.subscription.2.name, body.event)
  started : ∀ body ∈ use.bodies, body.emission < use.emissions.length
  covered : ∀ body ∈ use.bodies, body.subscription.2.interest.covers body.event = true

theorem lent_giveBack {bus : EventBus} (hfree : bus.isStuck = false) (id : Nat) :
    (bus.giveBack id).lent = bus.lent.erase id := by
  rw [giveBack_of_free hfree]
  exact lent_discard _ _

theorem map_bodiesOf (number : Nat) (event : Event) (audience : List (Nat × Handler)) :
    ((bodiesOf number event audience).map fun body => (body.subscription.2.name, body.event)) =
      callsOf (audience.map Prod.snd) event := by
  simp [bodiesOf, callsOf, List.filter_map, Function.comp_def]

theorem Use.Tracks.leave (htracks : use.Tracks) (hfree : use.bus.isStuck = false)
    (number : Nat) : (use.leave number).Tracks := by
  unfold Use.leave
  split
  next event waiting id hemission =>
    constructor
    · obtain ⟨others, hbefore, hafter⟩ := exists_perm_set hemission
      have hlent := (htracks.lent.trans hbefore).erase id
      rw [lent_giveBack hfree]
      refine List.Perm.trans ?_ (hafter _).symm
      simpa [Emission.lent] using hlent
    · exact (calls_giveBack _ _).trans htracks.calls
    · exact fun body hbody => (htracks.started body hbody).trans_eq List.length_set.symm
    · exact htracks.covered
  next => exact htracks

theorem Use.Tracks.call (htracks : use.Tracks) (hfree : use.bus.isStuck = false)
    (number : Nat) : (use.call number).Tracks := by
  unfold Use.call
  split
  next event subscription waiting hemission =>
    rw [call_still]
    constructor
    · obtain ⟨others, hbefore, hafter⟩ := exists_perm_set hemission
      refine (htracks.lent.trans hbefore).trans (.trans ?_ (hafter _).symm)
      exact .refl _
    · rw [List.map_append, map_bodiesOf, ← htracks.calls, hfree]
      rfl
    · refine List.forall_mem_append.mpr ⟨fun body hbody => ?_, fun body hbody => ?_⟩
      · exact (htracks.started body hbody).trans_eq List.length_set.symm
      · obtain ⟨_, -, rfl⟩ := List.mem_map.mp hbody
        exact (List.getElem?_eq_some_iff.mp hemission).1.trans_eq List.length_set.symm
    · refine List.forall_mem_append.mpr ⟨htracks.covered, fun body hbody => ?_⟩
      obtain ⟨_, hcovers, rfl⟩ := List.mem_map.mp hbody
      exact (List.mem_filter.mp hcovers).2
  next => exact htracks

/-- Changes of the subscriptions leave the emissions alone. -/
theorem Use.Tracks.change (htracks : use.Tracks) {bus : EventBus}
    (hlent : bus.lent = use.bus.lent) (hcalls : bus.calls = use.bus.calls) (dropped : List Nat) :
    Use.Tracks { use with bus, dropped } :=
  ⟨hlent ▸ htracks.lent, hcalls.trans htracks.calls, htracks.started, htracks.covered⟩

theorem Use.Tracks.emit (htracks : use.Tracks) (event : Event) (dropped : List Nat) :
    Use.Tracks
      { use with
        bus := use.bus.lend
        emissions := use.emissions ++ [⟨event, use.bus.subscriptions, none⟩]
        dropped } := by
  constructor
  · rw [List.flatMap_append]
    refine (htracks.lent.append_left _).trans (List.perm_append_comm.trans ?_)
    simp [Emission.lent]
  · exact htracks.calls
  · intro body hbody
    rw [List.length_append]
    exact Nat.lt_add_right _ (htracks.started body hbody)
  · exact htracks.covered

theorem Use.Tracks.step (htracks : use.Tracks) {act : Act}
    (hafter : (use.step act).bus.isStuck = false) : (use.step act).Tracks := by
  have hfree := isStuck_of_step hafter
  rw [step_of_free hfree] at hafter ⊢
  cases act with
  | react reaction => exact htracks.change (lent_react _ _) (calls_react _ _) _
  | discard id => exact htracks.change (lent_discard _ _) (calls_discard _ _) _
  | entrust id owner =>
      simp only [perform]
      split
      · exact htracks.change (lent_pass _ _ _) (calls_pass _ _ _) _
      · exact htracks.change rfl rfl _
  | emit event => exact htracks.emit event _
  | call number =>
      have hleave := (use.isStuck_perform_call number).symm.trans hafter
      rw [perform_call_of_free hleave]
      exact ((htracks.leave hfree number).call hleave number).change rfl rfl _
  | leave number => exact (htracks.leave hfree number).change rfl rfl _

theorem Use.length_emissions_leave (use : Use) (number : Nat) :
    (use.leave number).emissions.length = use.emissions.length := by
  unfold leave
  split
  · exact List.length_set
  · rfl

theorem Use.length_emissions_call (use : Use) (number : Nat) :
    (use.call number).emissions.length = use.emissions.length := by
  unfold call
  split
  · exact List.length_set
  · rfl

theorem Use.length_emissions_step (hfree : use.bus.isStuck = false) (act : Act) :
    (use.step act).emissions.length = use.emissions.length + emitted [act] := by
  rw [step_of_free hfree]
  cases act with
  | react reaction => rfl
  | discard id => rfl
  | entrust id owner =>
      simp only [perform]
      split <;> rfl
  | emit event => exact List.length_append
  | call number =>
      simp only [perform]
      split
      · exact use.length_emissions_leave number
      · exact (length_emissions_call _ _).trans (use.length_emissions_leave number)
  | leave number => exact use.length_emissions_leave number

/-- What a bus in use has come to by its history. -/
structure Use.Sound (use : Use) (history : List Act) : Prop where
  counts : use.Counts history
  tracks : use.Tracks
  emissions : use.emissions.length = emitted history

theorem Use.Sound.step (hsound : use.Sound history) {act : Act}
    (hafter : (use.step act).bus.isStuck = false) : (use.step act).Sound (history ++ [act]) := by
  refine ⟨hsound.counts.step hafter, hsound.tracks.step hafter, ?_⟩
  rw [length_emissions_step (isStuck_of_step hafter), hsound.emissions, emitted, emitted, emitted,
    List.countP_append]

theorem sound_used (history : List Act) (hfree : (used history).bus.isStuck = false) :
    (used history).Sound history := by
  induction history using List.reverseRecOn with
  | nil =>
      refine ⟨⟨kept_empty, rfl, rfl, .refl _⟩, ⟨.refl _, rfl, ?_, ?_⟩, rfl⟩
      · exact List.forall_mem_nil _
      · exact List.forall_mem_nil _
  | append_singleton history act ih =>
      rw [used_concat] at hfree ⊢
      exact (ih (Use.isStuck_of_step hfree)).step hfree

/-! ## Getting stuck -/

theorem Use.Sound.mem_lent_iff (hsound : use.Sound history) {id : Nat} :
    id ∈ use.bus.lent ↔ use.Refers id := by
  rw [hsound.tracks.lent.mem_iff, List.mem_flatMap, Refers]

/-- A handler that leaves something has no subscription any more, so none is ended with it. -/
theorem Kept.ne_of_mem_left {bus : EventBus} (hkept : bus.Kept) {id inner : Nat}
    (hinner : inner ∈ (bus.release id).left id) : inner ≠ id := by
  rintro rfl
  obtain ⟨hgone, howns⟩ := mem_left.mp hinner
  have hvalue : inner ∈ bus.values := List.mem_append_right _ (List.mem_map_of_mem howns)
  have halive : (bus.release inner).isAlive inner = true :=
    isAlive_iff.mpr (.inl (hkept.mem_of_value hvalue))
  rw [hgone] at halive
  contradiction

theorem Kept.isStuck_giveBack {bus : EventBus} (hkept : bus.Kept) (hfree : bus.isStuck = false)
    (id : Nat) :
    (bus.giveBack id).isStuck = true ↔ ∃ inner ∈ (bus.release id).left id, inner ∉ bus.lent ∧
      ∃ other ∉ (bus.release id).left id, (inner, other) ∈ bus.owned := by
  have hreleased : (bus.release id).isStuck = false := hfree
  rw [giveBack_of_free hfree, isStuck_discard hreleased]
  refine exists_congr fun inner => and_congr_right fun hinner => and_congr_left fun _ => ?_
  exact not_congr (List.mem_erase_of_ne (hkept.ne_of_mem_left hinner))

theorem Use.isStuck_leave (hkept : use.bus.Kept) (hfree : use.bus.isStuck = false) (number : Nat) :
    (use.leave number).bus.isStuck = true ↔ ∃ id ∈ use.leftBy number, id ∉ use.bus.lent ∧
      ∃ inner ∉ use.leftBy number, (id, inner) ∈ use.bus.owned := by
  unfold leave leftBy
  cases use.emissions[number]? with
  | none => simp [hfree]
  | some emission =>
      obtain ⟨event, waiting, _ | id⟩ := emission
      · simp [hfree]
      · exact hkept.isStuck_giveBack hfree id

theorem Use.isStuck_step (hkept : use.bus.Kept) (hfree : use.bus.isStuck = false) (act : Act) :
    (use.step act).bus.isStuck = true ↔ ∃ id ∈ use.drops act, id ∉ use.bus.lent ∧
      ∃ inner ∉ use.drops act, (id, inner) ∈ use.bus.owned := by
  rw [step_of_free hfree]
  -- What drops nothing leaves the lock alone.
  have hnothing {bus : EventBus} (hsame : bus.isStuck = use.bus.isStuck) :
      bus.isStuck = true ↔ ∃ id ∈ ([] : List Nat), id ∉ use.bus.lent ∧
        ∃ inner ∉ ([] : List Nat), (id, inner) ∈ use.bus.owned := by
    simp [hsame, hfree]
  cases act with
  | react reaction =>
      cases reaction with
      | drop name => exact isStuck_discard hfree _
      | subscribe handler =>
          simp only [perform, react, isStuck_subscribe hfree]
          exact isStuck_discard hfree _
      | entrust name owner =>
          refine hnothing ?_
          simp only [perform, react, EventBus.entrust]
          split
          · exact isStuck_pass _ _ _
          · rfl
  | discard id => exact isStuck_discard hfree _
  | entrust id owner =>
      refine hnothing ?_
      simp only [perform]
      split
      · exact isStuck_pass _ _ _
      · rfl
  | emit event => exact hnothing rfl
  | call number =>
      simp only [isStuck_perform_call]
      exact isStuck_leave hkept hfree number
  | leave number => exact isStuck_leave hkept hfree number

theorem Use.Sound.isStuck_step_iff (hsound : use.Sound history) (hfree : use.bus.isStuck = false)
    (act : Act) : (use.step act).bus.isStuck = true ↔ use.Wedges act := by
  rw [isStuck_step hsound.counts.kept hfree]
  refine exists_congr fun id => and_congr_right fun _ => and_congr_left fun _ => ?_
  exact not_congr hsound.mem_lent_iff

theorem used_append (history later : List Act) :
    used (history ++ later) = (used history).run later :=
  List.foldl_append

/-- The bus is stuck from the first act on that ends the subscription of a handler that owns
another one and that nobody else refers to. -/
theorem isStuck_used_iff (history : List Act) :
    (used history).bus.isStuck = true ↔ ∃ before act after, history = before ++ act :: after ∧
      (used before).bus.isStuck = false ∧ (used before).Wedges act := by
  constructor
  · intro hstuck
    induction history using List.reverseRecOn with
    | nil => contradiction
    | append_singleton history act ih =>
        rw [used_concat] at hstuck
        cases hfree : (used history).bus.isStuck with
        | true =>
            obtain ⟨before, first, after, rfl, hbefore, hwedges⟩ := ih hfree
            exact ⟨before, first, after ++ [act], by simp, hbefore, hwedges⟩
        | false =>
            have hsound := sound_used history hfree
            exact ⟨history, act, [], rfl, hfree, (hsound.isStuck_step_iff hfree act).mp hstuck⟩
  · rintro ⟨before, act, after, rfl, hfree, hwedges⟩
    have hsound := sound_used before hfree
    have hstuck : ((used before).step act).bus.isStuck = true :=
      (hsound.isStuck_step_iff hfree act).mpr hwedges
    have hrest : used (before ++ act :: after) = (used before).step act :=
      (used_append before (act :: after)).trans (Use.run_of_stuck hstuck after)
    rw [hrest, hstuck]

theorem owned_without_subset (bus : EventBus) (ids : List Nat) :
    (bus.without ids).owned ⊆ bus.owned :=
  List.filter_subset_self _

theorem Use.owned_leave_subset {number : Nat} (hfree : use.bus.isStuck = false)
    (hafter : (use.leave number).bus.isStuck = false) :
    (use.leave number).bus.owned ⊆ use.bus.owned := by
  unfold leave at hafter ⊢
  split at hafter
  · rw [giveBack_eq hfree hafter]
    exact owned_without_subset _ _
  · exact List.Subset.refl _

theorem Use.owned_step_subset (hkept : use.bus.Kept) {act : Act} (hnone : act.entrusts = false)
    (hafter : (use.step act).bus.isStuck = false) :
    (use.step act).bus.owned ⊆ use.bus.owned := by
  have hfree := isStuck_of_step hafter
  rw [step_of_free hfree] at hafter ⊢
  cases act with
  | react reaction =>
      cases reaction with
      | drop name =>
          simp only [perform, react, EventBus.drop] at hafter ⊢
          rw [discard_of_free hfree hafter]
          exact owned_without_subset _ _
      | subscribe handler =>
          simp only [perform, react] at hafter ⊢
          rw [hkept.subscribe_eq hfree hafter]
          exact owned_without_subset _ _
      | entrust name owner => contradiction
  | discard id =>
      simp only [perform] at hafter ⊢
      rw [discard_of_free hfree hafter]
      exact owned_without_subset _ _
  | entrust id owner => contradiction
  | emit event => exact List.Subset.refl _
  | call number =>
      have hleave := (use.isStuck_perform_call number).symm.trans hafter
      obtain ⟨_, _, _, hcall⟩ := (use.leave number).exists_call number
      rw [perform_call_of_free hleave, hcall]
      exact owned_leave_subset hfree hleave
  | leave number => exact owned_leave_subset hfree hafter

theorem owned_used_of_none {history : List Act} (hnone : ∀ act ∈ history, act.entrusts = false)
    (hfree : (used history).bus.isStuck = false) : (used history).bus.owned = [] := by
  induction history using List.reverseRecOn with
  | nil => rfl
  | append_singleton history act ih =>
      obtain ⟨hbefore, hlast⟩ := List.forall_mem_append.mp hnone
      rw [used_concat] at hfree ⊢
      have hstill := Use.isStuck_of_step hfree
      have howned := Use.owned_step_subset (sound_used history hstill).counts.kept
        (hlast act List.mem_cons_self) hfree
      rw [ih hbefore hstill] at howned
      exact List.subset_nil.mp howned

/-- As long as handlers own nothing, the bus does not get stuck. -/
theorem isStuck_used_of_none {history : List Act}
    (hnone : ∀ act ∈ history, act.entrusts = false) : (used history).bus.isStuck = false := by
  rw [← Bool.not_eq_true, isStuck_used_iff]
  rintro ⟨before, act, after, rfl, hfree, id, -, -, inner, -, howns⟩
  rw [owned_used_of_none (List.forall_mem_append.mp hnone).1 hfree] at howns
  contradiction

end EventBus

end Muster
