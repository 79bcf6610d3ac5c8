import Muster.Proofs.Client.Subscriptions

/-!
# Events go to those who are subscribed when they come up

Whom an event goes to is settled when it comes up: each of the handlers subscribed then is
called once, in the order of their subscriptions, whatever happens to the subscriptions
meanwhile.  This holds as long as the bus is not stuck, and so throughout if handlers own no
subscriptions.
-/

namespace Muster

namespace EventBus

/-! ## One event on its way -/

/-- The bodies that have run because of one event. -/
def Use.bodiesIn (use : Use) (number : Nat) : List Body :=
  use.bodies.filter fun body => body.emission = number

/-- The first of those who were subscribed when an event came up have been called. -/
structure Use.HandsOut (use : Use) (number : Nat) (event : Event)
    (audience : List (Nat × Handler)) (called : Nat) : Prop where
  emission : ∃ running, use.emissions[number]? = some ⟨event, audience.drop called, running⟩
  bodies : use.bodiesIn number = bodiesOf number event (audience.take called)

variable {use : Use} {history : List Act} {number called : Nat} {event : Event}
  {audience : List (Nat × Handler)}

theorem Use.Sound.handsOut (hsound : use.Sound history) (hfree : use.bus.isStuck = false)
    (event : Event) :
    (use.step (.emit event)).HandsOut (emitted history) event use.bus.subscriptions 0 := by
  rw [step_of_free hfree]
  constructor
  · refine ⟨none, ?_⟩
    simp [perform, ← hsound.emissions]
  · rw [List.take_zero, bodiesIn, List.filter_eq_nil_iff.mpr]
    · rfl
    · intro body hbody
      rw [decide_eq_true_eq, ← hsound.emissions]
      exact Nat.ne_of_lt (hsound.tracks.started body hbody)

theorem bodiesOf_append (number : Nat) (event : Event) (audience others : List (Nat × Handler)) :
    bodiesOf number event (audience ++ others) =
      bodiesOf number event audience ++ bodiesOf number event others := by
  simp [bodiesOf]

theorem filter_bodiesOf (number other : Nat) (event : Event) (audience : List (Nat × Handler)) :
    (bodiesOf number event audience).filter (fun body => body.emission = other) =
      if number = other then bodiesOf number event audience else [] := by
  split
  next hsame =>
    refine List.filter_eq_self.mpr fun body hbody => ?_
    obtain ⟨_, -, rfl⟩ := List.mem_map.mp hbody
    exact decide_eq_true hsame
  next hother =>
    refine List.filter_eq_nil_iff.mpr fun body hbody => ?_
    obtain ⟨_, -, rfl⟩ := List.mem_map.mp hbody
    rwa [decide_eq_true_eq]

/-- When the handler called last is done, nobody runs for the emission, and nothing else about
the emissions changes. -/
theorem Use.getElem?_emissions_leave (use : Use) (number other : Nat) :
    (use.leave other).emissions[number]? = use.emissions[number]?.map fun emission =>
      if other = number then { emission with running := none } else emission := by
  by_cases hsame : other = number
  · subst hsame
    simp only [if_true, leave]
    cases hemission : use.emissions[other]? with
    | none => exact hemission
    | some emission =>
        obtain ⟨event, waiting, _ | id⟩ := emission
        · exact hemission
        · exact List.getElem?_set_self (List.getElem?_eq_some_iff.mp hemission).1
  · simp only [if_neg hsame, Option.map_id', leave]
    split
    · exact List.getElem?_set_ne hsame
    · rfl

theorem Use.bodies_leave (use : Use) (number : Nat) : (use.leave number).bodies = use.bodies := by
  unfold leave
  split <;> rfl

theorem Use.HandsOut.leave (hout : use.HandsOut number event audience called) (other : Nat) :
    (use.leave other).HandsOut number event audience called := by
  obtain ⟨running, hemission⟩ := hout.emission
  constructor
  · rw [getElem?_emissions_leave, hemission, Option.map_some]
    split
    · exact ⟨none, rfl⟩
    · exact ⟨running, rfl⟩
  · rw [bodiesIn, bodies_leave]
    exact hout.bodies

theorem Use.HandsOut.call (hout : use.HandsOut number event audience called)
    (hidle : use.emissions[number]? = some ⟨event, audience.drop called, none⟩) :
    (use.call number).HandsOut number event audience (called + 1) := by
  have hrest : audience.drop (called + 1) = (audience.drop called).drop 1 :=
    List.drop_drop.symm
  have hdone : audience.take (called + 1) = audience.take called ++ (audience.drop called).take 1 :=
    List.take_add
  simp only [Use.call, hidle]
  cases hwaiting : audience.drop called with
  | nil =>
      rw [hwaiting] at hrest hdone
      constructor
      · refine ⟨none, ?_⟩
        rw [hrest, hidle, hwaiting]
        rfl
      · rw [hdone, List.take_nil, List.append_nil]
        exact hout.bodies
  | cons subscription waiting =>
      rw [hwaiting] at hrest hdone
      constructor
      · refine ⟨some subscription.1, ?_⟩
        rw [hrest]
        exact List.getElem?_set_self (List.getElem?_eq_some_iff.mp hidle).1
      · rw [hdone, bodiesOf_append, ← hout.bodies, bodiesIn, List.filter_append, filter_bodiesOf,
          if_pos rfl]
        rfl

theorem Use.HandsOut.call_of_ne (hout : use.HandsOut number event audience called)
    {other : Nat} (hother : other ≠ number) :
    (use.call other).HandsOut number event audience called := by
  simp only [Use.call]
  split
  next =>
    constructor
    · rw [List.getElem?_set_ne hother]
      exact hout.emission
    · rw [bodiesIn, List.filter_append, filter_bodiesOf, if_neg hother, List.append_nil]
      exact hout.bodies
  next => exact hout

/-- What becomes of the subscriptions makes no difference to an event on its way. -/
theorem Use.HandsOut.change (hout : use.HandsOut number event audience called) (bus : EventBus)
    (dropped : List Nat) :
    Use.HandsOut { use with bus, dropped } number event audience called :=
  ⟨hout.emission, hout.bodies⟩

theorem Use.HandsOut.step (hout : use.HandsOut number event audience called) {act : Act}
    (hafter : (use.step act).bus.isStuck = false) :
    (use.step act).HandsOut number event audience
      (if act.calls number then called + 1 else called) := by
  have hfree := isStuck_of_step hafter
  obtain ⟨running, hemission⟩ := hout.emission
  rw [step_of_free hfree] at hafter ⊢
  cases act with
  | react reaction => exact hout.change _ _
  | discard id => exact hout.change _ _
  | entrust id owner =>
      simp only [perform]
      split <;> exact hout.change _ _
  | emit other =>
      refine ⟨⟨running, ?_⟩, hout.bodies⟩
      exact (List.getElem?_append_left (List.getElem?_eq_some_iff.mp hemission).1).trans hemission
  | call other =>
      have hleave := (use.isStuck_perform_call other).symm.trans hafter
      rw [perform_call_of_free hleave]
      by_cases hsame : other = number
      · subst hsame
        have hidle : (use.leave other).emissions[other]? =
            some ⟨event, audience.drop called, none⟩ := by
          rw [getElem?_emissions_leave, hemission]
          simp
        rw [if_pos (by simp [Act.calls])]
        exact ((hout.leave other).call hidle).change _ _
      · rw [if_neg (by simp [Act.calls, hsame])]
        exact ((hout.leave other).call_of_ne hsame).change _ _
  | leave other => exact (hout.leave other).change _ _

theorem Use.run_concat (use : Use) (acts : List Act) (act : Act) :
    use.run (acts ++ [act]) = (use.run acts).step act :=
  List.foldl_concat ..

/-- Whatever else happens, each call gets to the next one of those who were subscribed when the
event came up. -/
theorem Use.HandsOut.run (hout : use.HandsOut number event audience called) {acts : List Act}
    (hafter : (use.run acts).bus.isStuck = false) :
    (use.run acts).HandsOut number event audience
      (called + acts.countP (Act.calls number)) := by
  induction acts using List.reverseRecOn with
  | nil => exact hout
  | append_singleton acts act ih =>
      rw [run_concat] at hafter ⊢
      have hlater := (ih (isStuck_of_step hafter)).step hafter
      rw [List.countP_append, List.countP_singleton]
      by_cases hcalls : act.calls number = true
      · rw [if_pos hcalls] at hlater ⊢
        exact hlater
      · rw [if_neg hcalls] at hlater ⊢
        exact hlater

/-! ## Handlers that are called one after the other -/

/-- A handler is called, does at once all that it does, and is done. -/
def calling (number : Nat) (event : Event) (handler : Handler) : List Act :=
  .call number :: (if handler.interest.covers event then handler.reactions else []).map .react ++
    [.leave number]

def atOnce (number : Nat) (event : Event) (handlers : List Handler) : List Act :=
  handlers.flatMap (calling number event)

theorem Use.run_append (use : Use) (acts others : List Act) :
    use.run (acts ++ others) = (use.run acts).run others :=
  List.foldl_append

theorem countP_calling (number : Nat) (event : Event) (handler : Handler) :
    (calling number event handler).countP (Act.calls number) = 1 := by
  simp [calling, Act.calls, List.countP_map, Function.comp_def]

theorem countP_atOnce (number : Nat) (event : Event) (handlers : List Handler) :
    (atOnce number event handlers).countP (Act.calls number) = handlers.length := by
  induction handlers with
  | nil => rfl
  | cons handler handlers ih =>
      rw [atOnce, List.flatMap_cons, List.countP_append, countP_calling, ← atOnce, ih,
        List.length_cons, Nat.add_comm]

theorem foldl_react_of_stuck {bus : EventBus} (hstuck : bus.isStuck = true)
    (reactions : List Reaction) : reactions.foldl react bus = bus := by
  induction reactions with
  | nil => rfl
  | cons reaction reactions ih => rw [List.foldl_cons, react_of_stuck hstuck, ih]

/-- A handler that cares for an event is called, and does what it does after that. -/
theorem call_eq_foldl (bus : EventBus) (event : Event) (handler : Handler) :
    bus.call event handler =
      (if handler.interest.covers event then handler.reactions else []).foldl EventBus.react
        (bus.call event (still handler)) := by
  rw [call_still_eq_ite]
  unfold EventBus.call
  cases hstuck : bus.isStuck with
  | true => exact (foldl_react_of_stuck hstuck _).symm
  | false =>
      cases handler.interest.covers event with
      | true => rfl
      | false => rfl

theorem serve_of_stuck {bus : EventBus} (hstuck : bus.isStuck = true)
    (subscription : Nat × Handler) : serve event bus subscription = bus := by
  have hcall : bus.call event subscription.2 = bus := if_neg (by simp [hstuck])
  rw [serve, hcall, giveBack_of_stuck hstuck]

theorem foldl_serve_of_stuck {bus : EventBus} (hstuck : bus.isStuck = true)
    (audience : List (Nat × Handler)) : audience.foldl (serve event) bus = bus := by
  induction audience with
  | nil => rfl
  | cons subscription audience ih => rw [List.foldl_cons, serve_of_stuck hstuck, ih]

theorem Use.bus_step_react (use : Use) (reaction : Reaction) :
    (use.step (.react reaction)).bus = use.bus.react reaction := by
  unfold step
  split
  next hstuck => exact (react_of_stuck hstuck reaction).symm
  next => rfl

theorem Use.run_reactions (use : Use) (reactions : List Reaction) :
    (use.run (reactions.map .react)).bus = reactions.foldl EventBus.react use.bus ∧
      (use.run (reactions.map .react)).emissions = use.emissions := by
  induction reactions generalizing use with
  | nil => exact ⟨rfl, rfl⟩
  | cons reaction reactions ih =>
      obtain ⟨hbus, hemissions⟩ := ih (use.step (.react reaction))
      rw [bus_step_react] at hbus
      refine ⟨hbus, hemissions.trans ?_⟩
      unfold step
      split <;> rfl

theorem Use.step_leave {waiting : List (Nat × Handler)} {id : Nat}
    (hemission : use.emissions[number]? = some ⟨event, waiting, some id⟩) :
    (use.step (.leave number)).bus = use.bus.giveBack id ∧
      ((use.step (.leave number)).bus.isStuck = false →
        (use.step (.leave number)).emissions[number]? = some ⟨event, waiting, none⟩) := by
  cases hstuck : use.bus.isStuck with
  | true =>
      rw [step_of_stuck hstuck]
      refine ⟨(giveBack_of_stuck hstuck id).symm, fun hfree => ?_⟩
      rw [hstuck] at hfree
      contradiction
  | false =>
      have hset := @List.getElem?_set_self _ use.emissions number ⟨event, waiting, none⟩
        (List.getElem?_eq_some_iff.mp hemission).1
      rw [step_of_free hstuck]
      simpa only [perform, leave, hemission, true_and] using fun _ => hset

/-- A handler that is called and then does all that it does has been served. -/
theorem Use.run_calling {subscription : Nat × Handler} {waiting : List (Nat × Handler)}
    (hemission : use.emissions[number]? = some ⟨event, subscription :: waiting, none⟩) :
    let later := use.run (calling number event subscription.2)
    later.bus = serve event use.bus subscription ∧
      (later.bus.isStuck = false → later.emissions[number]? = some ⟨event, waiting, none⟩) := by
  intro later
  cases hstuck : use.bus.isStuck with
  | true =>
      have hlater : later = use := run_of_stuck hstuck _
      rw [hlater]
      refine ⟨(serve_of_stuck hstuck subscription).symm, fun hfree => ?_⟩
      rw [hstuck] at hfree
      contradiction
  | false =>
      let called := use.step (.call number)
      have hidle : use.leave number = use := by
        unfold leave
        rw [hemission]
      have hcalled : called.bus = use.bus.call event (still subscription.2) ∧
          called.emissions[number]? = some ⟨event, waiting, some subscription.1⟩ := by
        have hset := @List.getElem?_set_self _ use.emissions number
          ⟨event, waiting, some subscription.1⟩ (List.getElem?_eq_some_iff.mp hemission).1
        simp only [called, step_of_free hstuck]
        rw [perform_call_of_free (by rw [hidle, hstuck]), hidle]
        simpa only [call, hemission, true_and] using hset
      let reactions :=
        if subscription.2.interest.covers event then subscription.2.reactions else []
      have hlater : later = (called.run (reactions.map .react)).step (.leave number) :=
        called.run_concat (reactions.map .react) (.leave number)
      obtain ⟨hbus, hemissions⟩ := called.run_reactions reactions
      rw [← hemissions] at hcalled
      have hleft := step_leave hcalled.2
      rw [hbus, hcalled.1, ← call_eq_foldl] at hleft
      rw [hlater]
      exact hleft

/-- An event that nothing else comes between is handed out as a whole. -/
theorem Use.bus_run_atOnce {waiting : List (Nat × Handler)}
    (hemission : use.emissions[number]? = some ⟨event, waiting, none⟩) :
    (use.run (atOnce number event (waiting.map Prod.snd))).bus =
      waiting.foldl (serve event) use.bus := by
  induction waiting generalizing use with
  | nil => rfl
  | cons subscription waiting ih =>
      obtain ⟨hbus, hrest⟩ := run_calling hemission
      rw [List.map_cons, List.foldl_cons, atOnce, List.flatMap_cons, run_append, ← hbus]
      cases hstuck : (use.run (calling number event subscription.2)).bus.isStuck with
      | true => rw [run_of_stuck hstuck, foldl_serve_of_stuck hstuck]
      | false => exact ih (hrest hstuck)

/-! ## Whole histories -/

theorem isStuck_of_used_append {later : List Act}
    (hfree : (used (history ++ later)).bus.isStuck = false) :
    (used history).bus.isStuck = false := by
  cases hstuck : (used history).bus.isStuck with
  | true =>
      rw [used_append, Use.run_of_stuck hstuck, hstuck] at hfree
      contradiction
  | false => rfl

/-- Whoever is subscribed later was so before, or subscribes meanwhile. -/
theorem mem_subscriptions_append {subscription : Nat × Handler} {later : List Act}
    (hfree : (used (history ++ later)).bus.isStuck = false)
    (hmem : subscription ∈ (used (history ++ later)).bus.subscriptions) :
    subscription ∈ (used history).bus.subscriptions ∨ made history ≤ subscription.1 := by
  induction later using List.reverseRecOn with
  | nil => exact .inl (by simpa using hmem)
  | append_singleton later act ih =>
      rw [← List.append_assoc] at hfree hmem
      have hbefore := isStuck_of_used_append hfree
      have hsound := sound_used (history ++ later) hbefore
      rw [used_concat] at hfree hmem
      rw [(Use.changes_step hsound.counts.kept hfree).subscriptions] at hmem
      rcases List.mem_append.mp hmem with hold | hnew
      · exact ih hbefore (List.mem_filter.mp hold).1
      · obtain ⟨handler, -, rfl⟩ := List.mem_map.mp hnew
        right
        rw [hsound.counts.nextId, made_append]
        exact Nat.le_add_right _ _

theorem handsOut_used {before : List Act} {event : Event} {after : List Act}
    (hfree : (used (before ++ .emit event :: after)).bus.isStuck = false) :
    (used (before ++ .emit event :: after)).HandsOut (emitted before) event
      (used before).bus.subscriptions (after.countP (Act.calls (emitted before))) := by
  have hbefore := isStuck_of_used_append hfree
  have hstart := (sound_used before hbefore).handsOut hbefore event
  rw [used_append] at hfree ⊢
  have hrun := @Use.HandsOut.run _ _ _ _ _ hstart after hfree
  rw [Nat.zero_add] at hrun
  exact hrun

/-- To emit an event is to have it come up and to call everyone for it. -/
theorem used_atOnce (history : List Act) (event : Event) :
    let later := atOnce (emitted history) event ((used history).bus.subscriptions.map Prod.snd)
    (used (history ++ .emit event :: later)).bus = (used history).bus.emit event := by
  intro later
  rw [used_append]
  cases hstuck : (used history).bus.isStuck with
  | true =>
      rw [Use.run_of_stuck hstuck, emit, if_pos hstuck]
  | false =>
      have hemission : ((used history).step (.emit event)).emissions[emitted history]? =
          some ⟨event, (used history).bus.subscriptions, none⟩ := by
        rw [Use.step_of_free hstuck]
        simp [Use.perform, ← (sound_used history hstuck).emissions]
      rw [emit, if_neg (by simp [hstuck])]
      refine (Use.bus_run_atOnce hemission).trans ?_
      rw [Use.step_of_free hstuck]
      rfl

/-- A bus whose events are each handed out at once is a bus in use. -/
theorem exists_used (deeds : List (Reaction ⊕ Event)) :
    ∃ history, (used history).bus =
      deeds.foldl (fun bus => Sum.elim bus.react bus.emit) empty := by
  induction deeds using List.reverseRecOn with
  | nil => exact ⟨[], rfl⟩
  | append_singleton deeds deed ih =>
      obtain ⟨history, hbus⟩ := ih
      rw [List.foldl_append, ← hbus]
      cases deed with
      | inl reaction =>
          refine ⟨history ++ [.react reaction], ?_⟩
          rw [used_concat]
          exact Use.bus_step_react _ _
      | inr event => exact ⟨_, used_atOnce history event⟩

theorem exists_view_of_covers {event : Event} (hcovers : Interest.views.covers event = true) :
    ∃ view, event = .view view := by
  cases event with
  | view view => exact ⟨view, rfl⟩
  | message => contradiction

theorem exists_message_of_covers {event : Event} (hcovers : Interest.messages.covers event = true) :
    ∃ envelope, event = .message envelope := by
  cases event with
  | view => contradiction
  | message envelope => exact ⟨envelope, rfl⟩

/-- The numbers of a machine tell subscriptions apart as long as it has not run out of them. -/
theorem eq_of_toUInt64_eq (hfits : made history ≤ UInt64.size) {id other : Nat}
    (hid : id < made history) (hother : other < made history)
    (hsame : id.toUInt64 = other.toUInt64) : id = other := by
  have hvalue (number : Nat) (hnumber : number < made history) :
      number.toUInt64.toNat = number :=
    UInt64.toNat_ofNat_of_lt' (Nat.lt_of_lt_of_le hnumber hfits)
  rw [← hvalue id hid, hsame, hvalue other hother]

/-- What a history of a bus comes to. -/
structure Exact (history : List Act) : Prop where
  /-- the subscriptions are those that have been made and that nobody has dropped -/
  subscriptions : (used history).bus.subscriptions =
    (enrolled history).filter fun subscription => subscription.1 ∉ (used history).dropped
  size : (used history).bus.size + (used history).dropped.length = made history
  ordered : ((used history).bus.subscriptions.map Prod.fst).Pairwise (· < ·)
  /-- each of them is held by exactly one holder -/
  values : (used history).bus.values.Perm ((used history).bus.subscriptions.map Prod.fst)
  /-- an act ends the subscriptions that it drops and no others -/
  changed : ∀ act, (used (history ++ [act])).bus.isStuck = false →
    (used (history ++ [act])).bus.subscriptions =
      ((used history).bus.subscriptions.filter fun subscription =>
        subscription.1 ∉ (used history).drops act) ++
          act.handler?.toList.map (made history, ·)
  /-- what a name holds is the subscription made last under it -/
  named : ∀ handler, (used (history ++ [.react (.subscribe handler)])).bus.isStuck = false →
    (used (history ++ [.react (.subscribe handler)])).bus.held.lookup handler.name =
      some (made history)
  /-- what is entrusted to a handler that is there is owned by it -/
  entrusted : ∀ id ∈ (used history).bus.values, ∀ owner, (used history).bus.isAlive owner = true →
    (owner, id) ∈ (used (history ++ [.entrust id owner])).bus.owned
  /-- one that has ended is never there again, and new ones have new numbers -/
  ended : ∀ later, (used (history ++ later)).bus.isStuck = false →
    ∀ subscription ∈ (used (history ++ later)).bus.subscriptions,
      subscription ∈ (used history).bus.subscriptions ∨ made history ≤ subscription.1
  /-- no two of all that have ever been made have one number, as machines count -/
  apart : made history ≤ UInt64.size → ∀ subscription ∈ enrolled history,
    ∀ other ∈ enrolled history, subscription.1.toUInt64 = other.1.toUInt64 →
      subscription.1 = other.1
  /-- the calls made because of an event go, one after the other, to those who were
  subscribed when it came up -/
  handedOut : ∀ before event after, history = before ++ .emit event :: after →
    (used history).bodiesIn (emitted before) =
      bodiesOf (emitted before) event
        ((used before).bus.subscriptions.take (after.countP (Act.calls (emitted before))))
  /-- none of them has subscribed since -/
  earlier : ∀ before event after, history = before ++ .emit event :: after →
    ∀ body ∈ (used history).bodiesIn (emitted before),
      body.subscription ∈ (used before).bus.subscriptions ∧ body.subscription.1 < made before
  kinds : ∀ body ∈ (used history).bodies,
    (body.subscription.2.interest = .views → ∃ view, body.event = .view view) ∧
      (body.subscription.2.interest = .messages → ∃ envelope, body.event = .message envelope)
  calls : (used history).bus.calls =
    (used history).bodies.map fun body => (body.subscription.2.name, body.event)
  /-- to emit an event is to have it come up and to call everyone for it -/
  emit : ∀ event,
    let later := atOnce (emitted history) event ((used history).bus.subscriptions.map Prod.snd)
    (used (history ++ .emit event :: later)).bus = (used history).bus.emit event ∧
      ((used (history ++ .emit event :: later)).bus.isStuck = false →
        (used (history ++ .emit event :: later)).bodiesIn (emitted history) =
          bodiesOf (emitted history) event (used history).bus.subscriptions)

theorem exact_of_free (hfree : (used history).bus.isStuck = false) : Exact history := by
  have hsound := sound_used history hfree
  have hkept := hsound.counts.kept
  constructor
  case subscriptions => exact hsound.counts.subscriptions
  case size =>
    have hlength := hsound.counts.numbers.length_eq
    rwa [List.length_append, List.length_map, List.length_range] at hlength
  case ordered => exact hkept.ordered
  case values => exact hkept.values
  case changed =>
    intro act hafter
    rw [used_concat] at hafter ⊢
    rw [(Use.changes_step hkept hafter).subscriptions, hsound.counts.nextId]
  case named =>
    intro handler hafter
    rw [used_concat, Use.bus_step_react] at hafter ⊢
    simp only [react] at hafter ⊢
    rw [hkept.subscribe_eq hfree hafter, ← hsound.counts.nextId]
    exact List.lookup_cons_self
  case entrusted =>
    intro id hid owner howner
    rw [used_concat, Use.step_of_free hfree]
    simp only [Use.perform]
    rw [if_pos ⟨hid, howner⟩, pass_of_free hfree]
    exact List.mem_append_right _ List.mem_cons_self
  case ended => exact fun later hafter subscription => mem_subscriptions_append hafter
  case apart =>
    intro hfits subscription hmem other hother
    have hbelow (entry : Nat × Handler) (hentry : entry ∈ enrolled history) :
        entry.1 < made history := by
      rw [← List.mem_range, ← map_fst_enrolled]
      exact List.mem_map_of_mem hentry
    exact eq_of_toUInt64_eq hfits (hbelow subscription hmem) (hbelow other hother)
  case handedOut =>
    rintro before event after rfl
    exact (handsOut_used hfree).bodies
  case earlier =>
    rintro before event after rfl body hbody
    rw [(handsOut_used hfree).bodies] at hbody
    obtain ⟨subscription, hcovered, rfl⟩ := List.mem_map.mp hbody
    have hmem := List.mem_of_mem_take (List.mem_filter.mp hcovered).1
    have hbefore := (sound_used before (isStuck_of_used_append hfree)).counts
    refine ⟨hmem, ?_⟩
    rw [← hbefore.nextId]
    exact hbefore.kept.below _ (List.mem_map_of_mem hmem)
  case kinds =>
    intro body hbody
    have hcovers := hsound.tracks.covered body hbody
    constructor
    · intro hviews
      rw [hviews] at hcovers
      exact exists_view_of_covers hcovers
    · intro hmessages
      rw [hmessages] at hcovers
      exact exists_message_of_covers hcovers
  case calls => exact hsound.tracks.calls
  case emit =>
    intro event later
    refine ⟨used_atOnce history event, fun hafter => ?_⟩
    rw [(handsOut_used hafter).bodies, countP_atOnce, List.length_map, List.take_length]

/-- Unless the bus is stuck, an event is handed to those handlers, once and in the order of their
subscriptions, that are subscribed when it comes up and care for it.  What they and others do
to the subscriptions meanwhile makes no difference to it, and tells for every later event.

The bus is stuck once an act has ended the subscription of a handler that owns another one and
that no event is on its way to, and never if handlers own nothing. -/
theorem delivery_is_exact_unless_stuck (history : List Act) :
    ((used history).bus.isStuck = false → Exact history) ∧
      ((used history).bus.isStuck = true ↔ ∃ before act after, history = before ++ act :: after ∧
        (used before).bus.isStuck = false ∧ (used before).Wedges act) ∧
      ((∀ act ∈ history, act.entrusts = false) → (used history).bus.isStuck = false) :=
  ⟨exact_of_free, isStuck_used_iff history, isStuck_used_of_none⟩

/-- Three handlers: one stands by, and the last one comes to own the second. -/
def gathering : List Act :=
  [.react (.subscribe (.mk "by" .any [])), .react (.subscribe (.mk "inner" .any [])),
    .react (.subscribe (.mk "outer" .any [])), .react (.entrust "inner" "outer")]

/-- The owner is dropped while an event is on its way to it. -/
def droppedWhileCalled : List Act :=
  gathering ++ [.emit (.view (Client.lonelyView 1)), .call 0, .call 0, .call 0,
    .react (.drop "outer"), .leave 0]

/-- The owner is dropped before the next event comes up. -/
def droppedBefore : List Act :=
  gathering ++ [.react (.drop "outer"), .emit (.view (Client.lonelyView 1)), .call 0]

/-- An owner that is dropped while an event is on its way to it drops what it owns when it is
done, and the bus is not stuck. -/
theorem delivery_is_exact_unless_stuck_dropped_while_called :
    (∀ act ∈ gathering.take 3, act.entrusts = false) ∧
      (used (gathering.take 3)).bus.isStuck = false ∧
      (used droppedWhileCalled).bus.isStuck = false ∧ Exact droppedWhileCalled ∧
      (used droppedWhileCalled).bus.calls.map Prod.fst = ["by", "inner", "outer"] ∧
      (used droppedWhileCalled).dropped = [2, 1] ∧ (used droppedWhileCalled).bus.size = 1 := by
  have hnone : ∀ act ∈ gathering.take 3, act.entrusts = false := by
    simp [gathering, Act.entrusts]
  have hfree : (used droppedWhileCalled).bus.isStuck = false := by decide +kernel
  refine ⟨hnone, (delivery_is_exact_unless_stuck _).2.2 hnone, hfree,
    (delivery_is_exact_unless_stuck _).1 hfree, ?_, ?_, ?_⟩
  · decide +kernel
  · decide +kernel
  · decide +kernel

/-- The bus is stuck once an owner has been dropped that no event is on its way to, and nobody
hears of the next event, not even the handler that stands by. -/
theorem delivery_stops_when_stuck :
    (used droppedBefore).bus.isStuck = true ∧
      (used droppedBefore).bus.subscriptions.map Prod.fst = [0, 1] ∧
      (used droppedBefore).bodies.length = 0 ∧ ¬Exact droppedBefore := by
  refine ⟨by decide +kernel, by decide +kernel, by decide +kernel, fun hexact => ?_⟩
  have hbodies := hexact.handedOut (gathering ++ [.react (.drop "outer")])
    (.view (Client.lonelyView 1)) [.call 0] rfl
  exact absurd (congrArg List.length hbodies) (by decide +kernel)

/-- A handler that drops its own subscription and makes a new one hears of the event that it
does so for, and the new one of the next event. -/
example (event : Event) :
    let bus := empty.subscribe (.mk "a" .any [.drop "a", .subscribe (.mk "b" .any [])])
    ((bus.emit event).emit event).calls = [("a", event), ("b", event)] :=
  rfl

end EventBus

end Muster
