import Mathlib.Data.List.Induction
import Mathlib.Data.List.Perm.Basic
import Muster.Proofs.Client.Generations
import Muster.Proofs.Message.RoundTrip

/-!
# Views only move forward

The relay may send views out of order.  A client tells its application of a view only if
its number is above those of all views that came before it on the same stream, and of
every message.  What is told is therefore settled by what the frames say and by nothing
else that goes on at the same time.

The order in which frames arrive decides which views are passed over, but not where it
all ends: the last view that is told is the one with the highest number, and the client
comes to the same state.

What is told is handed to every handler that is subscribed at that moment and cares for
it, once.
-/

namespace Muster

/-! ## What frames say -/

def Frame.view? (frame : Frame) : Option View :=
  match Response.decode frame with
  | .ok (.view view) => some view
  | _ => none

def views (frames : List Frame) : List View :=
  frames.filterMap Frame.view?

/-- What a frame has to tell after earlier ones.  The views up to the floor are known. -/
def newsIn (floor : UInt64) (earlier : List Frame) (frame : Frame) : Option Event :=
  match Response.decode frame with
  | .ok (.view view) =>
    if floor < view.viewId ∧ ∀ other ∈ views earlier, other.viewId < view.viewId then
      some (.view view)
    else none
  | .ok (.message envelope) => some (.message envelope)
  | _ => none

def news (floor : UInt64) (earlier : List Frame) : List Frame → List Event
  | [] => []
  | frame :: frames => (newsIn floor earlier frame).toList ++ news floor (earlier ++ [frame]) frames

def Event.view? : Event → Option View
  | .view told => some told
  | .message _ => none

def lastView? (events : List Event) : Option View :=
  (events.filterMap Event.view?).getLast?

theorem news_concat (floor : UInt64) (earlier frames : List Frame) (frame : Frame) :
    news floor earlier (frames ++ [frame]) =
      news floor earlier frames ++ (newsIn floor (earlier ++ frames) frame).toList := by
  induction frames generalizing earlier with
  | nil => simp [news]
  | cons first frames ih => simp [news, ih]

theorem lastView?_append (events : List Event) (event? : Option Event) :
    lastView? (events ++ event?.toList) = (event?.bind Event.view?).or (lastView? events) := by
  unfold lastView?
  cases event? with
  | none => simp
  | some event => cases event <;> simp [Event.view?]

theorem Frame.view?_eq_some_iff {frame : Frame} {view : View} :
    Frame.view? frame = some view ↔ Response.decode frame = .ok (.view view) := by
  unfold Frame.view?
  split <;> simp_all

theorem newsIn_of_view {frame : Frame} {view : View} (hframe : Frame.view? frame = some view)
    (floor : UInt64) (earlier : List Frame) :
    newsIn floor earlier frame =
      if floor < view.viewId ∧ ∀ other ∈ views earlier, other.viewId < view.viewId then
        some (.view view)
      else none := by
  rw [newsIn, Frame.view?_eq_some_iff.mp hframe]

theorem newsIn_of_other {frame : Frame} (hframe : Frame.view? frame = none) (floor : UInt64)
    (earlier : List Frame) : (newsIn floor earlier frame).bind Event.view? = none := by
  unfold newsIn
  split
  next view hview => simp [Frame.view?_eq_some_iff.mpr hview] at hframe
  · rfl
  · rfl

/-- Whether a view has the highest number among some views, and one above the floor. -/
structure View.IsHighest (view : View) (floor : UInt64) (views : List View) : Prop where
  mem : view ∈ views
  above : floor < view.viewId
  highest : ∀ other ∈ views, other.viewId ≤ view.viewId

theorem View.isHighest_concat_of_new {floor : UInt64} {earlier : List View} {last : View}
    (hnew : floor < last.viewId ∧ ∀ other ∈ earlier, other.viewId < last.viewId) (view : View) :
    view.IsHighest floor (earlier ++ [last]) ↔ last = view := by
  constructor
  · intro hhighest
    rcases List.mem_append.mp hhighest.mem with hold | hlast
    · have hle := hhighest.highest last (List.mem_append_right _ List.mem_cons_self)
      exact absurd hle (UInt64.not_le.mpr (hnew.2 view hold))
    · exact (List.mem_singleton.mp hlast).symm
  · rintro rfl
    refine ⟨List.mem_append_right _ List.mem_cons_self, hnew.1, fun other hother => ?_⟩
    rcases List.mem_append.mp hother with hold | hlast
    · exact UInt64.le_of_lt (hnew.2 other hold)
    · rw [List.mem_singleton.mp hlast]
      exact UInt64.le_refl _

theorem View.isHighest_concat_of_stale {floor : UInt64} {earlier : List View} {last : View}
    (hstale : ¬(floor < last.viewId ∧ ∀ other ∈ earlier, other.viewId < last.viewId))
    (hapart : ∀ other ∈ earlier, other.viewId ≠ last.viewId) (view : View) :
    view.IsHighest floor (earlier ++ [last]) ↔ view.IsHighest floor earlier := by
  constructor
  · rintro ⟨hmem, habove, hhighest⟩
    refine ⟨?_, habove, fun other hother => hhighest other (List.mem_append_left _ hother)⟩
    rcases List.mem_append.mp hmem with hold | hlast
    · exact hold
    · obtain rfl := List.mem_singleton.mp hlast
      refine absurd ⟨habove, fun other hother => ?_⟩ hstale
      exact UInt64.lt_of_le_of_ne (hhighest other (List.mem_append_left _ hother))
        (hapart other hother)
  · rintro ⟨hmem, habove, hhighest⟩
    refine ⟨List.mem_append_left _ hmem, habove, fun other hother => ?_⟩
    rcases List.mem_append.mp hother with hold | hlast
    · exact hhighest other hold
    · rw [List.mem_singleton.mp hlast]
      apply UInt64.not_lt.mp
      intro hlt
      refine hstale ⟨UInt64.lt_trans habove hlt, fun other hother => ?_⟩
      exact UInt64.lt_of_le_of_lt (hhighest other hother) hlt

theorem View.isHighest_perm {floor : UInt64} {views others : List View}
    (hsame : views.Perm others) {view : View} :
    view.IsHighest floor views ↔ view.IsHighest floor others := by
  constructor
  · rintro ⟨hmem, habove, hhighest⟩
    exact ⟨hsame.mem_iff.mp hmem, habove, fun other hother =>
      hhighest other (hsame.mem_iff.mpr hother)⟩
  · rintro ⟨hmem, habove, hhighest⟩
    exact ⟨hsame.mem_iff.mpr hmem, habove, fun other hother =>
      hhighest other (hsame.mem_iff.mp hother)⟩

/-- The last view that is told is the one with the highest number, wherever among the frames
it has come in. -/
theorem lastView?_news {floor : UInt64} {frames : List Frame}
    (hdistinct : ((views frames).map View.viewId).Nodup) (view : View) :
    lastView? (news floor [] frames) = some view ↔ view.IsHighest floor (views frames) := by
  induction frames using List.reverseRecOn with
  | nil =>
      constructor
      · intro hnone
        contradiction
      · intro hhighest
        exact absurd hhighest.mem List.not_mem_nil
  | append_singleton frames frame ih =>
      rw [news_concat, lastView?_append, List.nil_append]
      cases hframe : Frame.view? frame with
      | none =>
          have hsame : views (frames ++ [frame]) = views frames := by simp [views, hframe]
          rw [newsIn_of_other hframe, hsame]
          rw [hsame] at hdistinct
          simpa using ih hdistinct
      | some last =>
          have hviews : views (frames ++ [frame]) = views frames ++ [last] := by
            simp [views, hframe]
          rw [hviews, List.map_append, List.nodup_append] at hdistinct
          obtain ⟨hbefore, -, hapart⟩ := hdistinct
          rw [newsIn_of_view hframe, hviews]
          split
          next hnew =>
            rw [View.isHighest_concat_of_new hnew]
            simp [Event.view?]
          next hstale =>
            rw [View.isHighest_concat_of_stale hstale, ← ih hbefore]
            · simp
            · intro other hother
              exact hapart _ (List.mem_map_of_mem hother) _ List.mem_cons_self

/-! ## Handlers -/

namespace EventBus

variable {bus : EventBus} {event : Event}

theorem exists_foldl_unsubscribe (bus : EventBus) (ids : List Nat) :
    ∃ subscriptions isStuck,
      ids.foldl unsubscribe bus = { bus with subscriptions, isStuck } := by
  induction ids generalizing bus with
  | nil => exact ⟨_, _, rfl⟩
  | cons id ids ih =>
      obtain ⟨subscriptions, isStuck, hrest⟩ := ih (bus.unsubscribe id)
      refine ⟨subscriptions, isStuck, ?_⟩
      rw [List.foldl_cons, hrest]
      unfold unsubscribe
      split <;> rfl

theorem exists_discard (bus : EventBus) (ids : List Nat) :
    ∃ subscriptions held owned isStuck,
      bus.discard ids = { bus with subscriptions, held, owned, isStuck } := by
  unfold discard
  split
  · exact ⟨_, _, _, _, rfl⟩
  · obtain ⟨subscriptions, isStuck, hrest⟩ := exists_foldl_unsubscribe (bus.take ids) ids
    exact ⟨subscriptions, _, _, isStuck, hrest⟩

@[simp] theorem calls_discard (bus : EventBus) (ids : List Nat) :
    (bus.discard ids).calls = bus.calls := by
  obtain ⟨_, _, _, _, hdiscard⟩ := bus.exists_discard ids
  rw [hdiscard]

@[simp] theorem calls_subscribe (bus : EventBus) (handler : Handler) :
    (bus.subscribe handler).calls = bus.calls := by
  unfold subscribe
  split
  · rfl
  · simp [drop]

@[simp] theorem calls_pass (bus : EventBus) (id owner : Nat) :
    (bus.pass id owner).calls = bus.calls := by
  unfold pass
  split <;> rfl

@[simp] theorem calls_react (bus : EventBus) (reaction : Reaction) :
    (bus.react reaction).calls = bus.calls := by
  cases reaction with
  | drop name => exact calls_discard _ _
  | subscribe handler => exact calls_subscribe _ _
  | entrust name owner =>
      simp only [react, entrust]
      split
      · exact calls_pass _ _ _
      · rfl

theorem calls_reactions (bus : EventBus) (reactions : List Reaction) :
    (reactions.foldl react bus).calls = bus.calls := by
  induction reactions generalizing bus with
  | nil => rfl
  | cons reaction reactions ih => rw [List.foldl_cons, ih, calls_react]

@[simp] theorem calls_giveBack (bus : EventBus) (id : Nat) :
    (bus.giveBack id).calls = bus.calls := by
  unfold giveBack
  split
  · rfl
  · exact calls_discard _ _

/-- The calls of those handlers among some that care for an event. -/
def callsOf (handlers : List Handler) (event : Event) : List (String × Event) :=
  (handlers.filter fun handler => handler.interest.covers event).map fun handler =>
    (handler.name, event)

theorem calls_call (bus : EventBus) (event : Event) (handler : Handler) :
    (bus.call event handler).calls =
      bus.calls ++ if bus.isStuck then [] else callsOf [handler] event := by
  unfold call
  cases bus.isStuck with
  | true => simp
  | false =>
      by_cases hcovers : handler.interest.covers event = true <;>
        simp [hcovers, callsOf, calls_reactions]

theorem mem_calls_serve {subscription : Nat × Handler} {call : String × Event}
    (hcall : call ∈ (serve event bus subscription).calls) :
    call ∈ bus.calls ∨ call.2 = event := by
  rw [serve, calls_giveBack, calls_call] at hcall
  refine (List.mem_append.mp hcall).imp_right fun hnow => ?_
  split at hnow
  · contradiction
  · obtain ⟨handler, -, rfl⟩ := List.mem_map.mp hnow
    rfl

theorem mem_calls_foldl_serve {audience : List (Nat × Handler)} {call : String × Event}
    (hcall : call ∈ (audience.foldl (serve event) bus).calls) :
    call ∈ bus.calls ∨ call.2 = event := by
  induction audience generalizing bus with
  | nil => exact .inl hcall
  | cons subscription audience ih =>
      rcases ih hcall with hearlier | hnow
      · exact mem_calls_serve hearlier
      · exact .inr hnow

theorem mem_calls_emit {call : String × Event} (hcall : call ∈ (bus.emit event).calls) :
    call ∈ bus.calls ∨ call.2 = event := by
  unfold emit at hcall
  split at hcall
  · exact .inl hcall
  · exact @mem_calls_foldl_serve bus.lend event bus.subscriptions call hcall

/-- The bus is not stuck, and no handler changes the subscriptions while it runs. -/
structure Quiet (bus : EventBus) : Prop where
  free : bus.isStuck = false
  still : ∀ subscription ∈ bus.subscriptions, subscription.2.reactions = []

theorem serve_of_still {subscription : Nat × Handler} {rest : List Nat}
    (hfree : bus.isStuck = false) (hmem : subscription ∈ bus.subscriptions)
    (hstill : subscription.2.reactions = []) (hlent : bus.lent = subscription.1 :: rest) :
    serve event bus subscription =
      { bus with lent := rest, calls := bus.calls ++ callsOf [subscription.2] event } := by
  have hcall : bus.call event subscription.2 =
      { bus with calls := bus.calls ++ callsOf [subscription.2] event } := by
    unfold call
    by_cases hcovers : subscription.2.interest.covers event = true
    · simp [hfree, hcovers, hstill, callsOf]
    · simp [hcovers, callsOf]
  have hthere : bus.subscriptions.any (fun other => other.1 = subscription.1) = true :=
    List.any_eq_true.mpr ⟨subscription, hmem, decide_eq_true rfl⟩
  rw [serve, hcall]
  simp [giveBack, release, left, discard, take, hfree, isAlive, hthere, hlent]

theorem foldl_serve_of_still {audience : List (Nat × Handler)} {rest : List Nat}
    (hfree : bus.isStuck = false)
    (hmem : ∀ subscription ∈ audience, subscription ∈ bus.subscriptions)
    (hstill : ∀ subscription ∈ audience, subscription.2.reactions = [])
    (hlent : bus.lent = audience.map Prod.fst ++ rest) :
    audience.foldl (serve event) bus =
      { bus with lent := rest, calls := bus.calls ++ callsOf (audience.map Prod.snd) event } := by
  induction audience generalizing bus with
  | nil =>
      obtain rfl : bus.lent = rest := hlent
      simp [callsOf]
  | cons subscription audience ih =>
      rw [List.forall_mem_cons] at hmem hstill
      rw [List.foldl_cons, serve_of_still hfree hmem.1 hstill.1 hlent]
      let later : EventBus :=
        { bus with
          lent := audience.map Prod.fst ++ rest
          calls := bus.calls ++ callsOf [subscription.2] event }
      refine (@ih later hfree hmem.2 hstill.2 rfl).trans ?_
      by_cases hcovers : subscription.2.interest.covers event = true <;>
        simp [later, callsOf, hcovers]

/-- All who are subscribed hear of the event, and nothing else changes. -/
theorem Quiet.emit (hquiet : bus.Quiet) (event : Event) :
    bus.emit event =
      { bus with calls := bus.calls ++ callsOf (bus.subscriptions.map Prod.snd) event } := by
  rw [EventBus.emit, if_neg (by simp [hquiet.free])]
  exact @foldl_serve_of_still bus.lend event bus.subscriptions bus.lent hquiet.free
    (fun _ hmem => hmem) hquiet.still rfl

theorem Quiet.calls_emitAll {bus : EventBus} (hquiet : bus.Quiet) (events : List Event) :
    (events.foldl EventBus.emit bus).calls =
      bus.calls ++ events.flatMap (callsOf (bus.subscriptions.map Prod.snd)) := by
  induction events generalizing bus with
  | nil => simp
  | cons event events ih =>
      have hlater : (bus.emit event).Quiet := by
        rw [hquiet.emit]
        exact ⟨hquiet.free, hquiet.still⟩
      rw [List.foldl_cons, ih hlater, hquiet.emit, List.flatMap_cons, List.append_assoc]

end EventBus

/-! ## Frames of one stream -/

/-- Whether a number is that of the highest view among some frames, or the floor. -/
def Marks (last floor : UInt64) (frames : List Frame) : Prop :=
  ∀ id, last < id ↔ floor < id ∧ ∀ view ∈ views frames, view.viewId < id

theorem marks_nil (floor : UInt64) : Marks floor floor [] := by
  simp [Marks, views]

theorem Marks.of_other {last floor : UInt64} {earlier : List Frame} {frame : Frame}
    (hmarks : Marks last floor earlier) (hframe : Frame.view? frame = none) :
    Marks last floor (earlier ++ [frame]) := by
  have hsame : views (earlier ++ [frame]) = views earlier := by simp [views, hframe]
  rw [Marks, hsame]
  exact hmarks

theorem Marks.of_new {last floor : UInt64} {earlier : List Frame} {frame : Frame} {view : View}
    (hmarks : Marks last floor earlier) (hframe : Frame.view? frame = some view)
    (hnew : last < view.viewId) : Marks view.viewId floor (earlier ++ [frame]) := by
  have hviews : views (earlier ++ [frame]) = views earlier ++ [view] := by simp [views, hframe]
  intro id
  rw [hviews, List.forall_mem_append, List.forall_mem_singleton]
  constructor
  · intro hlt
    obtain ⟨hfloor, hbefore⟩ := (hmarks id).mp (UInt64.lt_trans hnew hlt)
    exact ⟨hfloor, hbefore, hlt⟩
  · exact fun habove => habove.2.2

theorem Marks.of_stale {last floor : UInt64} {earlier : List Frame} {frame : Frame}
    {view : View} (hmarks : Marks last floor earlier) (hframe : Frame.view? frame = some view)
    (hstale : view.viewId ≤ last) : Marks last floor (earlier ++ [frame]) := by
  have hviews : views (earlier ++ [frame]) = views earlier ++ [view] := by simp [views, hframe]
  intro id
  rw [hviews, List.forall_mem_append, List.forall_mem_singleton]
  constructor
  · intro hlt
    obtain ⟨hfloor, hbefore⟩ := (hmarks id).mp hlt
    exact ⟨hfloor, hbefore, UInt64.lt_of_le_of_lt hstale hlt⟩
  · exact fun habove => (hmarks id).mpr ⟨habove.1, habove.2.1⟩

namespace Manager

theorem lastViewId_detach (manager : Manager) (stopsReconnecting : Bool) :
    (manager.detach stopsReconnecting).2.lastViewId = manager.lastViewId := by
  unfold detach
  cases stopsReconnecting <;> cases hstream : manager.stream <;> simp [hstream]

/-- The client with its stream established and the number of the last view noted. -/
def settled (manager : Manager) (lastViewId : UInt64) : Manager :=
  { manager with
    lastViewId
    status := (manager.status.compareAndSet .connecting .connected).2
    reconnector := manager.reconnector.stop.2 }

theorem establish_of_current {manager : Manager} {generation : Nat}
    (hcurrent : manager.isCurrent generation = true) (viewId : Option UInt64) :
    manager.establish generation viewId =
      if viewId.any (· ≤ manager.lastViewId) then (false, manager)
      else (true, manager.settled (viewId.getD manager.lastViewId)) := by
  simp [establish, settled, hcurrent]

/-- A frame of the current stream tells what is new in it, and the number of the last view
is kept up. -/
theorem marks_receive {manager : Manager} {generation : Nat} {floor : UInt64}
    {earlier : List Frame} (hcurrent : manager.isCurrent generation = true)
    (hmarks : Marks manager.lastViewId floor earlier) (frame : Frame) :
    (manager.receive generation frame).1 = newsIn floor earlier frame ∧
      Marks (manager.receive generation frame).2.lastViewId floor (earlier ++ [frame]) := by
  unfold receive newsIn
  cases hresponse : Response.decode frame with
  | error fault =>
      have hframe : Frame.view? frame = none := by simp [Frame.view?, hresponse]
      exact ⟨rfl, hmarks.of_other hframe⟩
  | ok response =>
      cases response with
      | view view =>
          have hframe := Frame.view?_eq_some_iff.mpr hresponse
          simp only [establish_of_current hcurrent, Option.any_some, decide_eq_true_eq,
            ← hmarks view.viewId]
          by_cases hstale : view.viewId ≤ manager.lastViewId
          · rw [if_pos hstale, if_neg (UInt64.not_lt.mpr hstale)]
            exact ⟨rfl, hmarks.of_stale hframe hstale⟩
          · have hnew := UInt64.not_le.mp hstale
            rw [if_neg hstale, if_pos hnew]
            exact ⟨rfl, hmarks.of_new hframe hnew⟩
      | message envelope =>
          have hframe : Frame.view? frame = none := by simp [Frame.view?, hresponse]
          simp only [hcurrent, if_true]
          exact ⟨trivial, hmarks.of_other hframe⟩
      | registerViewAck =>
          have hframe : Frame.view? frame = none := by simp [Frame.view?, hresponse]
          simp only [establish_of_current hcurrent]
          exact ⟨trivial, hmarks.of_other hframe⟩
      | leaveAck | getViewResponse | dumpResponse =>
          have hframe : Frame.view? frame = none := by simp [Frame.view?, hresponse]
          exact ⟨rfl, hmarks.of_other hframe⟩

def receiveAll (manager : Manager) (generation : Nat) : List Frame → List Event × Manager
  | [] => ([], manager)
  | frame :: frames =>
    let (event, manager) := manager.receive generation frame
    let (events, manager) := manager.receiveAll generation frames
    (event.toList ++ events, manager)

theorem isCurrent_receive (manager : Manager) (reader generation : Nat) (frame : Frame) :
    (manager.receive reader frame).2.isCurrent generation = manager.isCurrent generation := by
  simp [isCurrent, generation_receive]

theorem news_receiveAll {manager : Manager} {generation : Nat} {floor : UInt64}
    {earlier : List Frame} (hcurrent : manager.isCurrent generation = true)
    (hmarks : Marks manager.lastViewId floor earlier) (frames : List Frame) :
    (manager.receiveAll generation frames).1 = news floor earlier frames := by
  induction frames generalizing manager earlier with
  | nil => rfl
  | cons frame frames ih =>
      obtain ⟨htold, hlater⟩ := marks_receive hcurrent hmarks frame
      rw [← isCurrent_receive manager generation generation frame] at hcurrent
      simp only [receiveAll, news, htold, ih hcurrent hlater]

theorem receiveAll_of_ne {manager : Manager} {generation : Nat}
    (hother : manager.generation ≠ generation) (frames : List Frame) :
    manager.receiveAll generation frames = ([], manager) := by
  induction frames with
  | nil => rfl
  | cons frame frames ih => simp [receiveAll, receive_of_ne hother, ih]

/-! ## Any order -/

theorem receiveAll_eq_foldl (manager : Manager) (generation : Nat) (frames : List Frame) :
    (manager.receiveAll generation frames).2 =
      frames.foldl (fun manager frame => (manager.receive generation frame).2) manager := by
  induction frames generalizing manager with
  | nil => rfl
  | cons frame frames ih => exact ih _

theorem settled_settled (manager : Manager) (first second : UInt64) :
    (manager.settled first).settled second = manager.settled second := by
  unfold settled Reconnector.stop Status.compareAndSet
  split <;> simp [*]

theorem isCurrent_establish (manager : Manager) (reader generation : Nat)
    (viewId : Option UInt64) :
    (manager.establish reader viewId).2.isCurrent generation = manager.isCurrent generation := by
  unfold establish
  split <;> rfl

/-- Of two views the lower one is passed over, now or then, and all else is done already. -/
theorem establish_comm (manager : Manager) (generation : Nat) (first second : Option UInt64) :
    ((manager.establish generation first).2.establish generation second).2 =
      ((manager.establish generation second).2.establish generation first).2 := by
  by_cases hcurrent : manager.isCurrent generation = true
  · have hstill (viewId : Option UInt64) :
        (manager.establish generation viewId).2.isCurrent generation = true := by
      rw [isCurrent_establish, hcurrent]
    rw [establish_of_current (hstill first), establish_of_current (hstill second)]
    simp only [establish_of_current hcurrent]
    -- Whichever comes first, the higher of the two numbers is the one that is kept.
    cases first <;> cases second <;> grind [settled_settled, settled]
  · have hother : manager.generation ≠ generation := by simpa [isCurrent] using hcurrent
    simp [establish_of_ne hother]

theorem receive_comm (manager : Manager) (generation : Nat) (first second : Frame) :
    ((manager.receive generation first).2.receive generation second).2 =
      ((manager.receive generation second).2.receive generation first).2 := by
  have heffect (frame : Frame) :
      (∀ manager : Manager, (manager.receive generation frame).2 = manager) ∨
        ∃ viewId, ∀ manager : Manager,
          (manager.receive generation frame).2 = (manager.establish generation viewId).2 := by
    unfold receive
    cases Response.decode frame with
    | error fault => exact .inl fun _ => rfl
    | ok response =>
        cases response with
        | view view => exact .inr ⟨some view.viewId, fun _ => rfl⟩
        | registerViewAck => exact .inr ⟨none, fun _ => rfl⟩
        | message | leaveAck | getViewResponse | dumpResponse => exact .inl fun _ => rfl
  obtain hfirst | ⟨one, hfirst⟩ := heffect first <;>
    obtain hsecond | ⟨two, hsecond⟩ := heffect second <;>
    simp only [hfirst, hsecond]
  exact establish_comm manager generation one two

/-- In whichever order frames come in, the client comes to the same state. -/
theorem receiveAll_perm {manager : Manager} {generation : Nat} {frames others : List Frame}
    (hsame : frames.Perm others) :
    (manager.receiveAll generation frames).2 = (manager.receiveAll generation others).2 := by
  rw [receiveAll_eq_foldl, receiveAll_eq_foldl]
  exact hsame.foldl_eq' (fun first _ second _ manager =>
    receive_comm manager generation first second) manager

theorem lastView?_receiveAll_perm {manager : Manager} {generation : Nat}
    {frames others : List Frame} (hsame : frames.Perm others)
    (hdistinct : ((views frames).map View.viewId).Nodup) :
    lastView? (manager.receiveAll generation frames).1 =
      lastView? (manager.receiveAll generation others).1 := by
  by_cases hcurrent : manager.isCurrent generation = true
  · have hviews : (views frames).Perm (views others) := hsame.filterMap _
    have hothers : ((views others).map View.viewId).Nodup :=
      (hviews.map _).nodup_iff.mp hdistinct
    rw [news_receiveAll hcurrent (marks_nil _), news_receiveAll hcurrent (marks_nil _)]
    ext view
    rw [lastView?_news hdistinct, lastView?_news hothers]
    exact View.isHighest_perm hviews
  · have hother : manager.generation ≠ generation := by simpa [isCurrent] using hcurrent
    rw [receiveAll_of_ne hother, receiveAll_of_ne hother]

end Manager

namespace Client

variable {config : ClientConfig} {client next : Client} {caller : Nat} {move : Move}
  {moments : List Moment} {generation : Nat}

/-- The frame that a stream hands in at a moment at which it is the current one. -/
def Moment.heard? (generation : Nat) (moment : Moment) : Option Frame :=
  match moment.move with
  | .frame reader frame =>
    if reader = generation ∧ moment.client.manager.isCurrent generation then some frame else none
  | _ => none

def heard (generation : Nat) (moments : List Moment) : List Frame :=
  moments.filterMap (Moment.heard? generation)

/-- What the application is told at a moment because of what a stream hands in. -/
def Moment.told? (generation : Nat) (moment : Moment) : Option Event :=
  match moment.move with
  | .frame reader frame =>
    if reader = generation then (moment.client.manager.receive reader frame).1 else none
  | _ => none

def told (generation : Nat) (moments : List Moment) : List Event :=
  moments.filterMap (Moment.told? generation)

theorem Moment.heard?_eq_some_iff {moment : Moment} {frame : Frame} :
    moment.heard? generation = some frame ↔
      moment.move = .frame generation frame ∧
        moment.client.manager.isCurrent generation = true := by
  unfold heard?
  split
  next reader arrived hmove =>
    rw [hmove]
    split
    next hheard =>
      obtain ⟨rfl, hcurrent⟩ := hheard
      simp [hcurrent]
    next hunheard =>
      constructor
      · intro hnone
        contradiction
      · rintro ⟨hsame, hcurrent⟩
        cases hsame
        exact absurd ⟨rfl, hcurrent⟩ hunheard
  next hmove =>
    constructor
    · intro hnone
      contradiction
    · rintro ⟨hframe, -⟩
      exact absurd hframe (hmove _ _)

theorem Moment.told?_of_unheard {moment : Moment} (hunheard : moment.heard? generation = none) :
    moment.told? generation = none := by
  unfold heard? at hunheard
  unfold told?
  split
  next reader frame hmove =>
    rw [hmove] at hunheard
    split
    next hreader =>
      have hother : moment.client.manager.generation ≠ reader := by
        rintro rfl
        simp [hreader, Manager.isCurrent] at hunheard
      rw [Manager.receive_of_ne hother]
    · rfl
  · rfl

/-- What holds of a stream whose frames are told. -/
structure Heeds (client : Client) (generation : Nat) (moments : List Moment) : Prop where
  told : told generation moments = news 0 [] (heard generation moments)
  marks : generation ∈ client.opened → client.manager.isCurrent generation = true →
    Marks client.manager.lastViewId 0 (heard generation moments)
  unheard : generation ∉ client.opened → heard generation moments = []

/-- A stream that is the current one after a move was so before, with the same last view, or
has just been opened. -/
theorem lastViewId_step (hrun : Run config moments client)
    (hstep : Step caller client move next)
    (hunheard : (⟨client, caller, move⟩ : Moment).heard? generation = none)
    (hopened : generation ∈ next.opened)
    (hcurrent : next.manager.isCurrent generation = true) :
    generation ∈ client.opened ∧ client.manager.isCurrent generation = true ∧
        next.manager.lastViewId = client.manager.lastViewId ∨
      generation ∉ client.opened ∧ next.manager.lastViewId = 0 := by
  have hbound : generation ∈ client.opened → generation ≤ client.manager.generation :=
    fun hold => ((sound_run hrun).reader generation hold).1
  simp only [Manager.isCurrent, decide_eq_true_eq] at hcurrent ⊢
  cases hstep with
  | call | attempt | abort | set | rejoin => exact .inl ⟨hopened, hcurrent, rfl⟩
  | @dial call request dial now =>
      by_cases hstatus : client.manager.status = .disconnected
      · simp only [goTo, dialed, hstatus, if_true, Manager.openWith_of_disconnected hstatus]
          at hopened hcurrent ⊢
        cases dial with
        | refused | unanswered =>
            simp only [Manager.transportError] at hcurrent
            exact absurd (hbound hopened) (by omega)
        | broken =>
            simp only [Manager.transportError, Manager.opened] at hcurrent
            rcases List.mem_append.mp hopened with hold | hnew
            · exact absurd (hbound hold) (by omega)
            · exact absurd (List.mem_singleton.mp hnew) (by omega)
        | accepted =>
            simp only [Manager.opened] at hcurrent ⊢
            exact .inr ⟨fun hold => absurd (hbound hold) (by omega), trivial⟩
      · simp only [goTo, dialed, hstatus, if_false, Manager.openWith_of_ne hstatus]
          at hopened hcurrent ⊢
        exact .inl ⟨hopened, hcurrent, trivial⟩
  | leave | ignore | stop =>
      simp only [goTo, detached, Manager.lastViewId_detach] at hopened hcurrent ⊢
      cases hstream : client.manager.stream with
      | none =>
          rw [(Manager.detach_of_none hstream _).2.2] at hcurrent
          exact .inl ⟨hopened, hcurrent, trivial⟩
      | some held =>
          rw [(Manager.detach_of_some hstream _).2.2] at hcurrent
          exact absurd (hbound hopened) (by omega)
  | @frame reader frame =>
      simp only [Moment.heard?, Manager.isCurrent] at hunheard
      rw [Manager.generation_receive] at hcurrent
      have hother : client.manager.generation ≠ reader := by
        rintro rfl
        simp [hcurrent] at hunheard
      rw [Manager.receive_of_ne hother]
      exact .inl ⟨hopened, hcurrent, rfl⟩
  | @ended reader now =>
      simp only [Client.ended, Manager.streamEnded] at hopened hcurrent ⊢
      split at hcurrent
      next =>
        simp only [Manager.transportError] at hcurrent
        exact absurd (hbound hopened) (by omega)
      next hother =>
        rw [if_neg hother]
        exact .inl ⟨hopened, hcurrent, rfl⟩

theorem Heeds.step_of_unheard (hheeds : client.Heeds generation moments)
    (hrun : Run config moments client) (hstep : Step caller client move next)
    (hunheard : (⟨client, caller, move⟩ : Moment).heard? generation = none)
    (huntold : (⟨client, caller, move⟩ : Moment).told? generation = none) :
    next.Heeds generation (moments ++ [⟨client, caller, move⟩]) := by
  have hheard : heard generation (moments ++ [⟨client, caller, move⟩]) =
      heard generation moments := by simp [heard, hunheard]
  have htold : Client.told generation (moments ++ [⟨client, caller, move⟩]) =
      Client.told generation moments := by simp [Client.told, huntold]
  constructor
  · rw [htold, hheard, hheeds.told]
  · intro hopened hcurrent
    rw [hheard]
    -- The stream was there before, or nobody has heard of it yet.
    rcases lastViewId_step hrun hstep hunheard hopened hcurrent with
      ⟨hold, hbefore, hsame⟩ | ⟨hfresh, hzero⟩
    · rw [hsame]
      exact hheeds.marks hold hbefore
    · rw [hzero, hheeds.unheard hfresh]
      exact marks_nil 0
  · intro hunopened
    rw [hheard]
    exact hheeds.unheard fun hold => hunopened (opened_subset_step hstep hold)

theorem heeds_run (hrun : Run config moments client) (generation : Nat) :
    client.Heeds generation moments := by
  induction hrun with
  | start => exact ⟨rfl, fun hopened => absurd hopened List.not_mem_nil, fun _ => rfl⟩
  | @step moments client next caller move hrun hstep ih =>
      cases hheard : (⟨client, caller, move⟩ : Moment).heard? generation with
      | none => exact ih.step_of_unheard hrun hstep hheard (Moment.told?_of_unheard hheard)
      | some frame =>
          obtain ⟨rfl, hcurrent⟩ := Moment.heard?_eq_some_iff.mp hheard
          cases hstep with
          | frame _ hopened =>
              obtain ⟨hnews, hmarks⟩ :=
                Manager.marks_receive hcurrent (ih.marks hopened hcurrent) frame
              have hlater : heard generation
                  (moments ++ [⟨client, caller, .frame generation frame⟩]) =
                    heard generation moments ++ [frame] := by simp [heard, hheard]
              have htold : (⟨client, caller, .frame generation frame⟩ : Moment).told? generation =
                  (client.manager.receive generation frame).1 := by simp [Moment.told?]
              constructor
              · rw [hlater, news_concat, List.nil_append, ← hnews, ← ih.told]
                simp only [Client.told, List.filterMap_append]
                congr 1
                cases hevent : (client.manager.receive generation frame).1 <;>
                  simp [htold, hevent]
              · intro _ _
                rw [hlater]
                exact hmarks
              · intro hunopened
                exact absurd hopened hunopened

/-- What the application is told because of one stream is what is new in the frames that
the stream has handed in while it was the current one, whatever else goes on at the same
time, and this is what the handlers are called with.  The last view among it is the one with
the highest number.  If frames come in from now on, the order in which they do so changes
neither the state to which the client comes nor the last view that is told. -/
theorem views_only_move_forward (hrun : Run config moments client) (generation : Nat) :
    told generation moments = news 0 [] (heard generation moments) ∧
      (∀ bus : EventBus, bus.Quiet →
        ((told generation moments).foldl EventBus.emit bus).calls =
          bus.calls ++ (news 0 [] (heard generation moments)).flatMap
            (EventBus.callsOf (bus.subscriptions.map Prod.snd))) ∧
      (((views (heard generation moments)).map View.viewId).Nodup → ∀ view,
        lastView? (told generation moments) = some view ↔
          view.IsHighest 0 (views (heard generation moments))) ∧
      ∀ frames others : List Frame, frames.Perm others →
        (client.manager.receiveAll generation frames).2 =
            (client.manager.receiveAll generation others).2 ∧
          (((views frames).map View.viewId).Nodup →
            lastView? (client.manager.receiveAll generation frames).1 =
              lastView? (client.manager.receiveAll generation others).1) := by
  have htold := (heeds_run hrun generation).told
  refine ⟨htold, fun bus hquiet => ?_, fun hdistinct view => ?_, fun frames others hsame => ?_⟩
  · rw [← htold]
    exact hquiet.calls_emitAll _
  · rw [htold]
    exact lastView?_news hdistinct view
  · exact ⟨Manager.receiveAll_perm hsame, Manager.lastView?_receiveAll_perm hsame⟩

/-- A view of a cluster with one member. -/
def lonelyView (viewId : UInt64) : View :=
  ⟨viewId, .ofUuid ⟨0, 1⟩, [.ofUuid ⟨0, 1⟩]⟩

/-- The current stream may hand in any frames whatever. -/
theorem Run.hears (hrun : Run config moments client) (hopened : generation ∈ client.opened)
    (hcurrent : client.manager.isCurrent generation = true) (frames : List Frame) :
    ∃ later last, Run config (moments ++ later) last ∧
      heard generation (moments ++ later) = heard generation moments ++ frames := by
  induction frames generalizing moments client with
  | nil => exact ⟨[], client, by simpa using hrun, by simp⟩
  | cons frame frames ih =>
      have hnext := @Run.step _ _ _ _ 0 _ hrun (.frame frame hopened)
      have hstill : (client.manager.receive generation frame).2.isCurrent generation = true := by
        rw [Manager.isCurrent_receive, hcurrent]
      obtain ⟨later, last, hlast, hheard⟩ := ih hnext hopened hstill
      refine ⟨⟨client, 0, .frame generation frame⟩ :: later, last, by simpa using hlast, ?_⟩
      simpa [heard, Moment.heard?, hcurrent] using hheard

/-- The third view overtakes the second one, and the handler of views does not get to see
the second one. -/
theorem views_only_move_forward_overtaken :
    ∃ moments client, Run .default moments client ∧
      views (heard 1 moments) = [lonelyView 3, lonelyView 2, lonelyView 4] ∧
      ((told 1 moments).foldl EventBus.emit (EventBus.empty.subscribe (.mk "a" .views []))).calls =
        [("a", .view (lonelyView 3)), ("a", .view (lonelyView 4))] := by
  have hview (viewId : UInt64)
      (hsize : (Response.view (lonelyView viewId)).encode.length ≤ Frame.maxSize) :
      Frame.view? (Response.view (lonelyView viewId)).encode = some (lonelyView viewId) :=
    Frame.view?_eq_some_iff.mpr (Response.decode_encode hsize)
  have hsecond := hview 2 (by decide +kernel)
  have hthird := hview 3 (by decide +kernel)
  have hfourth := hview 4 (by decide +kernel)
  have hrun := @Run.step .default _ _ _ 0 (.call (.connect "a" (.ofUuid ⟨0, 1⟩))) .start
    (.call rfl)
  have hrun := @Run.step _ _ _ _ 0 (.dial .accepted 0) hrun (.dial .accepted 0 rfl rfl)
  obtain ⟨later, last, hlast, hheard⟩ := @Run.hears _ _ _ 1 hrun List.mem_cons_self rfl
    ([3, 2, 4].map fun viewId => (Response.view (lonelyView viewId)).encode)
  have hheard : heard 1 (_ ++ later) = [(Response.view (lonelyView 3)).encode,
      (Response.view (lonelyView 2)).encode, (Response.view (lonelyView 4)).encode] := hheard
  have hcalls := (views_only_move_forward hlast 1).2.1
    (EventBus.empty.subscribe (.mk "a" .views [])) ⟨rfl, List.forall_mem_singleton.mpr rfl⟩
  refine ⟨_, last, hlast, ?_, ?_⟩
  · rw [hheard]
    simp [views, hsecond, hthird, hfourth]
  · rw [hcalls, hheard]
    simp only [news, newsIn_of_view hsecond, newsIn_of_view hthird, newsIn_of_view hfourth,
      List.nil_append, views, List.filterMap_cons, List.filterMap_nil, hsecond, hthird,
      List.cons_append]
    rfl

end Client

end Muster
