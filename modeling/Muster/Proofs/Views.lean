import Muster.Proofs.Client.News
import Muster.Proofs.Message.Relaying
import Muster.Proofs.Relay.Isolation
import Muster.Proofs.Relay.Replies

/-!
# Views and their coordinators

A view that is made here has members, and the first of them is its coordinator.  So it is with
every view that a relay sends, whether it announces a change or answers a question.

A frame is not held to this.  It is read as the view that it spells, and a client hands on
what it has read: the views that its application gets to see have coordinators among their
members exactly if those do that its peer has sent.
-/

namespace Muster

/-- Whether a view has members, and the first of them is its coordinator. -/
def View.isLed (view : View) : Bool :=
  view.members.head?.any view.coordinator.same

/-- The views in a request. -/
def Request.views : Request → List View
  | .registerView request => [request.view]
  | .join _ | .leave _ | .getView _ | .message _ | .dump => []

/-- The views in a response. -/
def Response.views : Response → List View
  | .view current => [current]
  | .getViewResponse response => response.view.toList
  | .message _ | .registerViewAck | .leaveAck | .dumpResponse _ => []

/-! ## Views that are made here -/

theorem View.isLed_ofMembers? {viewId : UInt64} {members : List Address} {view : View}
    (hview : ofMembers? viewId members = some view) : view.isLed = true := by
  cases members with
  | nil => contradiction
  | cons first members =>
      obtain rfl := Option.some.inj hview
      simp [isLed, Address.same]

theorem Membership.isLed_nextView {membership : Membership} {view : View}
    (hview : membership.nextView.1 = some view) : view.isLed = true := by
  unfold nextView at hview
  split at hview
  · contradiction
  · exact View.isLed_ofMembers? hview

namespace Registry

theorem isLed_of_mem_shown {registry : Registry} {operation : Operation} {cluster : String}
    {view : View} (hshown : .shown cluster view ∈ operation.shown (registry.perform operation).1) :
    view.isLed = true := by
  obtain ⟨membership, -, hview⟩ := exists_of_mem_shown hshown
  exact View.isLed_ofMembers? hview

theorem isLed_of_mem_announced {registry : Registry} {operation : Operation}
    {change : ViewChange} (hchange : change ∈ (registry.perform operation).1.announced) :
    change.view.isLed = true := by
  apply @isLed_of_mem_shown registry operation change.cluster
  cases operation with
  | getView => contradiction
  | _ => exact List.mem_map_of_mem hchange

theorem isLed_of_getView {registry : Registry} {cluster : String} {view : View}
    (hview : (registry.getView cluster).1 = some view) : view.isLed = true := by
  apply @isLed_of_mem_shown registry (.getView cluster) cluster
  change Notice.shown cluster view ∈ (registry.getView cluster).1.toList.map (.shown cluster)
  rw [hview]
  exact List.mem_cons_self

end Registry

/-! ## Views that a relay sends -/

/-- The views that a piece of work is about to send. -/
def Work.views : Work → List View
  | .push change => [change.view]
  | .reply _ response => response.views
  | .serve _ _ | .relay _ | .evict _ _ | .close _ | .forget _ => []

namespace Relay

theorem isLed_push? {change? : Option ViewChange}
    (hchange : ∀ change ∈ change?, change.view.isLed = true) :
    ∀ next ∈ (change?.map Work.push).toList, ∀ view ∈ next.views, view.isLed = true := by
  intro next hnext
  rw [Option.toList_map] at hnext
  obtain ⟨change, hmade, rfl⟩ := List.mem_map.mp hnext
  exact List.forall_mem_singleton.mpr (hchange change (Option.mem_toList.mp hmade))

theorem isLed_afterDeparture {departure : Departure}
    (hchange : ∀ change ∈ departure.change, change.view.isLed = true) :
    ∀ next ∈ afterDeparture departure, ∀ view ∈ next.views, view.isLed = true :=
  List.forall_mem_cons.mpr ⟨fun _ hnone => by contradiction, isLed_push? hchange⟩

theorem isLed_leaveAll (registry : Registry) (cluster : String) (addresses : List Address) :
    ∀ change ∈ (registry.leaveAll cluster addresses).1.change, change.view.isLed = true :=
  fun change hchange => @Registry.isLed_of_mem_announced registry (.leaveAll cluster addresses)
    change (Option.mem_toList.mpr hchange)

/-- Whatever a piece of work leaves to be done sends no view but those made here. -/
theorem isLed_next (relay : Relay) (piece : Work) :
    ∀ next ∈ (relay.step piece).next, ∀ view ∈ next.views, view.isLed = true := by
  have hnone {pieces : List Work} (hviews : ∀ next ∈ pieces, next.views = []) :
      ∀ next ∈ pieces, ∀ view ∈ next.views, view.isLed = true := by
    intro next hnext view hview
    rw [hviews next hnext] at hview
    contradiction
  cases piece with
  | serve session request =>
      cases request with
      | join request =>
          refine isLed_push? fun change hchange => ?_
          exact @Registry.isLed_of_mem_announced relay.registry
            (.join request.cluster request.address session) change (Option.mem_toList.mpr hchange)
      | leave request =>
          refine List.forall_mem_cons.mpr ⟨fun _ hview => by contradiction, ?_⟩
          exact isLed_afterDeparture
            (isLed_leaveAll relay.registry request.cluster [request.address])
      | getView request =>
          refine List.forall_mem_singleton.mpr fun view hview => ?_
          exact Registry.isLed_of_getView (Option.mem_toList.mp hview)
      | registerView | message | dump => exact hnone (List.forall_mem_singleton.mpr rfl)
  | reply => exact fun _ hnext => by contradiction
  | push change =>
      refine hnone fun next hnext => ?_
      rw [eq_of_mem_next_spread hnext]
      rfl
  | relay envelope =>
      refine hnone fun next hnext => ?_
      rw [step, passOn_snd] at hnext
      rw [eq_of_mem_next_spread hnext]
      rfl
  | evict cluster failed =>
      exact isLed_afterDeparture (isLed_leaveAll relay.registry cluster failed)
  | close sessions =>
      cases sessions with
      | nil => exact fun _ hnext => by contradiction
      | cons session others => exact hnone (List.forall_mem_singleton.mpr rfl)
  | forget session =>
      intro next hnext
      obtain ⟨change, hchange, rfl⟩ := List.mem_map.mp hnext
      refine List.forall_mem_singleton.mpr ?_
      exact @Registry.isLed_of_mem_announced relay.registry
        (.removeSession session (relay.registry.clusters.map Prod.fst)) change hchange

theorem mem_views_of_mem_sends {relay : Relay} {piece : Work} {send : SessionId × Response}
    (hsend : send ∈ relay.sends piece) {view : View} (hview : view ∈ send.2.views) :
    view ∈ piece.views := by
  cases piece with
  | reply session response =>
      rw [List.mem_singleton.mp hsend] at hview
      exact hview
  | push change =>
      obtain ⟨recipient, -, rfl⟩ := List.mem_map.mp hsend
      exact hview
  | relay envelope =>
      obtain ⟨recipient, -, rfl⟩ := List.mem_map.mp hsend
      contradiction
  | serve | evict | close | forget => contradiction

end Relay

namespace Serving

variable {first next last : Serving} {move : Move} {moves : List (Relay × Move)}

/-- No task is about to send a view without its first member as coordinator. -/
def Led (serving : Serving) : Prop :=
  ∀ session, ∀ piece ∈ serving.tasks session, ∀ view ∈ piece.views, view.isLed = true

theorem led_idle (relay : Relay) : (idle relay).Led :=
  fun _ _ hpiece => by contradiction

theorem Led.assign {serving : Serving} (hled : serving.Led) {session : SessionId}
    {work : List Work} (hwork : ∀ piece ∈ work, ∀ view ∈ piece.views, view.isLed = true) :
    (serving.assign session work).Led := by
  intro other
  rw [tasks_assign]
  split
  · exact hwork
  · exact hled other

theorem Led.step (hled : first.Led) (hstep : Step first move next) : next.Led := by
  cases hstep with
  | @take session frame =>
      apply hled.assign
      unfold Connection.workFor
      split
      · exact List.forall_mem_singleton.mpr fun _ hview => by contradiction
      · exact fun _ hpiece => by contradiction
  | @work session piece others hwork =>
      have hpieces := hled session
      rw [hwork, List.forall_mem_cons] at hpieces
      apply Led.assign hled
      exact List.forall_mem_append.mpr ⟨first.relay.isLed_next piece, hpieces.2⟩
  | depart => exact hled.assign (List.forall_mem_singleton.mpr fun _ hview => by contradiction)
  | change => exact hled

theorem Led.sendsOf (hled : first.Led) (hstep : Step first move next) :
    ∀ send ∈ sendsOf (first.relay, move), ∀ view ∈ send.2.views, view.isLed = true := by
  cases hstep with
  | @work session piece others hwork =>
      intro send hsend view hview
      refine hled session piece ?_ view (Relay.mem_views_of_mem_sends hsend hview)
      rw [hwork]
      exact List.mem_cons_self
  | take | depart | change => exact fun _ hsend => by contradiction

/-- Whatever comes through the sessions, and in whichever order their tasks come to work, the
relay sends no view but those that have their first member as coordinator. -/
theorem Led.sent (hled : first.Led) (hcourse : Course first moves last) :
    ∀ send ∈ sent moves, ∀ view ∈ send.2.views, view.isLed = true := by
  induction hcourse with
  | rest => exact fun _ hsend => by contradiction
  | step hstep _ ih =>
      rw [Serving.sent, List.flatMap_cons]
      exact List.forall_mem_append.mpr ⟨hled.sendsOf hstep, ih (hled.step hstep)⟩

end Serving

/-! ## Views that are read -/

theorem Response.eq_of_decode_encode {response read : Response}
    (hread : decode response.encode = .ok read) : read = response := by
  rw [decode_encode (Frame.length_le_of_decodeWith hread)] at hread
  exact (Except.ok.inj hread).symm

/-- Whether a frame may have come from a relay. -/
def Frame.IsFromRelay (frame : Frame) : Prop :=
  ∃ relay moves last, Serving.Course (.idle relay) moves last ∧
    ∃ send ∈ Serving.sent moves, frame = send.2.encode

theorem Frame.IsFromRelay.led {frame : Frame} (hrelay : frame.IsFromRelay) {read : Response}
    (hread : Response.decode frame = .ok read) : ∀ view ∈ read.views, view.isLed = true := by
  obtain ⟨relay, moves, last, hcourse, send, hsend, rfl⟩ := hrelay
  rw [Response.eq_of_decode_encode hread]
  exact (Serving.led_idle relay).sent hcourse send hsend

theorem exists_frame_of_mem_news {floor : UInt64} {earlier frames : List Frame} {view : View}
    (hview : .view view ∈ news floor earlier frames) :
    ∃ frame ∈ frames, Response.decode frame = .ok (.view view) := by
  induction frames generalizing earlier with
  | nil => contradiction
  | cons frame frames ih =>
      rcases List.mem_append.mp hview with hfirst | hrest
      · refine ⟨frame, List.mem_cons_self, ?_⟩
        have hnews := Option.mem_toList.mp hfirst
        cases hframe : Frame.view? frame with
        | none =>
            have hother := newsIn_of_other hframe floor earlier
            rw [hnews] at hother
            contradiction
        | some shown =>
            rw [newsIn_of_view hframe] at hnews
            split at hnews
            · obtain rfl : shown = view := by simpa using hnews
              exact Frame.view?_eq_some_iff.mp hframe
            · contradiction
      · obtain ⟨later, hlater, hdecode⟩ := ih hrest
        exact ⟨later, List.mem_cons_of_mem _ hlater, hdecode⟩

/-- Handlers are called with nothing but what is emitted. -/
theorem EventBus.mem_calls_emitAll {bus : EventBus} {events : List Event}
    {call : String × Event} (hcall : call ∈ (events.foldl emit bus).calls) :
    call ∈ bus.calls ∨ call.2 ∈ events := by
  induction events generalizing bus with
  | nil => exact .inl hcall
  | cons event events ih =>
      rcases ih hcall with hemitted | hlater
      · refine (mem_calls_emit hemitted).imp_right fun hnow => ?_
        rw [hnow]
        exact List.mem_cons_self
      · exact .inr (List.mem_cons_of_mem _ hlater)

namespace Client

variable {config : ClientConfig} {client : Client} {moments : List Moment}

/-- Whose first members the coordinators of views are. -/
structure LedAsSent (moments : List Moment) (generation : Nat) : Prop where
  /-- a view over some members -/
  built : ∀ viewId members view, View.ofMembers? viewId members = some view → view.isLed = true
  /-- the present view and the next view of a membership -/
  shown : ∀ (membership : Membership) (view : View),
    membership.view? = some view ∨ membership.nextView.1 = some view → view.isLed = true
  /-- a frame that spells a request is read as the views that it spells -/
  requested : ∀ request frame, Request.layout.Spells request frame →
    frame.length ≤ Frame.maxSize →
      ∃ read, Request.decode frame = .ok read ∧ read.views = request.views
  /-- and so is one that spells a response, -/
  answered : ∀ response frame, Response.layout.Spells response frame →
    frame.length ≤ Frame.maxSize →
      ∃ read, Response.decode frame = .ok read ∧ read.views = response.views
  /-- so that what is read of a relay is led -/
  relayed : ∀ frame : Frame, frame.IsFromRelay → ∀ read, Response.decode frame = .ok read →
    ∀ view ∈ read.views, view.isLed = true
  /-- handlers get to see nothing but what is told -/
  handed : ∀ bus : EventBus, bus.calls = [] →
    ∀ call ∈ ((told generation moments).foldl EventBus.emit bus).calls,
      call.2 ∈ told generation moments
  /-- what is told is led exactly if the views are that are new among the frames -/
  told_iff : (∀ view, .view view ∈ told generation moments → view.isLed = true) ↔
    ∀ view, .view view ∈ news 0 [] (heard generation moments) → view.isLed = true
  /-- and always if the frames come from relays -/
  told : (∀ frame ∈ heard generation moments, frame.IsFromRelay) →
    ∀ view, .view view ∈ told generation moments → view.isLed = true

/-- Every view that is made here has its first member as coordinator, and so has every view
that a relay sends.  A frame is read as the views that it spells, whether or not they have, and
what a client hands on are new views among those of its frames. -/
theorem views_are_led_as_sent (hrun : Run config moments client) (generation : Nat) :
    LedAsSent moments generation := by
  have htold := (heeds_run hrun generation).told
  constructor
  case built => exact fun _ _ _ => View.isLed_ofMembers?
  case shown =>
    rintro membership view (hview | hview)
    · exact View.isLed_ofMembers? hview
    · exact Membership.isLed_nextView hview
  case requested =>
    exact fun request frame hspells hsize =>
      ⟨request, Json.Tagged.decodeWith_of_spells Request.layout_lawful hspells hsize, rfl⟩
  case answered =>
    exact fun response frame hspells hsize =>
      ⟨response, Json.Tagged.decodeWith_of_spells Response.layout_lawful hspells hsize, rfl⟩
  case relayed => exact fun _ hrelay _ => hrelay.led
  case handed =>
    intro bus hfresh call hcall
    have hmem := EventBus.mem_calls_emitAll hcall
    rw [hfresh] at hmem
    exact hmem.resolve_left List.not_mem_nil
  case told_iff => rw [htold]
  case told =>
    intro hrelay view hview
    rw [htold] at hview
    obtain ⟨frame, hframe, hread⟩ := exists_frame_of_mem_news hview
    exact (hrelay frame hframe).led hread view List.mem_cons_self

/-- A client that has opened its first stream may hear any frames. -/
theorem exists_run_hearing (frames : List Frame) :
    ∃ moments client, Run .default moments client ∧ heard 1 moments = frames := by
  have hrun := @Run.step .default _ _ _ 0 (.call (.connect "a" (.ofUuid ⟨0, 1⟩))) .start
    (.call rfl)
  have hrun := @Run.step _ _ _ _ 0 (.dial .accepted 0) hrun (.dial .accepted 0 rfl rfl)
  obtain ⟨later, last, hlast, hheard⟩ := @Run.hears _ _ _ 1 hrun List.mem_cons_self rfl frames
  exact ⟨_, last, hlast, hheard⟩

/-- A newcomer alone in a cluster is told so by the relay that it has joined. -/
theorem lonelyView_isFromRelay : (Response.view (lonelyView 1)).encode.IsFromRelay := by
  let relay : Relay := ⟨.empty 1, .empty⟩
  let join : Request := .join ⟨"a", .ofUuid ⟨0, 1⟩⟩
  let change : ViewChange := ⟨"a", lonelyView 1, [⟨.ofUuid ⟨0, 1⟩, ⟨1⟩⟩]⟩
  let joined := (relay.step (.serve ⟨1⟩ join)).relay
  let last := (joined.step (.push change)).relay
  have hsize : join.encode.length ≤ Frame.maxSize := by decide +kernel
  have hjoin : Connection.workFor ⟨1⟩ join.encode = [.serve ⟨1⟩ join] := by
    rw [Connection.workFor, Request.decode_encode hsize]
  have hsteps : relay.Course [.serve ⟨1⟩ join] [(relay, .serve ⟨1⟩ join), (joined, .push change)]
      last :=
    .step (.step (.rest last))
  have hwork := Serving.Course.alone hsteps (Serving.idle relay).tasks ⟨1⟩
  have htake := Serving.Step.take join.encode (rfl : (Serving.idle relay).tasks ⟨1⟩ = [])
  rw [hjoin] at htake
  refine ⟨relay, _, _, .step htake hwork, (⟨1⟩, .view (lonelyView 1)), ?_, rfl⟩
  simp [Serving.sent, Serving.sendsOf, Relay.sends, change]

/-- The client of that newcomer tells its application of the view. -/
theorem views_are_led_as_sent_alone :
    ∃ moments client, Run .default moments client ∧ LedAsSent moments 1 ∧
      told 1 moments = [.view (lonelyView 1)] ∧
      ∀ view, .view view ∈ told 1 moments → view.isLed = true := by
  have hsize : (Response.view (lonelyView 1)).encode.length ≤ Frame.maxSize := by decide +kernel
  have hview := Frame.view?_eq_some_iff.mpr (Response.decode_encode hsize)
  obtain ⟨moments, client, hrun, hheard⟩ :=
    exists_run_hearing [(Response.view (lonelyView 1)).encode]
  have hled := views_are_led_as_sent hrun 1
  refine ⟨moments, client, hrun, hled, ?_, hled.told ?_⟩
  · rw [(heeds_run hrun 1).told, hheard]
    simp only [news, newsIn_of_view hview]
    rfl
  · rw [hheard]
    exact List.forall_mem_singleton.mpr lonelyView_isFromRelay

/-- A view without members, and with a coordinator nevertheless. -/
def desertedView : View :=
  ⟨1, .ofUuid ⟨0, 65⟩, []⟩

def desertedFrame : Frame :=
  Text.utf8 ("\x7b\"type\":\"view\",\"viewId\":1,\"coordinator\":" ++
    "\x7b\"uuidHigh\":0,\"uuidLow\":65\x7d,\"members\":[]\x7d")

/-- Such a view is read wherever a view may stand, and a client tells its application of it. -/
theorem deserted_view_is_told :
    desertedView.isLed = false ∧
      Response.decode desertedFrame = .ok (.view desertedView) ∧
      Response.decode (Response.getViewResponse ⟨some desertedView⟩).encode =
        .ok (.getViewResponse ⟨some desertedView⟩) ∧
      Request.decode (Request.registerView ⟨"a", desertedView, .ofUuid ⟨0, 66⟩⟩).encode =
        .ok (.registerView ⟨"a", desertedView, .ofUuid ⟨0, 66⟩⟩) ∧
      ∃ moments client, Run .default moments client ∧
        told 1 moments = [.view desertedView] := by
  have hframe : desertedFrame = (Response.view desertedView).encode := by decide +kernel
  have hread : Response.decode desertedFrame = .ok (.view desertedView) := by
    rw [hframe]
    exact Response.decode_encode (by decide +kernel)
  refine ⟨rfl, hread, Response.decode_encode (by decide +kernel),
    Request.decode_encode (by decide +kernel), ?_⟩
  obtain ⟨moments, client, hrun, hheard⟩ := exists_run_hearing [desertedFrame]
  refine ⟨moments, client, hrun, ?_⟩
  rw [(heeds_run hrun 1).told, hheard]
  simp only [news, newsIn_of_view (Frame.view?_eq_some_iff.mpr hread)]
  rfl

end Client

end Muster
