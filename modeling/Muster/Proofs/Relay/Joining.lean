import Muster.Proofs.Client.Calls
import Muster.Proofs.Relay.PassingOn
import Muster.Proofs.Relay.Rejoin

/-!
# Joining

A newcomer over a session whose writes succeed ends as a member that is bound to this
session, and a view that lists it is written there.  The writes to others may fail.  Those
are then evicted, but nobody who is bound to a session whose writes succeed is among them,
whatever else this session is used for.

A member that joins is passed over, whether a session is bound to it or not.  If one is, it
goes on to be reached.  A member without a session is known from a view that somebody else
has registered: it stays as it is, and nothing is written to it.
-/

namespace Muster

theorem received_deliver_of_sound {sessions : Sessions} {id : SessionId}
    (hsound : (sessions.get id).Sound) (frame : Frame) (recipients : List Recipient) :
    ((deliver frame recipients sessions).sessions.get id).received =
      (sessions.get id).received ++
        List.replicate (recipients.countP (·.session = id)) (.message frame) := by
  induction recipients generalizing sessions with
  | nil => simp [deliver]
  | cons recipient recipients ih =>
      rw [sessions_deliver_cons]
      by_cases hself : recipient.session = id
      · have hnext : (sessions.get id).next = .taken := hsound.taken _
        have hsent := Sessions.get_put_send sessions recipient.session id frame
        rw [if_pos hself.symm] at hsent
        rw [ih (by rw [hsent]; exact hsound.send frame), hsent, List.countP_cons_of_pos (by simpa),
          List.replicate_succ]
        simp [Session.send, hsound.isOpen, hnext]
      · have hsent := Sessions.get_put_send sessions recipient.session id frame
        rw [if_neg (Ne.symm hself)] at hsent
        rw [ih (by rw [hsent]; exact hsound), hsent, List.countP_cons_of_neg (by simpa)]

namespace Membership

variable {membership : Membership} {address : Address}

theorem members_of_view? {view : View} (hview : membership.view? = some view) :
    view.members = membership.addresses := by
  unfold view? View.ofMembers? at hview
  split at hview
  · contradiction
  next hmembers =>
    rw [← Option.some.inj hview, hmembers]

theorem enroll_of_absent (habsent : membership.contains address = false) (session : SessionId)
    (cluster : String) :
    let entered := (membership.add ⟨address, some session⟩).bumped
    Registry.enroll address session cluster membership = (entered.change? cluster, entered) := by
  intro entered
  have hsome : (membership.add ⟨address, some session⟩).isEmpty = false := by
    simp [add, isEmpty]
  simp [Registry.enroll, join?, habsent, announce_eq, hsome, entered]

end Membership

namespace Registry

variable {registry : Registry} {cluster : String} {address : Address}

theorem join_fst_of_absent (habsent : (registry.current cluster).contains address = false)
    (session : SessionId) :
    (registry.join cluster address session).1 =
      ((registry.current cluster).add ⟨address, some session⟩).bumped.change? cluster := by
  have henroll := Membership.enroll_of_absent habsent session cluster
  cases hfind : registry.find? cluster with
  | some membership =>
      rw [current_of_find? hfind] at henroll ⊢
      simp only [join, withCluster, hfind, henroll]
  | none =>
      rw [current_of_find?_none hfind] at henroll ⊢
      simp only [join, withCluster, hfind, Ledger.take, henroll]

/-- Whether every envelope for a member is routed to it. -/
def Routes (registry : Registry) (cluster : String) (recipient : Recipient) : Prop :=
  ∀ envelope destination, envelope.cluster = cluster → envelope.destination = some destination →
    destination.uuid = recipient.address.uuid →
      (registry.route envelope).1 = .unicast ⟨destination, recipient.session⟩

theorem routes_of_sessionOf? {session : SessionId}
    (hsession : (registry.current cluster).sessionOf? address = some session) :
    registry.Routes cluster ⟨address, session⟩ := by
  rintro envelope destination rfl hdestination hsame
  have hmember := Membership.contains_of_sessionOf? hsession
  have hsame' : destination.same = address.same := by
    funext other
    simp [Address.same, hsame]
  rw [route_of_find? (find?_of_contains_current hmember)
    (Membership.isEmpty_eq_false_of_contains hmember)]
  simp only [direct, hdestination, Membership.sessionOf?, Membership.find?, hsame'] at hsession ⊢
  simp only [hsession]

end Registry

namespace Manager

/-- A client that has sent its request to join waits for a view, and any view will do. -/
theorem connected_of_view {manager : Manager} (hstatus : manager.status = .disconnected)
    (cluster : String) (address : Address) (now : Nat) {view : View} (hnumber : view.viewId ≠ 0)
    (hsize : (Response.view view).encode.length ≤ Frame.maxSize) :
    let joining := (manager.connect cluster address .accepted now).2
    joining.status = .connecting ∧
      (joining.receive joining.generation (Response.view view).encode).2.status =
        .connected := by
  intro joining
  have hopened : joining = { manager with status := .connecting }.opened :=
    openWith_of_disconnected hstatus _ .accepted now
  rw [hopened]
  refine ⟨rfl, ?_⟩
  simp [receive, Response.decode_encode hsize, establish, isCurrent, opened, hnumber,
    Status.compareAndSet]

end Manager

/-- Whether a piece of work leaves alone a session and whoever is bound to it. -/
def Work.SparesSession (work : Work) (registry : Registry) (session : SessionId) : Prop :=
  match work with
  | .push change => ∀ other ∈ change.recipients, registry.Bound change.cluster other
  | .evict name addresses => registry.Throughout fun cluster membership =>
      cluster = name → ∀ member ∈ membership.members, member.session = some session →
        member.address.isIn addresses = false
  | .close sessions => session ∉ sessions
  | _ => False

theorem Work.SparesSession.leaveAll {work : Work} {registry : Registry} {session : SessionId}
    (hspares : work.SparesSession registry session) (name : String)
    (addresses : List Address) :
    work.SparesSession (registry.perform (.leaveAll name addresses)).2 session := by
  cases work with
  | push change =>
      intro other hother
      exact (hspares other hother).perform fun _ _ hbrought => hbrought.elim
  | evict cluster failed =>
      refine Registry.Throughout.perform hspares (fun _ _ _ _ hmember => by contradiction) ?_
      intro other membership hbefore hother member hmember
      change member ∈ (Registry.dismiss addresses other membership).2.members at hmember
      rw [Membership.members_dismiss] at hmember
      exact hbefore hother member (List.mem_filter.mp hmember).1
  | close sessions => exact hspares
  | serve | reply | relay | forget => exact hspares.elim

namespace Relay

variable {cluster : String} {recipient : Recipient} {relay : Relay} {others : List Work}

/-- What holds of a member over a session whose writes succeed, while work is done that
leaves the session alone. -/
structure Steady (cluster : String) (recipient : Recipient) (relay : Relay)
    (work : List Work) : Prop where
  distinct : relay.registry.DistinctMembers
  present : (relay.registry.current cluster).contains recipient.address = true
  bound : relay.registry.Bound cluster recipient
  sound : (relay.sessions.get recipient.session).Sound
  spared : ∀ piece ∈ work, piece.SparesSession relay.registry recipient.session

theorem spares_push_of_announced {registry : Registry} (hdistinct : registry.DistinctMembers)
    (operation : Operation) {change : ViewChange}
    (hchange : change ∈ (registry.perform operation).1.announced) (session : SessionId) :
    (Work.push change).SparesSession (registry.perform operation).2 session := by
  intro other hother
  obtain ⟨membership, hfind, -, hrecipients⟩ :=
    Registry.upToDate_of_mem_announced operation hchange
  rw [hrecipients] at hother
  intro found hfound
  obtain rfl : membership = found := Option.some.inj (hfind.symm.trans hfound)
  exact (hdistinct.perform operation _ _ hfind).bound_of_mem_recipients hother

theorem Steady.push {change : ViewChange}
    (hsteady : Steady cluster recipient relay (.push change :: others)) :
    Steady cluster recipient (relay.step (.push change)).relay
      ((relay.step (.push change)).next ++ others) where
  distinct := hsteady.distinct
  present := hsteady.present
  bound := hsteady.bound
  sound := sound_deliver hsteady.sound _ _
  spared := by
    intro piece hpiece
    rcases List.mem_append.mp hpiece with hnext | hother
    · rw [eq_of_mem_next_spread hnext]
      -- Whoever is not reached is bound to the session of the failed write, and that is not
      -- the session of the newcomer.
      intro name membership hfind hname member hmember hsession
      rw [Bool.eq_false_iff]
      intro hlisted
      obtain ⟨address, haddress, hsame⟩ := Address.isIn_iff.mp hlisted
      obtain ⟨failed, hfailed, rfl⟩ := List.mem_map.mp haddress
      have hbound := hsteady.spared _ List.mem_cons_self failed
        ((unreached_sublist _ _ _).subset hfailed)
      have hreached := hbound membership (hname ▸ hfind) member hmember hsame
      apply not_sound_of_mem_unreached hfailed
      rw [Option.some.inj (hreached.symm.trans hsession)]
      exact hsteady.sound
    · exact hsteady.spared piece (List.mem_cons_of_mem _ hother)

theorem Steady.evict {name : String} {addresses : List Address}
    (hsteady : Steady cluster recipient relay (.evict name addresses :: others)) :
    Steady cluster recipient (relay.step (.evict name addresses)).relay
      ((relay.step (.evict name addresses)).next ++ others) := by
  have hspared : (Work.evict name addresses).SparesSession relay.registry recipient.session :=
    hsteady.spared _ List.mem_cons_self
  have hkept : name = cluster → recipient.address.isIn addresses = false := by
    rintro rfl
    obtain ⟨member, hmember, hsame⟩ := Membership.exists_mem_of_contains hsteady.present
    have hfind := Registry.find?_of_contains_current hsteady.present
    rw [← Address.isIn_congr hsame]
    exact hspared name _ hfind rfl member hmember (hsteady.bound _ hfind member hmember hsame)
  have hbound : (relay.registry.perform (.leaveAll name addresses)).2.Bound cluster recipient :=
    hsteady.bound.perform fun _ _ hbrought => hbrought.elim
  constructor
  case distinct => exact hsteady.distinct.perform (.leaveAll name addresses)
  case present => exact (Registry.contains_current_leaveAll hkept).trans hsteady.present
  case bound => exact hbound
  case sound => exact hsteady.sound
  case spared =>
    intro piece hpiece
    rcases List.mem_append.mp hpiece with hnext | hother
    · rw [next_evict, Option.toList_map] at hnext
      rcases List.mem_cons.mp hnext with rfl | hpush
      · intro hclosed
        obtain ⟨member, hdeparted, hsession⟩ := List.mem_filterMap.mp hclosed
        obtain ⟨membership, hfind, hmember, hlisted⟩ :=
          (Registry.mem_departed_iff hsteady.distinct).mp hdeparted
        rw [hspared name membership hfind rfl member hmember hsession] at hlisted
        contradiction
      · obtain ⟨change, hchange, rfl⟩ := List.mem_map.mp hpush
        exact spares_push_of_announced hsteady.distinct (.leaveAll name addresses) hchange _
    · exact (hsteady.spared piece (List.mem_cons_of_mem _ hother)).leaveAll name addresses

theorem Steady.close {sessions : List SessionId}
    (hsteady : Steady cluster recipient relay (.close sessions :: others)) :
    Steady cluster recipient (relay.step (.close sessions)).relay
      ((relay.step (.close sessions)).next ++ others) := by
  have hlater : ∀ piece ∈ others, piece.SparesSession relay.registry recipient.session :=
    fun piece hpiece => hsteady.spared piece (List.mem_cons_of_mem _ hpiece)
  cases sessions with
  | nil =>
      exact ⟨hsteady.distinct, hsteady.present, hsteady.bound, hsteady.sound, hlater⟩
  | cons session rest =>
      have hspared : recipient.session ∉ session :: rest := hsteady.spared _ List.mem_cons_self
      rw [List.mem_cons, not_or] at hspared
      obtain ⟨hfirst, hrest⟩ := hspared
      refine ⟨hsteady.distinct, hsteady.present, hsteady.bound, ?_, ?_⟩
      · simp only [step]
        rw [Sessions.get_close, if_neg hfirst]
        exact hsteady.sound
      · exact List.forall_mem_cons.mpr ⟨hrest, hlater⟩

theorem Steady.step {work : Work} (hsteady : Steady cluster recipient relay (work :: others)) :
    Steady cluster recipient (relay.step work).relay ((relay.step work).next ++ others) := by
  cases work with
  | push change => exact hsteady.push
  | evict name addresses => exact hsteady.evict
  | close sessions => exact hsteady.close
  | serve | reply | relay | forget => exact (hsteady.spared _ List.mem_cons_self).elim

theorem Steady.finish {work : List Work} (hsteady : Steady cluster recipient relay work) :
    Steady cluster recipient (relay.finish work).1 [] := by
  obtain ⟨steps, hcourse⟩ := relay.exists_course work
  exact hcourse.keeps (fun _ _ _ hbefore => hbefore.step) hsteady

/-! ## What the newcomer is told -/

theorem received_prefix_foldl_write (writes : List Write) (sessions : Sessions)
    (id : SessionId) :
    (sessions.get id).received <+: ((writes.foldl Sessions.write sessions).get id).received := by
  induction writes generalizing sessions with
  | nil => exact List.prefix_rfl
  | cons write writes ih =>
      refine List.IsPrefix.trans ?_ (ih _)
      rw [Sessions.write, Sessions.get_put_send]
      split
      · exact Session.received_prefix_send _ write.frame
      · exact List.prefix_rfl

/-- Nothing that has been taken is taken back. -/
theorem received_prefix_step (relay : Relay) (work : Work) (id : SessionId) :
    (relay.sessions.get id).received <+: ((relay.step work).relay.sessions.get id).received := by
  cases hclosing : work.isClosing with
  | false =>
      rw [relay.sessions_eq_foldl_write hclosing]
      exact received_prefix_foldl_write _ _ id
  | true =>
      cases work with
      | close sessions => exact ⟨[], by rw [relay.received_close, List.append_nil]⟩
      | _ => contradiction

theorem received_prefix_finish (relay : Relay) (work : List Work) (id : SessionId) :
    (relay.sessions.get id).received <+: ((relay.finish work).1.sessions.get id).received := by
  obtain ⟨steps, hcourse⟩ := relay.exists_course work
  exact hcourse.keeps
    (P := fun later _ => (relay.sessions.get id).received <+: (later.sessions.get id).received)
    (fun later work _ hprefix => hprefix.trans (later.received_prefix_step work id))
    List.prefix_rfl

/-- Whether the next thing that a newcomer is written is a view that lists it.  A client that
has opened a stream to join is connected when it gets this view. -/
def Tells (before after : Relay) (cluster : String) (recipient : Recipient) : Prop :=
  ∃ view later,
    (after.sessions.get recipient.session).received =
      (before.sessions.get recipient.session).received ++
        .message (Response.view view).encode :: later ∧
    recipient.address ∈ view.members ∧
    view.viewId = (before.registry.current cluster).lastViewId + 1 ∧
    (view.viewId ≠ 0 → (Response.view view).encode.length ≤ Frame.maxSize →
      ∀ (manager : Manager) (now : Nat), manager.status = .disconnected →
        let joining := (manager.connect cluster recipient.address .accepted now).2
        joining.status = .connecting ∧
          (joining.receive joining.generation (Response.view view).encode).2.status = .connected)

theorem step_join (relay : Relay) (cluster : String) (address : Address) (session : SessionId) :
    relay.step (.serve session (.join ⟨cluster, address⟩)) =
      relay.resumeWith (relay.registry.join cluster address session).2
        ((relay.registry.join cluster address session).1.map Work.push).toList :=
  rfl

/-- A newcomer is let in, and it is among those to whom the next view is pushed. -/
theorem exists_push_of_absent (hdistinct : relay.registry.DistinctMembers)
    (habsent : (relay.registry.current cluster).contains recipient.address = false)
    (hsound : (relay.sessions.get recipient.session).Sound) :
    let entered := relay.step (.serve recipient.session (.join ⟨cluster, recipient.address⟩))
    ∃ change, entered.next = [.push change] ∧ recipient ∈ change.recipients ∧
      recipient.address ∈ change.view.members ∧
      change.view.viewId = (relay.registry.current cluster).lastViewId + 1 ∧
      entered.relay.sessions = relay.sessions ∧
      Steady cluster recipient entered.relay entered.next := by
  intro entered
  let joining : Operation := .join cluster recipient.address recipient.session
  let after : Membership :=
    ((relay.registry.current cluster).add ⟨recipient.address, some recipient.session⟩).bumped
  have hjoined : (relay.registry.join cluster recipient.address recipient.session).1 =
      after.change? cluster :=
    Registry.join_fst_of_absent habsent recipient.session
  have hmember : (⟨recipient.address, some recipient.session⟩ : Member) ∈ after.members :=
    List.mem_append_right _ (List.mem_singleton.mpr rfl)
  obtain ⟨view, hview⟩ := Membership.exists_view?_of_isEmpty_eq_false
    (Membership.isEmpty_eq_false_of_contains (Membership.contains_of_mem hmember rfl))
  rw [Membership.change?, hview, Option.map_some] at hjoined
  have hnext : entered.next = [.push ⟨cluster, view, after.recipients []⟩] := by
    simp only [entered, step_join, resumeWith, hjoined, Option.map_some, Option.toList_some]
  have hnobody : relay.registry.Bound cluster recipient := by
    intro membership hfind member hold hsame
    rw [Registry.current_of_find? hfind, Membership.contains_of_mem hold hsame] at habsent
    contradiction
  have hbound : (relay.registry.perform joining).2.Bound cluster recipient :=
    hnobody.perform fun _ member hbrought _ => congrArg Member.session hbrought.2
  refine ⟨_, hnext, ?_, ?_, ?_, rfl, ?_⟩
  · exact Membership.mem_recipients_nil.mpr ⟨_, hmember, rfl⟩
  · rw [Membership.members_of_view? hview]
    exact List.mem_map.mpr ⟨_, hmember, rfl⟩
  · exact Membership.viewId_of_view? hview
  · constructor
    case distinct => exact hdistinct.perform joining
    case present =>
      have hentered : (joining.work cluster (relay.registry.current cluster)).2.contains
          recipient.address = true :=
        Operation.contains_work_of_entrant rfl _
      exact (Membership.contains_congr
        (Registry.members_current_work relay.registry rfl) _).trans hentered
    case bound => exact hbound
    case sound => exact hsound
    case spared =>
      intro piece hpiece
      rw [hnext] at hpiece
      obtain rfl := List.mem_singleton.mp hpiece
      refine spares_push_of_announced hdistinct joining ?_ recipient.session
      change _ ∈ (relay.registry.join cluster recipient.address recipient.session).1.toList
      rw [hjoined]
      exact List.mem_singleton.mpr rfl

theorem received_finish_push {change : ViewChange} (hrecipient : recipient ∈ change.recipients)
    (hsound : (relay.sessions.get recipient.session).Sound) :
    ∃ later, ((relay.finish [.push change]).1.sessions.get recipient.session).received =
      (relay.sessions.get recipient.session).received ++
        .message (Response.view change.view).encode :: later := by
  let frame := (Response.view change.view).encode
  have hwritten : 0 < change.recipients.countP (·.session = recipient.session) :=
    List.countP_pos_iff.mpr ⟨recipient, hrecipient, by simp⟩
  obtain ⟨others, hcount⟩ := Nat.exists_eq_add_one.mpr hwritten
  have hpushed := received_deliver_of_sound hsound frame change.recipients
  rw [hcount, List.replicate_succ] at hpushed
  obtain ⟨rest, hrest⟩ := received_prefix_finish (relay.step (.push change)).relay
    ((relay.step (.push change)).next ++ []) recipient.session
  refine ⟨List.replicate others (.message frame) ++ rest, ?_⟩
  rw [finish_cons, ← hrest]
  change ((deliver frame change.recipients relay.sessions).sessions.get _).received ++ rest = _
  rw [hpushed, List.append_assoc, List.cons_append]

theorem steady_and_tells_of_absent (hdistinct : relay.registry.DistinctMembers)
    (habsent : (relay.registry.current cluster).contains recipient.address = false)
    (hsound : (relay.sessions.get recipient.session).Sound) :
    let joined :=
      (relay.finish [.serve recipient.session (.join ⟨cluster, recipient.address⟩)]).1
    Steady cluster recipient joined [] ∧ relay.Tells joined cluster recipient := by
  intro joined
  obtain ⟨change, hnext, hrecipient, hlisted, hnumber, hsessions, hsteady⟩ :=
    exists_push_of_absent hdistinct habsent hsound
  let entered := relay.step (.serve recipient.session (.join ⟨cluster, recipient.address⟩))
  have hjoined : joined = (entered.relay.finish entered.next).1 := by
    simp only [joined, entered]
    rw [finish_cons, List.append_nil]
  obtain ⟨later, hreceived⟩ := received_finish_push hrecipient hsteady.sound
  rw [hjoined]
  refine ⟨hsteady.finish, change.view, later, ?_, hlisted, hnumber, ?_⟩
  · rw [hnext, hreceived, hsessions]
  · intro hpositive hsize manager now hstatus
    exact Manager.connected_of_view hstatus cluster recipient.address now hpositive hsize

/-- A newcomer over a session whose writes succeed is reached over this session when its
joining is done, and it has been written a view that lists it.  A member that joins stays as
it is: if a session is bound to it, it is reached over that one, and if none is, nothing
comes of it. -/
theorem join_reaches (capacity : Nat) (history : List Operation) (sessions : Sessions)
    {cluster : String} {recipient : Recipient}
    (hsound : (sessions.get recipient.session).Sound) :
    let relay : Relay := ⟨(Registry.empty capacity).after history, sessions⟩
    let membership := relay.registry.current cluster
    let joined :=
      (relay.finish [.serve recipient.session (.join ⟨cluster, recipient.address⟩)]).1
    (membership.contains recipient.address = false →
        joined.Reaches cluster recipient ∧ joined.registry.Routes cluster recipient ∧
          relay.Tells joined cluster recipient) ∧
      (∀ session, membership.sessionOf? recipient.address = some session →
        joined = relay ∧ joined.registry.Routes cluster ⟨recipient.address, session⟩) ∧
      (membership.contains recipient.address = true →
        membership.sessionOf? recipient.address = none → joined = relay) := by
  intro relay membership joined
  have hdistinct : relay.registry.DistinctMembers :=
    (Registry.distinctMembers_empty capacity).after history
  refine ⟨?_, ?_, ?_⟩
  · intro habsent
    obtain ⟨hsteady, htells⟩ := steady_and_tells_of_absent hdistinct habsent hsound
    have hbound := Membership.sessionOf?_of_bound hsteady.present
      (hsteady.bound _ (Registry.find?_of_contains_current hsteady.present))
    exact ⟨⟨hbound, hsteady.sound.isOpen⟩, Registry.routes_of_sessionOf? hbound, htells⟩
  · intro session hsession
    have hsame : joined = relay :=
      finish_join_of_contains (Membership.contains_of_sessionOf? hsession) recipient.session
    rw [hsame]
    exact ⟨rfl, Registry.routes_of_sessionOf? hsession⟩
  · intro hmember _
    exact finish_join_of_contains hmember recipient.session

/-- The write to the member that has registered the view fails, and the newcomer stays with the
one that is known from the view. -/
theorem join_reaches_beside_expected :
    let expected := Address.ofUuid ⟨0, 1⟩
    let registrar := Address.ofUuid ⟨0, 2⟩
    let newcomer : Recipient := ⟨.ofUuid ⟨0, 3⟩, ⟨2⟩⟩
    let history : List Operation := [.registerView "a" [expected, registrar] registrar ⟨1⟩]
    let sessions : Sessions := ⟨[(Session.fresh ⟨1⟩).withFates fun _ => .broken]⟩
    let relay : Relay := ⟨(Registry.empty 1).after history, sessions⟩
    let joined := (relay.finish [.serve ⟨2⟩ (.join ⟨"a", newcomer.address⟩)]).1
    (sessions.get ⟨2⟩).Sound ∧
      (relay.registry.current "a").contains newcomer.address = false ∧
      (joined.registry.current "a").addresses = [expected, newcomer.address] ∧
      joined.Reaches "a" newcomer ∧ relay.Tells joined "a" newcomer := by
  intro expected registrar newcomer history sessions relay joined
  have hsound : (sessions.get ⟨2⟩).Sound := ⟨rfl, fun _ => rfl⟩
  have habsent : (relay.registry.current "a").contains newcomer.address = false := by decide
  obtain ⟨hreaches, -, htells⟩ :=
    (@join_reaches 1 history sessions "a" newcomer hsound).1 habsent
  exact ⟨hsound, habsent, by decide, hreaches, htells⟩

/-- The first member is known only from a view that the second one has registered, and it
joins over a session of its own. -/
theorem join_of_expected_is_lost :
    ¬∀ (capacity : Nat) (history : List Operation) (sessions : Sessions) (cluster : String)
        (recipient : Recipient),
      (sessions.get recipient.session).Sound →
      let relay : Relay := ⟨(Registry.empty capacity).after history, sessions⟩
      let joined :=
        (relay.finish [.serve recipient.session (.join ⟨cluster, recipient.address⟩)]).1
      ∃ session, (joined.registry.current cluster).sessionOf? recipient.address = some session := by
  intro hclaim
  let first := (Address.ofUuid ⟨0, 65⟩).withName "A"
  let second := (Address.ofUuid ⟨0, 66⟩).withName "B"
  obtain ⟨session, hsession⟩ := hclaim 10000 [.registerView "k" [first, second] second ⟨1⟩]
    .empty "k" ⟨first, ⟨2⟩⟩ ⟨rfl, fun _ => rfl⟩
  have hnone : (((Relay.mk ((Registry.empty 10000).after
      [.registerView "k" [first, second] second ⟨1⟩]) .empty).finish
        [.serve ⟨2⟩ (.join ⟨"k", first⟩)]).1.registry.current "k").sessionOf? first = none := by
    decide
  rw [hnone] at hsession
  contradiction

end Relay

end Muster
