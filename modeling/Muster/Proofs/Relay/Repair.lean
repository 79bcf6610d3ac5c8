import Mathlib.Data.List.Chain
import Muster.Proofs.Relay.Course
import Muster.Proofs.Relay.Departure

/-!
# View repair

A view is written to its recipients in one round.  Whoever is not reached has
left: it is evicted, its session is closed, and the view of those who remain is
written in the next round.  Closing a session may cut off further members that
share it, so failures may go on from round to round.

Each round but the last removes a member, and with this the rounds are bounded.
In between nothing is done to the registry except by the repair itself, so that the
view of a round is always the view the cluster has when the round begins.  The
last round therefore leaves the cluster as it found it, unless nobody is left.
-/

namespace Muster

namespace Relay

/-! ## Rounds -/

/-- A view that is written to its recipients. -/
structure Round where
  /-- the state before the writes -/
  relay : Relay
  change : ViewChange

namespace Round

/-- The recipients whose write fails. -/
def failed (round : Round) : List Recipient :=
  unreached (Response.view round.change.view).encode round.change.recipients
    round.relay.sessions

def pushing (round : Round) : Relay × Work :=
  (round.relay, .push round.change)

/-- The state after the writes. -/
def written (round : Round) : Relay :=
  (round.relay.step (.push round.change)).relay

def eviction (round : Round) : Work :=
  .evict round.change.cluster (round.failed.map Recipient.address)

/-- What the eviction comes to. -/
def departure (round : Round) : Departure :=
  (round.relay.registry.leaveAll round.change.cluster (round.failed.map Recipient.address)).1

/-- The state after the eviction. -/
def evicted (round : Round) : Relay :=
  (round.written.step round.eviction).relay

end Round

def rounds (steps : List (Relay × Work)) : List Round :=
  steps.filterMap fun
    | (relay, .push change) => some ⟨relay, change⟩
    | _ => none

/-- Everybody whose write fails in some round. -/
def allFailed (steps : List (Relay × Work)) : List Recipient :=
  (rounds steps).flatMap Round.failed

/-- The sessions that are closed, each with the state before. -/
def closings (steps : List (Relay × Work)) : List (Relay × SessionId) :=
  steps.filterMap fun
    | (relay, .close (session :: _)) => some (relay, session)
    | _ => none

theorem rounds_append (earlier later : List (Relay × Work)) :
    rounds (earlier ++ later) = rounds earlier ++ rounds later :=
  List.filterMap_append

theorem closings_append (earlier later : List (Relay × Work)) :
    closings (earlier ++ later) = closings earlier ++ closings later :=
  List.filterMap_append

theorem rounds_round (round : Round) (relay : Relay) (steps : List (Relay × Work)) :
    rounds (round.pushing :: (relay, round.eviction) :: steps) = round :: rounds steps :=
  rfl

theorem allFailed_round (round : Round) (relay : Relay) (steps : List (Relay × Work)) :
    allFailed (round.pushing :: (relay, round.eviction) :: steps) =
      round.failed ++ allFailed steps := by
  rw [allFailed, rounds_round, List.flatMap_cons, allFailed]

theorem closings_round (round : Round) (relay : Relay) (steps : List (Relay × Work)) :
    closings (round.pushing :: (relay, round.eviction) :: steps) = closings steps :=
  rfl

/-- Whether a round has reached everybody it should, and has left the cluster as its view
shows it. -/
structure Settled (relay : Relay) (cluster : String) (round : Round) : Prop where
  reached : round.failed = []
  current : (relay.registry.getView cluster).1 = some round.change.view
  accepted : ∀ member ∈ (relay.registry.current cluster).members, ∀ session,
    member.session = some session →
      ⟨member.address, session⟩ ∈ round.change.recipients ∧
        .message (Response.view round.change.view).encode ∈
          (relay.sessions.get session).received

/-- What the repair of a cluster comes to, when it takes some steps and ends in some state. -/
structure Repair (relay : Relay) (cluster : String) (steps : List (Relay × Work))
    (last : Relay) : Prop where
  bounded : (rounds steps).length ≤ (relay.registry.current cluster).size + 1
  numbered : (rounds steps).IsChain fun earlier later =>
    later.change.cluster = earlier.change.cluster ∧
      later.change.view.viewId = earlier.change.view.viewId + 1
  /-- whoever is removed has failed in some round, and the other way round -/
  removed : (last.registry.current cluster).members =
    (relay.registry.current cluster).members.filter fun member =>
      ∀ recipient ∈ allFailed steps, member.recipient? ≠ some recipient
  others : ∀ other, other ≠ cluster → last.registry.find? other = relay.registry.find? other
  closed : ∀ session, session ∈ (closings steps).map Prod.snd ↔
    session ∈ (allFailed steps).map Recipient.session
  /-- a session whose next write would fail may come back to life, which allows for more than
  real ends do -/
  shut : ∀ closing ∈ closings steps, (closing.1.sessions.get closing.2).next = .taken →
    (last.sessions.get closing.2).isClosed = true
  settled : last.registry.find? cluster = none ∨
    ∃ round, (rounds steps).getLast? = some round ∧ last.Settled cluster round

theorem Repair.of_retired {relay : Relay} {cluster : String}
    (hretired : relay.registry.find? cluster = none) : relay.Repair cluster [] relay where
  bounded := Nat.zero_le _
  numbered := .nil
  removed := by simp [allFailed, rounds]
  others := fun _ _ => rfl
  closed := by simp [allFailed, rounds, closings]
  shut := by simp [closings]
  settled := .inl hretired

/-! ## One round -/

namespace Round

variable {round : Round} {membership : Membership}

theorem next_push (round : Round) :
    (round.relay.step (.push round.change)).next =
      if round.failed = [] then [] else [round.eviction] := by
  change afterDelivery round.change.cluster (deliver _ _ round.relay.sessions) = _
  rw [afterDelivery, failed_deliver]
  simp only [List.isEmpty_iff, List.map_eq_nil_iff]
  rfl

theorem next_eviction (round : Round) :
    (round.written.step round.eviction).next =
      .close round.departure.sessions :: (round.departure.change.map Work.push).toList :=
  rfl

theorem course_of_reached (hreached : round.failed = []) :
    round.relay.Course [.push round.change] [round.pushing] round.written := by
  refine .step ?_
  rw [next_push, if_pos hreached]
  exact .rest round.written

theorem course_of_failed (hfailed : round.failed ≠ []) {steps : List (Relay × Work)}
    {last : Relay}
    (hrest : round.evicted.Course
      (.close round.departure.sessions :: (round.departure.change.map Work.push).toList)
      steps last) :
    round.relay.Course [.push round.change]
      (round.pushing :: (round.written, round.eviction) :: steps) last := by
  refine .step ?_
  rw [next_push, if_neg hfailed]
  refine .step ?_
  change round.evicted.Course ((round.written.step round.eviction).next ++ []) steps last
  rw [next_eviction, List.append_nil]
  exact hrest

theorem failed_subset (hrecipients : round.change.recipients = membership.recipients []) :
    round.failed ⊆ membership.recipients [] := by
  rw [← hrecipients]
  exact (unreached_sublist _ _ _).subset

theorem leaveAll_eq (hfind : round.relay.registry.find? round.change.cluster = some membership) :
    (round.departure, round.evicted.registry) =
      ((Registry.dismiss (round.failed.map Recipient.address) round.change.cluster
          membership).1,
        round.relay.registry.store round.change.cluster
          (Registry.dismiss (round.failed.map Recipient.address) round.change.cluster
            membership).2) :=
  Registry.leaveAll_of_find? hfind _

end Round

variable {round : Round} {membership : Membership}

theorem Repair.of_reached
    (hfind : round.relay.registry.find? round.change.cluster = some membership)
    (hview : membership.view? = some round.change.view)
    (hrecipients : round.change.recipients = membership.recipients [])
    (hreached : round.failed = []) :
    round.relay.Repair round.change.cluster [round.pushing] round.written := by
  have hrounds : rounds [round.pushing] = [round] := rfl
  have hnobody : allFailed [round.pushing] = [] := by
    simp [allFailed, hrounds, hreached]
  have hsame : round.written.registry = round.relay.registry := rfl
  constructor
  case bounded => simp [hrounds]
  case numbered => exact .singleton round
  case removed => simp [hnobody, hsame]
  case others => simp [hsame]
  case closed =>
    rw [hnobody]
    simp [closings, Round.pushing]
  case shut => simp [closings, Round.pushing]
  case settled =>
    refine .inr ⟨round, rfl, hreached, ?_, ?_⟩
    · exact (Registry.getView_of_find? hfind).trans hview
    · intro member hmember session hsession
      rw [hsame, Registry.current_of_find? hfind] at hmember
      have hrecipient : ⟨member.address, session⟩ ∈ round.change.recipients := by
        rw [hrecipients, Membership.mem_recipients_nil]
        exact ⟨member, hmember, Member.recipient?_eq_some_iff.mpr ⟨rfl, hsession⟩⟩
      exact ⟨hrecipient, mem_received_deliver hreached hrecipient⟩

/-- Sessions that are closed one after the other, while nothing else happens. -/
structure Closing (relay : Relay) (sessions : List SessionId) (steps : List (Relay × Work))
    (last : Relay) : Prop where
  course : relay.Course [.close sessions] steps last
  registry : last.registry = relay.registry
  rounds : rounds steps = []
  sessions : (closings steps).map Prod.snd = sessions
  shut : ∀ closing ∈ closings steps, (closing.1.sessions.get closing.2).next = .taken →
    (last.sessions.get closing.2).isClosed = true

theorem exists_closing (relay : Relay) (sessions : List SessionId) :
    ∃ steps last, relay.Closing sessions steps last := by
  induction sessions generalizing relay with
  | nil => exact ⟨[(relay, .close [])], relay, .step (.rest relay), rfl, rfl, rfl, by simp [closings]⟩
  | cons session others ih =>
      obtain ⟨steps, last, hrest⟩ := ih (relay.step (.close (session :: others))).relay
      refine ⟨(relay, .close (session :: others)) :: steps, last, .step hrest.course,
        hrest.registry, hrest.rounds, congrArg (session :: ·) hrest.sessions, ?_⟩
      intro closing hclosing htaken
      rcases List.mem_cons.mp hclosing with rfl | hlater
      · apply hrest.course.isClosed
        simp only [step]
        rw [Sessions.get_close, if_pos rfl]
        exact Session.isClosed_close_of_taken htaken
      · exact hrest.shut closing hlater htaken

/-- A round with failures is followed by the eviction, by the closing of the sessions, and
by the repair of what is left then. -/
theorem Repair.extend (hdistinct : membership.Distinct)
    (hfind : round.relay.registry.find? round.change.cluster = some membership)
    (hrecipients : round.change.recipients = membership.recipients [])
    (hfailed : round.failed ≠ []) {closed last : Relay} {closing later : List (Relay × Work)}
    (hclosing : round.evicted.Closing round.departure.sessions closing closed)
    (hstay : ∀ session, (closed.sessions.get session).isClosed = true →
      (last.sessions.get session).isClosed = true)
    (hnext : ∀ next ∈ (rounds later).head?, next.change.cluster = round.change.cluster ∧
      next.change.view.viewId = round.change.view.viewId + 1)
    (hlater : closed.Repair round.change.cluster later last) :
    round.relay.Repair round.change.cluster
      (round.pushing :: (round.written, round.eviction) :: (closing ++ later)) last := by
  have hsubset := Round.failed_subset hrecipients
  have hbefore := Registry.current_of_find? hfind
  obtain ⟨hdeparture, hevicted⟩ := Prod.mk.inj (Round.leaveAll_eq hfind)
  have hregistry := hclosing.registry.trans hevicted
  have hafter : (closed.registry.current round.change.cluster).members =
      membership.members.filter fun member =>
        ∀ recipient ∈ round.failed, member.recipient? ≠ some recipient := by
    rw [hregistry, Registry.members_current_store, hdistinct.members_dismiss hsubset]
  have hrounds : rounds (closing ++ later) = rounds later := by
    rw [rounds_append, hclosing.rounds, List.nil_append]
  have hall : allFailed (closing ++ later) = allFailed later := by
    rw [allFailed, hrounds, allFailed]
  constructor
  case bounded =>
    have hfewer := hdistinct.size_dismiss_lt hsubset hfailed round.change.cluster
    have hbound := hlater.bounded
    rw [Membership.size, hregistry, Registry.members_current_store] at hbound
    rw [rounds_round, hrounds, hbefore, List.length_cons]
    simp only [Membership.size] at hfewer hbound ⊢
    omega
  case numbered =>
    rw [rounds_round, hrounds, List.isChain_cons]
    exact ⟨hnext, hlater.numbered⟩
  case removed =>
    rw [hlater.removed, hafter, hbefore, List.filter_filter, allFailed_round, hall]
    apply List.filter_congr
    intro member _
    rw [← Bool.decide_and, decide_eq_decide, List.forall_mem_append, and_comm]
  case others =>
    intro other hother
    rw [hlater.others other hother, hregistry]
    exact Registry.find?_store_of_ne _ hother _
  case closed =>
    intro session
    rw [closings_round, closings_append, List.map_append, List.mem_append, hclosing.sessions,
      hdeparture, hlater.closed, hdistinct.mem_sessions_dismiss_iff hsubset, allFailed_round,
      hall, List.map_append, List.mem_append]
  case shut =>
    intro shutting hshutting htaken
    rw [closings_round, closings_append] at hshutting
    rcases List.mem_append.mp hshutting with hfirst | hrest
    · exact hstay _ (hclosing.shut shutting hfirst htaken)
    · exact hlater.shut shutting hrest htaken
  case settled =>
    rw [rounds_round, hrounds]
    rcases hlater.settled with hretired | ⟨final, hlast, hsettled⟩
    · exact .inl hretired
    · refine .inr ⟨final, ?_, hsettled⟩
      rw [List.getLast?_cons, hlast]
      rfl

/-! ## All rounds -/

/-- What is still to be done for a cluster: its view is to be written as it is now, or there
is nobody left to write to. -/
inductive Pending (relay : Relay) (cluster : String) : Option ViewChange → Prop
  | retired (hretired : relay.registry.find? cluster = none) : Pending relay cluster none
  | told {change : ViewChange} (hcluster : change.cluster = cluster)
      (hupToDate : relay.registry.UpToDate change) : Pending relay cluster (some change)

/-- After the eviction there are fewer members, and the view that is pending bears the next
number. -/
theorem Round.evicted_spec (hdistinct : membership.Distinct)
    (hfind : round.relay.registry.find? round.change.cluster = some membership)
    (hview : membership.view? = some round.change.view)
    (hrecipients : round.change.recipients = membership.recipients [])
    (hfailed : round.failed ≠ []) {closed : Relay}
    (hclosed : closed.registry = round.evicted.registry) :
    closed.Pending round.change.cluster round.departure.change ∧
      (closed.registry.current round.change.cluster).size < membership.size ∧
      ∀ next ∈ round.departure.change,
        next.cluster = round.change.cluster ∧
          next.view.viewId = round.change.view.viewId + 1 := by
  have hsubset := Round.failed_subset hrecipients
  have hfewer := hdistinct.size_dismiss_lt hsubset hfailed round.change.cluster
  obtain ⟨hdeparture, hevicted⟩ := Prod.mk.inj (Round.leaveAll_eq hfind)
  rw [hevicted] at hclosed
  rw [hdeparture]
  generalize hdismiss : Registry.dismiss (round.failed.map Recipient.address)
    round.change.cluster membership = dismissal at hfewer hclosed ⊢
  have hsmaller : (closed.registry.current round.change.cluster).size < membership.size := by
    rw [Membership.size, hclosed, Registry.members_current_store]
    exact hfewer
  rcases hdistinct.change_dismiss_cases hsubset hfailed hdismiss with
    ⟨hnone, hempty⟩ | ⟨view, hsome, hafter, hnumber⟩
  · rw [hnone]
    refine ⟨.retired ?_, hsmaller, by simp⟩
    rw [hclosed, Registry.find?_store_self, if_pos hempty]
  · rw [hsome]
    refine ⟨.told rfl ⟨_, ?_, hafter, rfl⟩, hsmaller, ?_⟩
    · rw [hclosed, Registry.find?_store_self, Membership.isEmpty_eq_false_of_view? hafter]
      rfl
    · rintro next ⟨⟩
      rw [hnumber, Membership.viewId_of_view? hview]
      exact ⟨rfl, rfl⟩

/-- The induction is on the members that are left when a round begins. -/
theorem exists_repair {relay : Relay} {cluster : String} {change? : Option ViewChange}
    (hdistinct : relay.registry.DistinctMembers) (hpending : relay.Pending cluster change?) :
    ∃ steps last, relay.Course (change?.map Work.push).toList steps last ∧
      (rounds steps).head? = change?.map (Round.mk relay) ∧ relay.Repair cluster steps last := by
  induction hsize : (relay.registry.current cluster).size using Nat.strongRecOn
    generalizing relay change? with
  | ind size ih =>
      subst hsize
      cases hpending with
      | retired hretired => exact ⟨[], relay, .rest relay, rfl, .of_retired hretired⟩
      | @told change hcluster hupToDate =>
          subst hcluster
          obtain ⟨membership, hfind, hview, hrecipients⟩ := hupToDate
          obtain ⟨round, rfl, rfl⟩ : ∃ round : Round, round.relay = relay ∧
            round.change = change := ⟨⟨relay, change⟩, rfl, rfl⟩
          by_cases hreached : round.failed = []
          · exact ⟨_, _, round.course_of_reached hreached, rfl,
              .of_reached hfind hview hrecipients hreached⟩
          have hmembers : membership.Distinct := hdistinct _ _ hfind
          obtain ⟨closing, closed, hclosing⟩ :=
            exists_closing round.evicted round.departure.sessions
          obtain ⟨hleft, hsmaller, hnext⟩ :=
            Round.evicted_spec hmembers hfind hview hrecipients hreached hclosing.registry
          have hstill : closed.registry.DistinctMembers := by
            rw [hclosing.registry]
            exact hdistinct.perform (.leaveAll round.change.cluster _)
          rw [← Registry.current_of_find? hfind] at hsmaller
          obtain ⟨later, last, hcourse, hhead, hlater⟩ := ih _ hsmaller hstill hleft rfl
          refine ⟨_, last, round.course_of_failed hreached (hclosing.course.append hcourse), rfl,
            .extend hmembers hfind hrecipients hreached hclosing
              (fun session => hcourse.isClosed) ?_ hlater⟩
          rw [hhead]
          rintro next hstart
          obtain ⟨change, hchange, rfl⟩ := Option.map_eq_some_iff.mp hstart
          exact hnext change hchange

/-- A view that has just been made is pushed in a bounded number of rounds, whatever becomes
of the writes.  When that is over, the cluster is gone, or the last round has reached
everybody who is left and the view it wrote is the one the cluster has. -/
theorem push_repairs (capacity : Nat) (history : List Operation) (operation : Operation)
    {change : ViewChange}
    (hchange :
      change ∈ ((((Registry.empty capacity).after history).perform operation).1).announced)
    (sessions : Sessions) :
    let relay : Relay := ⟨(((Registry.empty capacity).after history).perform operation).2, sessions⟩
    ∃ steps, relay.Course [.push change] steps (relay.finish [.push change]).1 ∧
      (rounds steps).head? = some ⟨relay, change⟩ ∧
      relay.Repair change.cluster steps (relay.finish [.push change]).1 := by
  intro relay
  have hdistinct : relay.registry.DistinctMembers :=
    ((Registry.distinctMembers_empty capacity).after history).perform operation
  have hpending : relay.Pending change.cluster (some change) :=
    .told rfl (Registry.upToDate_of_mem_announced _ hchange)
  obtain ⟨steps, last, hcourse, hfirst, hrepair⟩ := exists_repair hdistinct hpending
  obtain rfl := Course.eq_finish hcourse
  exact ⟨steps, hcourse, hfirst, hrepair⟩

/-- The second and the third member share a session, and only the write to the second fails.
As the session is closed for it, the third fails in the next round. -/
theorem push_repairs_shared_session :
    let first := Address.ofUuid ⟨0, 1⟩
    let second := Address.ofUuid ⟨0, 2⟩
    let third := Address.ofUuid ⟨0, 3⟩
    let history : List Operation := [.join "a" first ⟨1⟩, .join "a" second ⟨2⟩]
    let change : ViewChange := ⟨"a", ⟨3, first, [first, second, third]⟩,
      [⟨first, ⟨1⟩⟩, ⟨second, ⟨2⟩⟩, ⟨third, ⟨2⟩⟩]⟩
    let shared := (Session.fresh ⟨2⟩).withFates fun write =>
      if write = 0 then .broken else .taken
    let joined := ((Registry.empty 1).after history).perform (.join "a" third ⟨2⟩)
    let relay : Relay := ⟨joined.2, ⟨[shared]⟩⟩
    change ∈ joined.1.announced ∧
      (relay.finish [.push change]).1.registry.find? "a" = some ⟨[⟨first, some ⟨1⟩⟩], 5⟩ ∧
      ∃ steps, relay.Course [.push change] steps (relay.finish [.push change]).1 ∧
        (rounds steps).head? = some ⟨relay, change⟩ ∧
        relay.Repair "a" steps (relay.finish [.push change]).1 := by
  intro first second third history change shared joined relay
  have hchange : change ∈ joined.1.announced := by decide
  refine ⟨hchange, by decide, ?_⟩
  exact push_repairs 1 history (.join "a" third ⟨2⟩) hchange ⟨[shared]⟩

end Relay

end Muster
