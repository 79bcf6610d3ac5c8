import Muster.Relay.Effort
import Muster.Server.Basic

/-!
# Tasks come to rest

Every step lowers the effort of a server whose connections have sessions of
their own: a task works or looks at something that has arrived, and a peer closes
its stream, which was counted from the beginning.  Between two steps turns are
passed on.  That comes to an end because a turn that is won, when a line passes
to another task, is paid for by the claim that had the line.  So `Server.settle`
leaves nobody with a turn to take.
-/

namespace Muster

namespace Connection

theorem effortOfAll_cons (connection : Connection) (connections : List Connection) :
    effortOfAll (connection :: connections) = connection.effort + effortOfAll connections := by
  simp [effortOfAll]

theorem effortOf_pos (session : SessionId) (arrival : Arrival) : 0 < effortOf session arrival := by
  cases arrival with
  | frame bytes => exact Nat.lt_of_lt_of_le Nat.zero_lt_one (Nat.le_add_right _ _)
  | ping payload => exact Nat.zero_lt_one
  | closing => exact Nat.zero_lt_two
  | failure => exact Nat.zero_lt_two

theorem effort_arrive_closing (connection : Connection) (hgoesOn : connection.hasEnded = false) :
    (connection.arrive .closing).effort + 1 = connection.effort := by
  simp [arrive, hgoesOn, effort, effortOf, Arrival.isLast]
  omega

/-- Changing one of several connections changes the sum of efforts by as much
as the effort of that one. -/
theorem effortOfAll_modify (session : SessionId) (change : Connection → Connection)
    (connections : List Connection) (hdistinct : (connections.map Connection.session).Nodup)
    (connection : Connection)
    (hfound : connections.find? (·.session = session) = some connection) :
    effortOfAll (connections.map fun other =>
        if other.session = session then change other else other) + connection.effort =
      effortOfAll connections + (change connection).effort := by
  induction connections with
  | nil => simp at hfound
  | cons other connections ih =>
      simp only [List.map_cons, List.nodup_cons] at hdistinct
      by_cases hits : other.session = session
      · simp only [List.find?_cons, hits, decide_true, Option.some.injEq] at hfound
        subst hfound
        have hrest : connections.map (fun x => if x.session = session then change x else x) =
            connections := by
          rw [List.map_congr_left (g := id), List.map_id]
          intro x hmem
          have hdiffers : x.session ≠ session := by
            intro hsame
            exact hdistinct.1 (hits ▸ hsame ▸ List.mem_map_of_mem hmem)
          simp [hdiffers]
        simp only [List.map_cons, effortOfAll_cons, hits, if_true, hrest]
        omega
      · simp only [List.find?_cons, hits, decide_false] at hfound
        have hchanged := ih hdistinct.2 hfound
        simp only [List.map_cons, effortOfAll_cons, hits, if_false]
        omega

end Connection

namespace Lines

/-- A line passes on only where a claim is over. -/
theorem length_pollClaims_le (task : SessionId) (isStuck : SessionId → Bool) (now : Nat)
    (claims : List Claim) : ∀ held vacant refusing : List SessionId,
      (pollClaims task isStuck now held vacant refusing claims).1.claims.length +
        (pollClaims task isStuck now held vacant refusing claims).2.length ≤
      claims.length + vacant.length := by
  induction claims with
  | nil => intros; simp [pollClaims]
  | cons claim claims ih =>
      intro held vacant refusing
      have herased : (vacant.erase claim.line).length ≤ vacant.length := List.length_erase_le
      by_cases hown : claim.task = task
      · cases houtcome : claim.poll? (held.contains claim.line) isStuck now
          (if claim.isClosing && !held.contains claim.line then refusing.insert claim.line
            else refusing) with
        | none =>
            have hothers := ih held
              (if held.contains claim.line then vacant else claim.line :: vacant)
              (if claim.isClosing && !held.contains claim.line then refusing.insert claim.line
                else refusing)
            have hgiven :
                (if held.contains claim.line then vacant else claim.line :: vacant).length ≤
                  vacant.length + 1 := by
              cases held.contains claim.line <;> simp
            simp only [pollClaims, hown, if_true, houtcome, List.length_cons]
            omega
        | some kept =>
            have hothers := ih (claim.line :: held) (vacant.erase claim.line)
              (if claim.isClosing && !held.contains claim.line then refusing.insert claim.line
                else refusing)
            simp only [pollClaims, hown, if_true, houtcome, List.length_cons]
            omega
      · have hothers := ih (claim.line :: held) (vacant.erase claim.line) refusing
        simp only [pollClaims, hown, if_false, List.length_cons]
        cases hwon : !held.contains claim.line && vacant.contains claim.line with
        | true =>
            have htaken : claim.line ∈ vacant := by
              simp only [Bool.and_eq_true, List.contains_iff_mem] at hwon
              exact hwon.2
            have hfewer := List.length_erase_of_mem htaken
            have hsomething := List.length_pos_of_mem htaken
            simp only [if_true, List.length_cons]
            omega
        | false =>
            simp only [Bool.false_eq_true, if_false]
            omega

/-- A task that looks at its claims has as many of them over as it passes lines
on. -/
theorem length_poll_le (lines : Lines) (task : SessionId) (isStuck : SessionId → Bool)
    (now : Nat) :
    (lines.poll task isStuck now).1.claims.length + (lines.poll task isStuck now).2.length ≤
      lines.claims.length :=
  length_pollClaims_le task isStuck now lines.claims [] [] lines.refusing

end Lines

namespace Server

def IsDistinct (server : Server) : Prop :=
  (server.connections.map Connection.session).Nodup

theorem effort_modify (server : Server) (session : SessionId) (change : Connection → Connection)
    (hdistinct : server.IsDistinct) (connection : Connection)
    (hfound : server.find? session = some connection) :
    (server.modify session change).effort + connection.effort =
      server.effort + (change connection).effort := by
  have hbalance := Connection.effortOfAll_modify session change server.connections hdistinct
    connection hfound
  simp only [modify, effort]
  omega

theorem effort_workOn_lt (server : Server) (session : SessionId) (work : Work)
    (others : List Work) (hdistinct : server.IsDistinct) (connection : Connection)
    (hfound : server.find? session = some connection) (hbusy : connection.work = work :: others) :
    (server.workOn session work others).effort < server.effort := by
  have hlower := server.relay.effort_next_lt work others
  have hworked := effort_modify { server with relay := (server.relay.step work).relay } session
    ({ · with work := (server.relay.step work).next ++ others }) hdistinct connection hfound
  simp only [workOn, wakePeers, wake, claim, effort, Connection.effort, Relay.effort, hbusy,
    modify] at hlower hworked ⊢
  omega

theorem effort_modifySession (server : Server) (session : SessionId) (change : Session → Session) :
    (server.modifySession session change).effort = server.effort := rfl

theorem effort_shut (server : Server) (session : SessionId) :
    (server.shut session).effort = server.effort := by
  unfold shut
  split <;> rfl

/-- To look at the end of a stream takes a step, and to forget its members
another one. -/
theorem effort_depart_lt (server : Server) (connection : Connection) (arrival : Arrival)
    (inbox : List Arrival) (hdistinct : server.IsDistinct)
    (hfound : server.find? connection.session = some connection)
    (hidle : connection.work = []) (hwaiting : connection.inbox = arrival :: inbox)
    (hlast : Connection.effortOf connection.session arrival = 2) :
    (server.depart connection.session inbox).effort < server.effort := by
  have hdeparted := server.effort_modify connection.session
    ({ · with inbox, work := [.forget connection.session], isLeaving := true }) hdistinct
    connection hfound
  simp only [Connection.effort, hlast, hidle, hwaiting, List.map_cons, total_cons,
    Relay.effortOfAll, List.map_nil, total_nil, Relay.effortOf] at hdeparted
  simp only [depart]
  omega

theorem effort_look_lt (server : Server) (connection : Connection) (arrival : Arrival)
    (inbox : List Arrival) (hdistinct : server.IsDistinct)
    (hfound : server.find? connection.session = some connection)
    (hidle : connection.work = []) (hwaiting : connection.inbox = arrival :: inbox) :
    (server.look connection arrival inbox).effort < server.effort := by
  cases arrival with
  | frame bytes =>
      have hlooked := server.effort_modify connection.session
        ({ · with inbox, work := Connection.workFor connection.session bytes }) hdistinct
        connection hfound
      simp only [Connection.effort, Connection.effortOf, hidle, hwaiting, List.map_cons,
        total_cons, Relay.effortOfAll_nil] at hlooked
      simp only [look]
      omega
  | ping payload =>
      have hlooked := server.effort_modify connection.session ({ · with inbox }) hdistinct
        connection hfound
      simp only [Connection.effort, Connection.effortOf, hwaiting, List.map_cons,
        total_cons] at hlooked
      simp only [look, effort_modifySession]
      omega
  | closing =>
      simp only [look, effort_shut]
      exact server.effort_depart_lt connection _ inbox hdistinct hfound hidle hwaiting rfl
  | failure => exact server.effort_depart_lt connection _ inbox hdistinct hfound hidle hwaiting rfl

theorem effort_arrive (server : Server) (session : SessionId) (arrival : Arrival) :
    (server.arrive session arrival).effort =
      (server.modify session (·.arrive arrival)).effort := by
  simp only [arrive]
  split <;> rfl

/-- Whoever has something to do lowers the effort by a step. -/
theorem effort_step_lt_of_isBusy (server : Server) (turn : Turn) (hdistinct : server.IsDistinct)
    (hbusy : server.isBusy turn) : (server.step turn).effort < server.effort := by
  cases turn with
  | task session =>
      simp only [isBusy, Bool.and_eq_true, Option.any_eq_true] at hbusy
      obtain ⟨_, connection, hfound, _, hsomething⟩ := hbusy
      simp only [step, hfound]
      split
      next work others hbusy =>
        exact server.effort_workOn_lt session work others hdistinct connection hfound hbusy
      next arrival inbox hidle hwaiting =>
        have hisIts : connection.session = session := by
          simpa using List.find?_some hfound
        split
        · have hdropped := server.effort_modify session ({ · with inbox := [] }) hdistinct
            connection hfound
          simp only [Connection.effort, hwaiting, List.map_cons, total_cons, List.map_nil,
            total_nil] at hdropped
          have hpositive := Connection.effortOf_pos connection.session arrival
          omega
        · subst hisIts
          exact server.effort_look_lt connection arrival inbox hdistinct hfound hidle hwaiting
      next hidle hempty => simp [hidle, hempty] at hsomething
  | peer session =>
      simp only [isBusy, isAnswerDue, Option.any_eq_true, Bool.and_eq_true] at hbusy
      obtain ⟨connection, hfound, hgoesOn, _⟩ := hbusy
      have hanswered := server.effort_modify session (·.arrive .closing) hdistinct connection
        hfound
      have hlower := connection.effort_arrive_closing (by simpa using hgoesOn)
      simp only [step, effort_arrive]
      omega

/-! ## Sessions stay apart -/

theorem sessions_modify (server : Server) (session : SessionId) (change : Connection → Connection)
    (hkeeps : ∀ connection, (change connection).session = connection.session) :
    (server.modify session change).connections.map Connection.session =
      server.connections.map Connection.session := by
  simp only [modify, List.map_map]
  apply List.map_congr_left
  intro connection _
  simp only [Function.comp]
  split
  · exact hkeeps connection
  · rfl

theorem sessions_look (server : Server) (connection : Connection) (arrival : Arrival)
    (inbox : List Arrival) :
    (server.look connection arrival inbox).connections.map Connection.session =
      server.connections.map Connection.session := by
  have hdeparted := server.sessions_modify connection.session
    ({ · with inbox, work := [.forget connection.session], isLeaving := true }) fun _ => rfl
  cases arrival with
  | frame bytes => exact sessions_modify _ connection.session _ fun _ => rfl
  | ping payload => exact sessions_modify _ connection.session _ fun _ => rfl
  | closing =>
      simp only [look, shut]
      split <;> exact hdeparted
  | failure => exact hdeparted

theorem sessions_step (server : Server) (turn : Turn) :
    (server.step turn).connections.map Connection.session =
      server.connections.map Connection.session := by
  cases turn with
  | task session =>
      simp only [step]
      split
      · rfl
      · split
        · exact sessions_modify { server with relay := (server.relay.step _).relay } session _
            fun _ => rfl
        · split
          · exact sessions_modify _ session _ fun _ => rfl
          · exact server.sessions_look _ _ _
        · rfl
  | peer session =>
      have harrived := server.sessions_modify session (·.arrive .closing) fun connection => by
        unfold Connection.arrive
        split <;> rfl
      simp only [step, arrive]
      split <;> exact harrived

theorem IsDistinct.step {server : Server} (hdistinct : server.IsDistinct) (turn : Turn) :
    (server.step turn).IsDistinct := by
  unfold IsDistinct
  rw [sessions_step]
  exact hdistinct

/-! ## Passing turns on -/

theorem connections_begin (server : Server) (turn : Turn) :
    (server.begin turn).connections = server.connections := by
  cases turn <;> rfl

theorem relay_begin (server : Server) (turn : Turn) :
    (server.begin turn).relay = server.relay := by
  cases turn <;> rfl

theorem effort_begin (server : Server) (turn : Turn) :
    (server.begin turn).effort = server.effort := by
  simp only [effort, connections_begin, relay_begin]

/-- What changes only whether tasks are done for good takes no effort. -/
theorem effort_rest (server : Server) (turn : Turn) :
    (server.rest turn).effort = server.effort := by
  cases turn with
  | task session =>
      simp only [rest]
      split
      · rfl
      · simp only [pass, effort, modify, Connection.effortOfAll, List.map_map]
        congr 3
        funext connection
        simp only [Function.comp]
        split <;> rfl
  | peer session => rfl

theorem sessions_rest (server : Server) (turn : Turn) :
    (server.rest turn).connections.map Connection.session =
      server.connections.map Connection.session := by
  cases turn with
  | task session =>
      simp only [rest]
      split
      · rfl
      · exact sessions_modify _ session _ fun _ => rfl
  | peer session => rfl

theorem effort_skimFor (fuel : Nat) (server : Server) :
    (skimFor fuel server).effort = server.effort := by
  induction fuel generalizing server with
  | zero => rfl
  | succ fuel ih =>
      unfold skimFor
      split
      · rfl
      next turn _ _ =>
        simp only
        split
        · exact server.effort_begin turn
        · rw [ih, effort_rest, effort_begin]

theorem sessions_skimFor (fuel : Nat) (server : Server) :
    (skimFor fuel server).connections.map Connection.session =
      server.connections.map Connection.session := by
  induction fuel generalizing server with
  | zero => rfl
  | succ fuel ih =>
      unfold skimFor
      split
      · rfl
      next turn _ _ =>
        simp only
        split
        · rw [connections_begin]
        · rw [ih, sessions_rest, connections_begin]

theorem IsDistinct.skim {server : Server} (hdistinct : server.IsDistinct) :
    server.skim.IsDistinct := by
  unfold IsDistinct Server.skim
  rw [sessions_skimFor]
  exact hdistinct

theorem length_enqueue_le (turns others : List Turn) :
    (others.foldl enqueue turns).length ≤ turns.length + others.length := by
  induction others generalizing turns with
  | nil => exact Nat.le_refl _
  | cons turn others ih =>
      have hone : (enqueue turns turn).length ≤ turns.length + 1 := by
        unfold enqueue
        split
        · omega
        · simp
      have hmore := ih (enqueue turns turn)
      simp only [List.foldl_cons, List.length_cons]
      omega

/-- A task that looks at its claims brings no more turns than claims are over. -/
theorem length_begin_le (server : Server) (turn : Turn) :
    (server.begin turn).turns.length + (server.begin turn).lines.claims.length ≤
      server.turns.length + server.lines.claims.length := by
  cases turn with
  | task session =>
      have hpaid := server.lines.length_poll_le session server.isStuck server.now
      have hwon := length_enqueue_le server.turns
        ((server.lines.poll session server.isStuck server.now).2.map .task)
      simp only [List.length_map] at hwon
      simp only [begin, poll, wake]
      omega
  | peer session => exact Nat.le_refl _

theorem enqueue_append (turns others : List Turn) :
    ∃ more, others.foldl enqueue turns = turns ++ more := by
  induction others generalizing turns with
  | nil => exact ⟨[], (List.append_nil turns).symm⟩
  | cons turn others ih =>
      obtain ⟨more, hextended⟩ := ih (enqueue turns turn)
      simp only [List.foldl_cons, hextended]
      unfold enqueue
      split
      · exact ⟨more, rfl⟩
      · exact ⟨turn :: more, by simp⟩

/-- Nobody gets in line before those who stand there. -/
theorem turns_begin (server : Server) (turn : Turn) :
    ∃ more, (server.begin turn).turns = server.turns ++ more := by
  cases turn with
  | task session => exact enqueue_append server.turns _
  | peer session => exact ⟨[], (List.append_nil server.turns).symm⟩

theorem turns_rest (server : Server) (turn : Turn) :
    (server.rest turn).turns = server.turns.tail := by
  cases turn with
  | task session =>
      simp only [rest]
      split <;> rfl
  | peer session => rfl

theorem lines_rest (server : Server) (turn : Turn) : (server.rest turn).lines = server.lines := by
  cases turn with
  | task session =>
      simp only [rest]
      split <;> rfl
  | peer session => rfl

/-- Nobody is in line, or the first one has something to do. -/
def IsReady (server : Server) : Prop :=
  ∀ turn ∈ server.turns.head?, server.isBusy turn

theorem isReady_skimFor (fuel : Nat) (server : Server)
    (henough : server.turns.length + server.lines.claims.length ≤ fuel) :
    (skimFor fuel server).IsReady := by
  induction fuel generalizing server with
  | zero =>
      have hnobody : server.turns = [] := List.length_eq_zero_iff.1 (by omega)
      simp [skimFor, IsReady, hnobody]
  | succ fuel ih =>
      unfold skimFor
      split
      next hnobody => simp [IsReady, hnobody]
      next turn others hfirst =>
        obtain ⟨more, hbegun⟩ := server.turns_begin turn
        have hbound := server.length_begin_le turn
        simp only
        split
        next hbusy =>
          intro head hisHead
          simp only [hbegun, hfirst, List.cons_append, List.head?_cons, Option.mem_def,
            Option.some.injEq] at hisHead
          exact hisHead ▸ hbusy
        next hidle =>
          apply ih
          simp only [hbegun, hfirst, List.cons_append, List.length_cons] at hbound
          simp only [hfirst, List.length_cons] at henough
          simp only [turns_rest, lines_rest, hbegun, hfirst, List.cons_append, List.tail_cons]
          omega

/-- Where somebody is in line after turns have been passed on, there is something
to do. -/
theorem isReady_skim (server : Server) : server.skim.IsReady :=
  isReady_skimFor _ server (Nat.le_refl _)

/-! ## Rest -/

/-- With enough effort everybody comes to rest. -/
theorem turns_settleFor (fuel : Nat) (server : Server) (hdistinct : server.IsDistinct)
    (henough : server.effort ≤ fuel) : (settleFor fuel server).turns = [] := by
  induction fuel generalizing server with
  | zero =>
      cases hfirst : server.skim.turns with
      | nil => exact hfirst
      | cons turn others =>
          have hbusy := server.isReady_skim turn (by simp [hfirst])
          have hlower := server.skim.effort_step_lt_of_isBusy turn hdistinct.skim hbusy
          have hsame : server.skim.effort = server.effort := effort_skimFor _ server
          omega
  | succ fuel ih =>
      unfold settleFor
      simp only
      split
      next hnobody => exact hnobody
      next turn others hfirst =>
        have hbusy := server.isReady_skim turn (by simp [hfirst])
        have hlower := server.skim.effort_step_lt_of_isBusy turn hdistinct.skim hbusy
        have hsame : server.skim.effort = server.effort := effort_skimFor _ server
        exact ih _ (hdistinct.skim.step turn) (by omega)

/-- Where everybody rests, nobody takes a turn. -/
theorem turns_settle (server : Server) (hdistinct : server.IsDistinct) :
    server.settle.turns = [] :=
  turns_settleFor _ server hdistinct (Nat.le_refl _)

end Server

end Muster
