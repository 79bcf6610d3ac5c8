import Mathlib.Logic.Function.Basic
import Muster.Proofs.Relay.Course
import Muster.Server.Basic

/-!
# Tasks that share a relay

Every session has a task.  A task that has nothing to do takes a frame and then does what the
frame asks for, piece by piece; when its stream is over, it forgets the members of its
session.  Between any two pieces the tasks of other sessions work on the same relay, in
whichever order, and what becomes of the writes may change at any moment.

A server that takes turns is one way for tasks to share a relay.  Whatever happens to it is a
course of such moves, with the turns, the lines and the deadlines left out.
-/

namespace Muster

/-- A relay, and what remains to be done by the task of every session. -/
structure Serving where
  relay : Relay
  tasks : SessionId → List Work

/-- What happens at once. -/
inductive Move
  /-- an idle task takes a frame that has come through its session -/
  | take (session : SessionId) (frame : Frame)
  /-- a task does the first piece of its work -/
  | work (session : SessionId) (piece : Work)
  /-- an idle task finds that its stream is over -/
  | depart (session : SessionId)
  /-- the sessions become others, from without -/
  | change (sessions : Sessions)

namespace Serving

/-- A relay while nobody has anything to do. -/
def idle (relay : Relay) : Serving :=
  ⟨relay, fun _ => []⟩

def assign (serving : Serving) (session : SessionId) (work : List Work) : Serving :=
  { serving with tasks := Function.update serving.tasks session work }

theorem tasks_assign (serving : Serving) (session other : SessionId) (work : List Work) :
    (serving.assign session work).tasks other =
      if other = session then work else serving.tasks other :=
  Function.update_apply _ _ _ _

theorem assign_assign (serving : Serving) (session : SessionId) (work others : List Work) :
    (serving.assign session work).assign session others = serving.assign session others := by
  simp only [assign, Function.update_idem]

inductive Step : Serving → Move → Serving → Prop
  | take {serving : Serving} {session : SessionId} (frame : Frame)
      (hidle : serving.tasks session = []) :
      Step serving (.take session frame)
        (serving.assign session (Connection.workFor session frame))
  | work {serving : Serving} {session : SessionId} {piece : Work} {others : List Work}
      (hwork : serving.tasks session = piece :: others) :
      Step serving (.work session piece)
        ({ serving with relay := (serving.relay.step piece).relay }.assign session
          ((serving.relay.step piece).next ++ others))
  | depart {serving : Serving} {session : SessionId} (hidle : serving.tasks session = []) :
      Step serving (.depart session) (serving.assign session [.forget session])
  | change (serving : Serving) (sessions : Sessions) :
      Step serving (.change sessions)
        { serving with relay := { serving.relay with sessions } }

/-- One move after the other, each with the relay as it finds it. -/
inductive Course : Serving → List (Relay × Move) → Serving → Prop
  | rest (serving : Serving) : Course serving [] serving
  | step {first next last : Serving} {move : Move} {moves : List (Relay × Move)}
      (hstep : Step first move next) (hrest : Course next moves last) :
      Course first ((first.relay, move) :: moves) last

theorem Step.course {first next : Serving} {move : Move} (hstep : Step first move next) :
    Course first [(first.relay, move)] next :=
  .step hstep (.rest next)

theorem Course.append {first middle last : Serving} {earlier later : List (Relay × Move)}
    (hfirst : Course first earlier middle) (hsecond : Course middle later last) :
    Course first (earlier ++ later) last := by
  induction hfirst with
  | rest => exact hsecond
  | step hstep _ ih => exact .step hstep (ih hsecond)

/-- A task that works while the others do nothing takes the course of its work. -/
theorem Course.alone {relay last : Relay} {work : List Work} {steps : List (Relay × Work)}
    (hcourse : relay.Course work steps last) (tasks : SessionId → List Work)
    (session : SessionId) :
    Course (assign ⟨relay, tasks⟩ session work)
      (steps.map fun step => (step.1, .work session step.2))
      (assign ⟨last, tasks⟩ session []) := by
  induction hcourse with
  | rest => exact .rest _
  | @step relay _ piece others _ _ ih =>
      have hstep : Step (assign ⟨relay, tasks⟩ session (piece :: others)) (.work session piece)
          ((assign ⟨(relay.step piece).relay, tasks⟩ session (piece :: others)).assign session
            ((relay.step piece).next ++ others)) :=
        .work ((tasks_assign _ _ _ _).trans (if_pos rfl))
      rw [assign_assign] at hstep
      exact .step hstep ih

def Reaches (first last : Serving) : Prop :=
  ∃ moves, Course first moves last

theorem Reaches.refl (serving : Serving) : Reaches serving serving :=
  ⟨[], .rest serving⟩

theorem Reaches.trans {first middle last : Serving} (hfirst : Reaches first middle)
    (hsecond : Reaches middle last) : Reaches first last := by
  obtain ⟨earlier, hearlier⟩ := hfirst
  obtain ⟨later, hlater⟩ := hsecond
  exact ⟨earlier ++ later, hearlier.append hlater⟩

theorem Step.reaches {first next : Serving} {move : Move} (hstep : Step first move next) :
    Reaches first next :=
  ⟨_, hstep.course⟩

end Serving

/-! ## Servers -/

namespace Server

open Serving

/-- The tasks of a server, and its relay. -/
def serving (server : Server) : Serving :=
  ⟨server.relay, fun session => ((server.find? session).map Connection.work).getD []⟩

theorem tasks_serving {server : Server} {session : SessionId} {connection : Connection}
    (hfind : server.find? session = some connection) :
    server.serving.tasks session = connection.work := by
  simp [serving, hfind]

theorem find?_modify (server : Server) (session other : SessionId)
    {change : Connection → Connection}
    (hkeeps : ∀ connection, (change connection).session = connection.session) :
    (server.modify session change).find? other =
      if other = session then (server.find? other).map change else server.find? other := by
  let changed (connection : Connection) : Connection :=
    if connection.session = session then change connection else connection
  have hsame : ∀ connection, (changed connection).session = connection.session := by
    intro connection
    unfold changed
    split
    · exact hkeeps connection
    · rfl
  have hfind : (server.modify session change).find? other =
      (server.find? other).map changed := by
    simp only [find?, modify, List.find?_map]
    congr 2
    funext connection
    exact congrArg (fun id => decide (id = other)) (hsame connection)
  rw [hfind]
  cases hconnection : server.find? other with
  | none => simp
  | some connection =>
      have hid : connection.session = other := by simpa using List.find?_some hconnection
      by_cases hother : other = session
      · simp [changed, hid, hother]
      · simp [changed, hid, hother]

/-- A connection whose task has other work now. -/
theorem serving_modify {server : Server} {session : SessionId}
    {change : Connection → Connection} {connection : Connection} {work : List Work}
    (hfind : server.find? session = some connection)
    (hkeeps : ∀ connection, (change connection).session = connection.session)
    (hwork : (change connection).work = work) :
    (server.modify session change).serving = server.serving.assign session work := by
  unfold serving assign
  congr 1
  funext other
  rw [find?_modify server session other hkeeps, Function.update_apply]
  split
  next heq => simp [heq, hfind, hwork]
  · rfl

theorem serving_modify_of_work {server : Server} {session : SessionId}
    {change : Connection → Connection}
    (hkeeps : ∀ connection, (change connection).session = connection.session)
    (hwork : ∀ connection, (change connection).work = connection.work) :
    (server.modify session change).serving = server.serving := by
  unfold serving
  congr 1
  funext other
  rw [find?_modify server session other hkeeps]
  split
  · cases server.find? other with
    | none => rfl
    | some connection => exact hwork connection
  · rfl

theorem reaches_modifySession (server : Server) (session : SessionId)
    (change : Session → Session) :
    Reaches server.serving (server.modifySession session change).serving :=
  (Step.change server.serving _).reaches

theorem serving_arrive (server : Server) (session : SessionId) (arrival : Arrival) :
    (server.arrive session arrival).serving = server.serving := by
  have hsame : (server.modify session (·.arrive arrival)).serving = server.serving := by
    apply serving_modify_of_work
    all_goals
      intro connection
      unfold Connection.arrive
      split <;> rfl
  simp only [arrive]
  split <;> exact hsame

theorem serving_begin (server : Server) (turn : Turn) :
    (server.begin turn).serving = server.serving := by
  cases turn <;> rfl

theorem serving_rest (server : Server) (turn : Turn) :
    (server.rest turn).serving = server.serving := by
  cases turn with
  | peer session => rfl
  | task session =>
      simp only [rest]
      split
      · rfl
      · exact @serving_modify_of_work server session
          (fun connection => { connection with isOver := connection.isLeaving })
          (fun _ => rfl) (fun _ => rfl)

theorem serving_skimFor (fuel : Nat) (server : Server) :
    (skimFor fuel server).serving = server.serving := by
  induction fuel generalizing server with
  | zero => rfl
  | succ fuel ih =>
      simp only [skimFor]
      split
      · rfl
      · split
        · exact serving_begin server _
        · rw [ih, serving_rest, serving_begin]

theorem serving_skim (server : Server) : server.skim.serving = server.serving :=
  serving_skimFor _ server

/-! ### Steps -/

theorem reaches_workOn {server : Server} {connection : Connection} {session : SessionId}
    {piece : Work} {others : List Work} (hfind : server.find? session = some connection)
    (hwork : connection.work = piece :: others) :
    Reaches server.serving (server.workOn session piece others).serving := by
  have hstep := Step.work ((tasks_serving hfind).trans hwork)
  have hsame := @serving_modify { server with relay := (server.relay.step piece).relay } session
    ({ · with work := (server.relay.step piece).next ++ others }) connection
    ((server.relay.step piece).next ++ others) hfind (fun _ => rfl) rfl
  exact hsame ▸ hstep.reaches

theorem reaches_depart {server : Server} {connection : Connection} {session : SessionId}
    (hfind : server.find? session = some connection) (hidle : connection.work = [])
    (inbox : List Arrival) :
    Reaches server.serving (server.depart session inbox).serving := by
  have hstep := Step.depart ((tasks_serving hfind).trans hidle)
  have hsame := @serving_modify server session
    ({ · with inbox, work := [.forget session], isLeaving := true }) connection
    [.forget session] hfind (fun _ => rfl) rfl
  exact hsame ▸ hstep.reaches

theorem reaches_shut (server : Server) (session : SessionId) :
    Reaches server.serving (server.shut session).serving := by
  unfold shut
  split
  · exact .refl _
  · exact reaches_modifySession server session _

theorem reaches_look {server : Server} {connection : Connection}
    (hfind : server.find? connection.session = some connection) (hidle : connection.work = [])
    (arrival : Arrival) (inbox : List Arrival) :
    Reaches server.serving (server.look connection arrival inbox).serving := by
  cases arrival with
  | frame bytes =>
      have hstep := Step.take bytes ((tasks_serving hfind).trans hidle)
      have hsame := @serving_modify server connection.session
        ({ · with inbox, work := Connection.workFor connection.session bytes }) connection _
        hfind (fun _ => rfl) rfl
      exact hsame ▸ hstep.reaches
  | ping payload =>
      have hsame := @serving_modify_of_work server connection.session ({ · with inbox })
        (fun _ => rfl) (fun _ => rfl)
      exact hsame ▸ reaches_modifySession _ _ _
  | closing => exact (reaches_depart hfind hidle inbox).trans (reaches_shut _ _)
  | failure => exact reaches_depart hfind hidle inbox

theorem reaches_step (server : Server) (turn : Turn) :
    Reaches server.serving (server.step turn).serving := by
  cases turn with
  | peer session =>
      rw [step, serving_arrive]
      exact .refl _
  | task session =>
      cases hfind : server.find? session with
      | none =>
          simp only [step, hfind]
          exact .refl _
      | some connection =>
          have hid : connection.session = session := by simpa using List.find?_some hfind
          cases hwork : connection.work with
          | cons piece others =>
              simp only [step, hfind, hwork]
              exact reaches_workOn hfind hwork
          | nil =>
              cases hinbox : connection.inbox with
              | nil =>
                  simp only [step, hfind, hwork, hinbox]
                  exact .refl _
              | cons arrival inbox =>
                  simp only [step, hfind, hwork, hinbox]
                  split
                  · have hsame := @serving_modify_of_work server session ({ · with inbox := [] })
                      (fun _ => rfl) (fun _ => rfl)
                    exact hsame ▸ .refl _
                  · rw [← hid] at hfind
                    exact reaches_look hfind hwork arrival inbox

theorem reaches_settleFor (fuel : Nat) (server : Server) :
    Reaches server.serving (settleFor fuel server).serving := by
  induction fuel generalizing server with
  | zero =>
      rw [settleFor, serving_skim]
      exact .refl _
  | succ fuel ih =>
      simp only [settleFor]
      rw [← server.serving_skim]
      split
      · exact .refl _
      next turn _ _ => exact (server.skim.reaches_step turn).trans (ih _)

theorem reaches_settle (server : Server) : Reaches server.serving server.settle.serving :=
  reaches_settleFor _ server

/-! ### Happenings -/

theorem reaches_connect (server : Server) (isStalled : Bool) :
    Reaches server.serving (server.connect isStalled).2.serving := by
  have hsame : (server.connect isStalled).2.serving =
      (server.modifySession server.nextId fun _ =>
        { Session.fresh server.nextId with
          timeout := server.sendTimeout
          fates := fun _ => if isStalled then .stuck else .taken }).serving := by
    unfold serving
    congr 1
    funext session
    -- A new connection has no work, and older ones of its number come before it.
    simp only [connect, find?, modifySession, List.find?_append]
    cases server.connections.find? (·.session = session) with
    | some connection => rfl
    | none =>
        simp only [List.find?_singleton]
        split <;> rfl
  rw [hsame]
  exact reaches_modifySession server _ _

theorem reaches_arrive_settle (server : Server) (session : SessionId) (arrival : Arrival) :
    Reaches server.serving (server.arrive session arrival).settle.serving := by
  have hsettled := (server.arrive session arrival).reaches_settle
  rwa [serving_arrive] at hsettled

theorem reaches_cut (server : Server) (session : SessionId) :
    Reaches server.serving (server.cut session).serving := by
  refine (reaches_modifySession server session (·.withFates fun _ => .broken)).trans ?_
  have hsettled := ((((server.modifySession session
    (·.withFates fun _ => .broken)).arrive session .failure).wake
      ((server.lines.holder? session).map Turn.task).toList)).reaches_settle
  rw [← serving_arrive _ session .failure]
  exact hsettled

theorem reaches_reach (server : Server) (moment : Nat) :
    Reaches server.serving (server.reach moment).serving :=
  reaches_settle ({ server with now := moment }.wake ((server.lines.late moment).map Turn.task))

theorem reaches_runUntil (moment fuel : Nat) (server : Server) :
    Reaches server.serving (runUntil moment fuel server).serving := by
  induction fuel generalizing server with
  | zero => exact .refl _
  | succ fuel ih =>
      unfold runUntil
      split
      · exact .refl _
      · split
        · exact .refl _
        · exact (server.reaches_reach _).trans (ih _)

/-- What happens to a server. -/
inductive Happening
  | connect (isStalled : Bool)
  | receive (session : SessionId) (frame : Frame)
  | ping (session : SessionId) (payload : Frame)
  | hangUp (session : SessionId)
  | cut (session : SessionId)
  | advance (time : Duration)

def undergo (server : Server) : Happening → Server
  | .connect isStalled => (server.connect isStalled).2
  | .receive session frame => server.receive session frame
  | .ping session payload => server.ping session payload
  | .hangUp session => server.hangUp session
  | .cut session => server.cut session
  | .advance time => server.advance time

theorem reaches_undergo (server : Server) (happening : Happening) :
    Reaches server.serving (server.undergo happening).serving := by
  cases happening with
  | connect isStalled => exact server.reaches_connect isStalled
  | receive session frame => exact server.reaches_arrive_settle session _
  | ping session payload => exact server.reaches_arrive_settle session _
  | hangUp session => exact server.reaches_arrive_settle session _
  | cut session => exact server.reaches_cut session
  | advance time => exact reaches_runUntil _ _ server

/-- Whatever happens to a server, its tasks have shared the relay. -/
theorem reaches_undergo_all (server : Server) (happenings : List Happening) :
    Reaches server.serving (happenings.foldl undergo server).serving := by
  induction happenings generalizing server with
  | nil => exact .refl _
  | cons happening happenings ih => exact (server.reaches_undergo happening).trans (ih _)

theorem reaches_from_start (sendTimeout : Duration) (happenings : List Happening) :
    Reaches (idle (start sendTimeout).relay)
      (happenings.foldl undergo (start sendTimeout)).serving :=
  reaches_undergo_all (start sendTimeout) happenings

end Server

end Muster
