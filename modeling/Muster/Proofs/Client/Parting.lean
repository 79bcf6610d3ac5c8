import Muster.Proofs.Client.Reconnecting

/-!
# Parting from the relay

A client parts from its relay by a call to disconnect or by a call to stop.  Calls are made
one after the other here, and so are the attempts of the reconnector; readers report at any
time.

When the call returns, no stream is held.  From then on nothing but the reconnector can open
one, unless the application asks for it.  A call to stop puts an end to the reconnector.  A
call to disconnect leaves it alone, so that it parts for good only if the reconnector does
not run.  It does run when one of its attempts has opened the stream and no view has arrived
yet, and then the next attempt opens another stream.
-/

namespace Muster

/-- Whether there is a stream to write the first request to. -/
def Dial.opens : Dial → Bool
  | .broken | .accepted => true
  | .refused | .unanswered => false

namespace Reconnector

variable {φ : Type} {reconnector : Reconnector φ}

/-- No call has put an end to the task. -/
def Whole (reconnector : Reconnector φ) : Prop :=
  ∀ task, reconnector.task = some task → task.isBroken = false

theorem Whole.isRunning_eq (hwhole : reconnector.Whole) :
    reconnector.isRunning = reconnector.task.isSome := by
  unfold isRunning
  cases htask : reconnector.task with
  | none => rfl
  | some task => simp [hwhole task htask]

theorem whole_stop (reconnector : Reconnector φ) : reconnector.stop.2.Whole :=
  fun _ htask => by contradiction

theorem Whole.start (hwhole : reconnector.Whole) (now : Nat) :
    (reconnector.start now).2.Whole := by
  unfold Reconnector.start
  split
  · rintro task ⟨⟩
    rfl
  · exact hwhole

end Reconnector

namespace Manager

theorem sendRequest_of_disconnected {manager : Manager}
    (hstatus : manager.status = .disconnected) (request : Request) (isSent : Bool) :
    manager.sendRequest request isSent = .error (.notConnected manager.config.target) := by
  simp [sendRequest, isConnected, hstatus]

end Manager

namespace Client

/-! ## One call after the other -/

/-- Whether a call begins at a moment, or an attempt of the reconnector. -/
def Moment.begins (moment : Moment) : Bool :=
  match moment.move with
  | .call _ | .attempt => true
  | _ => false

/-- Nothing begins before the last call or attempt is over. -/
def Orderly (moments : List Moment) : Prop :=
  ∀ moment ∈ moments, moment.begins = true → moment.client.Quiet

/-- The call that returns at a moment, having set the status. -/
def Moment.returned? (moment : Moment) : Option Call :=
  match moment.move, moment.client.callers moment.caller with
  | .set, .closing call => some call
  | _, _ => none

/-- Whether the application asks for a stream. -/
def Moment.asks (moment : Moment) : Bool :=
  match moment.move with
  | .call call => call.request?.isSome
  | _ => false

/-- The requests that are written to a stream at a moment. -/
def Moment.requests (moment : Moment) : List Request :=
  match moment.move, moment.client.callers moment.caller with
  | .dial dial _, .waiting call =>
    if moment.client.manager.status = .disconnected ∧ dial.opens = true then
      call.request?.toList
    else []
  | .detach, .waiting (.disconnect cluster address) =>
    if moment.client.manager.stream.isSome then [.leave ⟨cluster, address⟩] else []
  | _, _ => []

variable {config : ClientConfig} {client next last : Client} {caller : Nat} {move : Move}
  {moments : List Moment}

theorem callers_goTo (client : Client) (caller : Nat) (stage : Stage) :
    (client.goTo caller stage).callers caller = stage :=
  Function.update_self ..

theorem callers_goTo_of_ne {other : Nat} (hother : other ≠ caller) (client : Client)
    (stage : Stage) : (client.goTo caller stage).callers other = client.callers other :=
  Function.update_of_ne hother ..

theorem whole_step (hwhole : client.manager.reconnector.Whole)
    (hstep : Step caller client move next) : next.manager.reconnector.Whole := by
  cases turn_step hstep with
  | calmed _ _ _ hnext =>
      rw [hnext]
      exact Reconnector.whole_stop _
  | lost now _ _ _ _ hnext =>
      rw [hnext]
      exact hwhole.start now
  | set function _ _ _ _ hnext | kept _ _ _ _ hnext =>
      rw [hnext]
      exact hwhole

theorem whole_run (hrun : Run config moments client) : client.manager.reconnector.Whole := by
  induction hrun with
  | start => exact fun _ htask => by contradiction
  | step _ hstep ih => exact whole_step ih hstep

/-- What holds of a client whose callers take turns. -/
structure InTurn (client : Client) : Prop where
  single : ∀ first second, client.callers first ≠ .idle → client.callers second ≠ .idle →
    first = second
  detached : ∀ caller call, client.callers caller = .closing call →
    client.manager.stream = none
  stopped : ∀ caller, client.callers caller = .closing .stop →
    client.manager.reconnector.isRunning = false

theorem Quiet.inTurn (hquiet : client.Quiet) : client.InTurn where
  single := fun first _ hbusy => absurd (hquiet first) hbusy
  detached := by
    intro caller call hclosing
    rw [hquiet caller] at hclosing
    contradiction
  stopped := by
    intro caller hclosing
    rw [hquiet caller] at hclosing
    contradiction

/-- Whoever is not idle is the only one. -/
theorem InTurn.idle_of_ne (hturn : client.InTurn) (hbusy : client.callers caller ≠ .idle)
    {other : Nat} (hother : other ≠ caller) : client.callers other = .idle := by
  by_contra hidle
  exact hother (hturn.single other caller hidle hbusy)

/-- When the one call in progress is over, none is. -/
theorem InTurn.quiet_goTo (hturn : client.InTurn) (hbusy : client.callers caller ≠ .idle)
    (hcallers : next.callers = client.callers) : (next.goTo caller .idle).Quiet := by
  intro other
  by_cases hother : other = caller
  · rw [hother]
    exact next.callers_goTo caller .idle
  · rw [callers_goTo_of_ne hother, hcallers]
    exact hturn.idle_of_ne hbusy hother

theorem InTurn.goTo_of_idle (hidle : ∀ other, other ≠ caller → client.callers other = .idle)
    {stage : Stage}
    (hdetached : ∀ call, stage = .closing call → client.manager.stream = none)
    (hstopped : stage = .closing .stop → client.manager.reconnector.isRunning = false) :
    (client.goTo caller stage).InTurn := by
  have hothers : ∀ other, other ≠ caller →
      (client.goTo caller stage).callers other = .idle := by
    intro other hother
    rw [callers_goTo_of_ne hother]
    exact hidle other hother
  have hbusy : ∀ other, (client.goTo caller stage).callers other ≠ .idle → other = caller := by
    intro other hbusy
    by_contra hother
    exact hbusy (hothers other hother)
  have hself := client.callers_goTo caller stage
  constructor
  case single =>
    intro first second hfirst hsecond
    rw [hbusy first hfirst, hbusy second hsecond]
  case detached =>
    intro other call hclosing
    obtain rfl := hbusy other (by rw [hclosing]; exact Stage.noConfusion)
    exact hdetached call (hself.symm.trans hclosing)
  case stopped =>
    intro other hclosing
    obtain rfl := hbusy other (by rw [hclosing]; exact Stage.noConfusion)
    exact hstopped (hself.symm.trans hclosing)

/-- What nobody of the callers does leaves them in turn if it changes nothing while no stream
is held. -/
theorem InTurn.of_manager (hturn : client.InTurn) (hcallers : next.callers = client.callers)
    (hstream : client.manager.stream = none → next.manager.stream = none)
    (hrunning : client.manager.stream = none →
      next.manager.reconnector.isRunning = client.manager.reconnector.isRunning) :
    next.InTurn where
  single := by
    rw [hcallers]
    exact hturn.single
  detached := by
    intro caller call hclosing
    rw [hcallers] at hclosing
    exact hstream (hturn.detached caller call hclosing)
  stopped := by
    intro caller hclosing
    rw [hcallers] at hclosing
    rw [hrunning (hturn.detached caller .stop hclosing)]
    exact hturn.stopped caller hclosing

/-- While no stream is held, no reader is heard. -/
theorem generation_ne_of_none (hrun : Run config moments client)
    (hnone : client.manager.stream = none) {generation : Nat}
    (hopened : generation ∈ client.opened) : client.manager.generation ≠ generation := by
  intro hcurrent
  have hheld := ((sound_run hrun).reader generation hopened).2 hcurrent.symm
  rw [hnone] at hheld
  contradiction

theorem inTurn_step (hrun : Run config moments client) (hturn : client.InTurn)
    (hquiet : (⟨client, caller, move⟩ : Moment).begins = true → client.Quiet)
    (hstep : Step caller client move next) : next.InTurn := by
  have hbusy {stage : Stage} (hstage : client.callers caller = stage) (hne : stage ≠ .idle) :
      client.callers caller ≠ .idle := by
    rw [hstage]
    exact hne
  cases hstep with
  | call | attempt =>
      exact .goTo_of_idle (fun other _ => hquiet rfl other) (fun _ hclosing => by contradiction)
        (fun hclosing => by contradiction)
  | abort hwaiting =>
      exact (hturn.quiet_goTo (hbusy hwaiting Stage.noConfusion) rfl).inTurn
  | @dial call request dial now hwaiting =>
      exact (hturn.quiet_goTo (hbusy hwaiting Stage.noConfusion)
        (client.callers_dialed request dial now)).inTurn
  | ignore hwaiting =>
      have hover : ((client.detached false).goTo caller .idle).Quiet :=
        hturn.quiet_goTo (hbusy hwaiting Stage.noConfusion) rfl
      exact hover.inTurn
  | leave hwaiting =>
      have hidle (other : Nat) (hother : other ≠ caller) :
          (client.detached false).callers other = .idle :=
        hturn.idle_of_ne (hbusy hwaiting Stage.noConfusion) hother
      exact .goTo_of_idle hidle (fun _ _ => client.manager.stream_detach false)
        (fun hclosing => Call.noConfusion (Stage.closing.inj hclosing))
  | stop hwaiting =>
      have hidle (other : Nat) (hother : other ≠ caller) :
          (client.detached true).callers other = .idle :=
        hturn.idle_of_ne (hbusy hwaiting Stage.noConfusion) hother
      refine .goTo_of_idle hidle (fun _ _ => client.manager.stream_detach true) ?_
      intro _
      simp [detached, Manager.reconnector_detach]
  | set hclosing =>
      have hover :
          ({ client with manager := client.manager.markDisconnected }.goTo caller .idle).Quiet :=
        hturn.quiet_goTo (hbusy hclosing Stage.noConfusion) rfl
      exact hover.inTurn
  | @frame generation frame hopened =>
      have hunheard := fun hnone => Manager.receive_of_ne
        (generation_ne_of_none hrun hnone hopened) frame
      refine hturn.of_manager rfl ?_ ?_ <;> intro hnone <;> simp [hunheard hnone, hnone]
  | @ended generation now hopened =>
      have hunheard := fun hnone => Manager.streamEnded_of_ne
        (generation_ne_of_none hrun hnone hopened) now
      refine hturn.of_manager rfl ?_ ?_ <;> intro hnone <;>
        simp [Client.ended, hunheard hnone, hnone]
  | rejoin cluster address => exact hturn.of_manager rfl id (fun _ => rfl)

theorem inTurn_run (hrun : Run config moments client) (horderly : Orderly moments) :
    client.InTurn := by
  induction hrun with
  | start => exact Quiet.inTurn fun _ => rfl
  | step hrun hstep ih =>
      obtain ⟨hearlier, hlast⟩ := List.forall_mem_append.mp horderly
      exact inTurn_step hrun (ih hearlier) (List.forall_mem_singleton.mp hlast) hstep

/-! ## At rest -/

/-- Whether a client has nothing to do with any stream, now or of its own accord. -/
structure Resting (client : Client) : Prop where
  status : client.manager.status = .disconnected
  stream : client.manager.stream = none
  task : client.manager.reconnector.task = none
  unasked : ∀ caller call, client.callers caller = .waiting call → call.request? = none
  unheard : client.manager.generation ∉ client.opened

theorem Resting.goTo (hresting : client.Resting) {stage : Stage}
    (hstage : ∀ call, stage = .waiting call → call.request? = none) :
    (client.goTo caller stage).Resting where
  status := hresting.status
  stream := hresting.stream
  task := hresting.task
  unheard := hresting.unheard
  unasked := by
    intro other call hwaiting
    by_cases hother : other = caller
    · rw [hother, callers_goTo] at hwaiting
      exact hstage call hwaiting
    · rw [callers_goTo_of_ne hother] at hwaiting
      exact hresting.unasked other call hwaiting

theorem Resting.detached (hresting : client.Resting) (stopsReconnecting : Bool) :
    (client.detached stopsReconnecting).Resting := by
  obtain ⟨hstatus, hstream, hgeneration⟩ :=
    Manager.detach_of_none hresting.stream stopsReconnecting
  constructor
  case status => exact hstatus.trans hresting.status
  case stream => exact hstream
  case task =>
    simp only [Client.detached, Manager.reconnector_detach]
    split
    · rfl
    · exact hresting.task
  case unasked => exact hresting.unasked
  case unheard =>
    simp only [Client.detached, hgeneration]
    exact hresting.unheard

/-- Only the application gets a client out of its rest. -/
theorem Resting.step (hresting : client.Resting) (hstep : Step caller client move next)
    (hasks : (⟨client, caller, move⟩ : Moment).asks = false) :
    next.Resting ∧ next.opened = client.opened ∧
      (⟨client, caller, move⟩ : Moment).requests = [] := by
  cases hstep with
  | @call call =>
      refine ⟨hresting.goTo ?_, rfl, rfl⟩
      rintro _ ⟨⟩
      simpa [Moment.asks] using hasks
  | attempt _ htask =>
      rw [hresting.task] at htask
      contradiction
  | abort hwaiting =>
      have hnone := hresting.unasked _ _ hwaiting
      contradiction
  | dial _ _ hwaiting hrequest =>
      rw [hresting.unasked _ _ hwaiting] at hrequest
      contradiction
  | leave _ hheld => exact absurd hresting.stream hheld
  | ignore hwaiting hnone =>
      refine ⟨(hresting.detached false).goTo fun _ hstage => by contradiction, rfl, ?_⟩
      simp [Moment.requests, hwaiting, hnone]
  | stop hwaiting =>
      refine ⟨(hresting.detached true).goTo fun _ hstage => by contradiction, rfl, ?_⟩
      simp [Moment.requests, hwaiting]
  | set hclosing =>
      have hset : { client with manager := client.manager.markDisconnected }.Resting :=
        ⟨rfl, hresting.stream, hresting.task, hresting.unasked, hresting.unheard⟩
      exact ⟨hset.goTo fun _ hstage => by contradiction, rfl, rfl⟩
  | @frame generation frame hopened =>
      have hother : client.manager.generation ≠ generation :=
        fun hcurrent => hresting.unheard (hcurrent ▸ hopened)
      rw [Manager.receive_of_ne hother]
      exact ⟨hresting, rfl, rfl⟩
  | @ended generation now hopened =>
      have hother : client.manager.generation ≠ generation :=
        fun hcurrent => hresting.unheard (hcurrent ▸ hopened)
      simp only [Client.ended, Manager.streamEnded_of_ne hother, Manager.isCurrent, hother,
        decide_false, Bool.false_eq_true, if_false]
      exact ⟨hresting, trivial, rfl⟩
  | rejoin cluster address =>
      exact ⟨⟨hresting.status, hresting.stream, hresting.task, hresting.unasked,
        hresting.unheard⟩, rfl, rfl⟩

/-- What becomes of a client that is left alone. -/
structure Silent (client : Client) (later : List Moment) (last : Client) : Prop where
  status : last.manager.status = .disconnected
  stream : last.manager.stream = none
  opened : last.opened = client.opened
  unwritten : later.flatMap Moment.requests = []
  refuses : ∀ request isSent, last.manager.sendRequest request isSent =
    .error (.notConnected last.manager.config.target)

/-- The client is silent until the application asks for a stream. -/
def Final (client : Client) : Prop :=
  ∀ later last, client.Course later last → (∀ moment ∈ later, moment.asks = false) →
    client.Silent later last

theorem Resting.final (hresting : client.Resting) : client.Final := by
  intro later last hcourse hunasked
  suffices last.Resting ∧ last.opened = client.opened ∧
      later.flatMap Moment.requests = [] by
    obtain ⟨hrest, hopened, hunwritten⟩ := this
    exact ⟨hrest.status, hrest.stream, hopened, hunwritten,
      Manager.sendRequest_of_disconnected hrest.status⟩
  induction hcourse with
  | rest => exact ⟨hresting, rfl, rfl⟩
  | step _ hstep ih =>
      rw [List.forall_mem_append, List.forall_mem_singleton] at hunasked
      obtain ⟨hbefore, hsame, hnothing⟩ := ih hunasked.1
      obtain ⟨hrest, hopened, hunwritten⟩ := hbefore.step hstep hunasked.2
      refine ⟨hrest, hopened.trans hsame, ?_⟩
      rw [List.flatMap_append, hnothing, List.flatMap_singleton, hunwritten, List.append_nil]

/-! ## The next attempt -/

/-- Nobody has asked for it, and the client opens a stream and writes a request to it. -/
def Undone (client : Client) : Prop :=
  ∃ later last, client.Course later last ∧ Orderly later ∧
    (∀ moment ∈ later, moment.asks = false) ∧ last.manager.status = .connecting ∧
      last.opened = client.opened ++ [client.manager.generation + 1] ∧
      ∃ request, later.flatMap Moment.requests = [request]

theorem undone_of_task (hquiet : client.Quiet)
    (hstatus : client.manager.status = .disconnected) {task : Retry Rejoin}
    (htask : client.manager.reconnector.task = some task) : client.Undone := by
  have hfirst := Step.attempt (hquiet 0) htask
  have hcourse := Course.step .rest hfirst
  have hcourse := hcourse.step (.dial .accepted 0 (Function.update_self ..) rfl)
  refine ⟨_, _, hcourse, ?_, ?_, ?_, ?_, ?_⟩
  · intro moment hmoment hbegins
    rcases List.mem_cons.mp hmoment with rfl | hsecond
    · exact hquiet
    · obtain rfl := List.mem_singleton.mp hsecond
      contradiction
  · intro moment hmoment
    rcases List.mem_cons.mp hmoment with rfl | hsecond
    · rfl
    · rw [List.mem_singleton.mp hsecond]
      rfl
  · simp [goTo, Manager.openWith_of_disconnected hstatus, Manager.opened]
  · simp [goTo, dialed, hstatus]
  · exact ⟨.join ⟨task.function.cluster, task.function.address⟩,
      by simp [Moment.requests, goTo, hstatus, Dial.opens, Call.request?]⟩

theorem Undone.not_final (hundone : client.Undone) : ¬client.Final := by
  obtain ⟨later, last, hcourse, -, hunasked, -, hopened, -⟩ := hundone
  intro hfinal
  rw [(hfinal later last hcourse hunasked).opened] at hopened
  simp at hopened

/-! ## Parting -/

/-- When a call to part returns, only the reconnector can still do something. -/
theorem parted (hrun : Run config moments client) (horderly : Orderly moments)
    (hstep : Step caller client move next) {call : Call}
    (hreturned : (⟨client, caller, move⟩ : Moment).returned? = some call) :
    next.Quiet ∧ next.manager.status = .disconnected ∧ next.manager.stream = none ∧
      (call = .stop → next.manager.reconnector.isRunning = false) := by
  have hturn := inTurn_run hrun horderly
  cases hstep with
  | @set closing hclosing =>
      simp only [Moment.returned?, hclosing, Option.some.injEq] at hreturned
      subst hreturned
      have hbusy : client.callers caller ≠ .idle := by
        rw [hclosing]
        exact Stage.noConfusion
      have hover :
          ({ client with manager := client.manager.markDisconnected }.goTo caller .idle).Quiet :=
        hturn.quiet_goTo hbusy rfl
      refine ⟨hover, rfl, hturn.detached _ _ hclosing, ?_⟩
      rintro rfl
      exact hturn.stopped _ hclosing
  | _ => contradiction

theorem lostSince_of_returned {moment : Moment} {call : Call}
    (hreturned : moment.returned? = some call) :
    LostSince (moments ++ [moment]) ↔ LostSince moments := by
  obtain ⟨client, caller, move⟩ := moment
  cases move with
  | set => simp [lostSince_concat, Moment.lostAt?, Moment.calms]
  | _ => contradiction

/-- After a call to part, the reconnector has a task exactly if a stream had been lost, with
something to call, and no sign of a good one had followed. -/
theorem task_of_returned (hrun : Run config moments client)
    (hstep : Step caller client move next) {call : Call}
    (hreturned : (⟨client, caller, move⟩ : Moment).returned? = some call) :
    next.manager.reconnector.task.isSome = true ↔ LostSince moments := by
  have hlater := hrun.step hstep
  rw [← (whole_run hlater).isRunning_eq, ← lostSince_of_returned hreturned]
  exact isReconnecting_run hlater

theorem undone_of_returned (hrun : Run config moments client) (horderly : Orderly moments)
    (hstep : Step caller client move next) {call : Call}
    (hreturned : (⟨client, caller, move⟩ : Moment).returned? = some call)
    (hlost : LostSince moments) : next.Undone := by
  obtain ⟨hquiet, hstatus, -⟩ := parted hrun horderly hstep hreturned
  obtain ⟨task, htask⟩ :=
    Option.isSome_iff_exists.mp ((task_of_returned hrun hstep hreturned).mpr hlost)
  exact undone_of_task hquiet hstatus htask

/-! ## Between the calls -/

/-- What has been reached by calls and attempts that are all over. -/
structure Between (config : ClientConfig) (moments : List Moment) (client : Client) : Prop where
  run : Run config moments client
  orderly : Orderly moments
  quiet : client.Quiet

theorem orderly_concat {moment : Moment} (horderly : Orderly moments)
    (hquiet : moment.begins = true → moment.client.Quiet) : Orderly (moments ++ [moment]) :=
  List.forall_mem_append.mpr ⟨horderly, List.forall_mem_singleton.mpr hquiet⟩

theorem Quiet.goTo_goTo (hquiet : client.Quiet) {stage : Stage}
    (hcallers : next.callers = (client.goTo caller stage).callers) :
    (next.goTo caller .idle).Quiet := by
  intro other
  by_cases hother : other = caller
  · rw [hother, callers_goTo]
  · rw [callers_goTo_of_ne hother, hcallers, callers_goTo_of_ne hother]
    exact hquiet other

theorem Between.start : Between config [] (.start config) :=
  ⟨.start, fun _ hmoment => by contradiction, fun _ => rfl⟩

theorem Between.moved (hbetween : Between config moments client)
    (hstep : Step caller client move next) (hcallers : next.callers = client.callers) :
    Between config (moments ++ [⟨client, caller, move⟩]) next where
  run := hbetween.run.step hstep
  orderly := orderly_concat hbetween.orderly fun _ => hbetween.quiet
  quiet := by
    intro other
    rw [hcallers]
    exact hbetween.quiet other

/-- A call for a stream, or an attempt, and how the dialing ends. -/
theorem Between.asked (hbetween : Between config moments client) {call : Call}
    {request : Request} (hstep : Step caller client move (client.goTo caller (.waiting call)))
    (hrequest : call.request? = some request) (dial : Dial) (now : Nat) :
    Between config
      (moments ++ [⟨client, caller, move⟩] ++
        [⟨client.goTo caller (.waiting call), caller, .dial dial now⟩])
      (((client.goTo caller (.waiting call)).dialed request dial now).goTo caller .idle) where
  run := (hbetween.run.step hstep).step
    (.dial dial now (client.callers_goTo caller (.waiting call)) hrequest)
  orderly := by
    refine orderly_concat (orderly_concat hbetween.orderly fun _ => hbetween.quiet) ?_
    exact fun _ => by contradiction
  quiet := hbetween.quiet.goTo_goTo (callers_dialed ..)

/-- A call to disconnect closes the stream, and leaves the reconnector alone. -/
theorem Between.leaving (hbetween : Between config moments client) (cluster : String)
    (address : Address) (hheld : client.manager.stream ≠ none) :
    ∃ later current next, Run config (moments ++ later) current ∧ Orderly (moments ++ later) ∧
      Step 0 current .set next ∧
      (⟨current, 0, .set⟩ : Moment).returned? = some (.disconnect cluster address) ∧
      current.manager.isReconnecting = client.manager.isReconnecting := by
  have hcall := hbetween.run.step
    (@Step.call 0 client (.disconnect cluster address) (hbetween.quiet 0))
  have hdetach := hcall.step (.leave (client.callers_goTo 0 _) hheld)
  rw [List.append_assoc] at hdetach
  refine ⟨_, _, _, hdetach, ?_, .set (callers_goTo ..), ?_, ?_⟩
  · rw [← List.append_assoc]
    refine orderly_concat (orderly_concat hbetween.orderly fun _ => hbetween.quiet) ?_
    exact fun _ => by contradiction
  · simp [Moment.returned?, callers_goTo]
  · simp [goTo, detached, Manager.isReconnecting, Manager.reconnector_detach]

/-- A call to stop is final.  A call to disconnect that closed a stream is final exactly if the
reconnector does not run, that is, if no stream has been lost, with something to call, that no
sign of a good one has followed.  Otherwise the next attempt undoes it. -/
theorem parting_final_iff (hrun : Run config moments client) (horderly : Orderly moments)
    (hstep : Step caller client move next) {call : Call}
    (hreturned : (⟨client, caller, move⟩ : Moment).returned? = some call) :
    next.manager.status = .disconnected ∧ next.manager.stream = none ∧
      (call = .stop → next.Final) ∧ (next.Final ↔ ¬LostSince moments) ∧
      (LostSince moments → next.Undone) := by
  obtain ⟨hquiet, hstatus, hstream, hstopped⟩ := parted hrun horderly hstep hreturned
  have htask := task_of_returned hrun hstep hreturned
  have hundone := undone_of_returned hrun horderly hstep hreturned
  have hfinal (hkept : ¬LostSince moments) : next.Final := by
    have hnone : next.manager.reconnector.task = none := by
      rwa [← htask, Option.not_isSome_iff_eq_none] at hkept
    refine Resting.final ⟨hstatus, hstream, hnone, ?_, ?_⟩
    · intro other call hwaiting
      rw [hquiet other] at hwaiting
      contradiction
    · exact fun hopened => generation_ne_of_none (hrun.step hstep) hstream hopened rfl
  refine ⟨hstatus, hstream, ?_, ⟨?_, hfinal⟩, hundone⟩
  · intro hstop
    apply hfinal
    rw [← htask, ← (whole_run (hrun.step hstep)).isRunning_eq, hstopped hstop]
    exact Bool.false_ne_true
  · intro hfinal hlost
    exact (hundone hlost).not_final hfinal

/-- A client disconnects before it has got a view, its stream never having been lost. -/
theorem parting_final_iff_connecting :
    ∃ moments client next caller move,
      Run .default moments client ∧ Orderly moments ∧ Step caller client move next ∧
        (⟨client, caller, move⟩ : Moment).returned? =
          some (.disconnect "a" (.ofUuid ⟨0, 1⟩)) ∧ next.Final := by
  have hbetween : Between .default [] _ := .start
  have hbetween := hbetween.moved (@Step.rejoin 0 _ "a" (.ofUuid ⟨0, 1⟩)) rfl
  have hbetween := hbetween.asked (.call (hbetween.quiet 0))
    (rfl : (Call.connect "a" (.ofUuid ⟨0, 1⟩)).request? = _) .accepted 0
  obtain ⟨later, current, next, hrun, horderly, hstep, hreturned, hsame⟩ :=
    hbetween.leaving "a" (.ofUuid ⟨0, 1⟩) (by decide)
  refine ⟨_, current, next, 0, .set, hrun, horderly, hstep, hreturned, ?_⟩
  refine (parting_final_iff hrun horderly hstep hreturned).2.2.2.1.mpr ?_
  rw [← isReconnecting_run hrun, hsame]
  exact Bool.false_ne_true

/-- A stream is lost, an attempt opens another one, and the call to disconnect comes before
its first view. -/
theorem disconnect_not_final :
    ¬∀ (moments : List Moment) (client next : Client) (caller : Nat) (move : Move) (call : Call),
      Run .default moments client → Orderly moments → Step caller client move next →
        (⟨client, caller, move⟩ : Moment).returned? = some call → next.Final := by
  intro hall
  have hbetween : Between .default [] _ := .start
  have hbetween := hbetween.moved (@Step.rejoin 0 _ "a" (.ofUuid ⟨0, 1⟩)) rfl
  have hbetween := hbetween.asked (.call (hbetween.quiet 0))
    (rfl : (Call.connect "a" (.ofUuid ⟨0, 1⟩)).request? = _) .accepted 0
  have hbetween := hbetween.moved (@Step.ended 0 _ 1 7 (List.mem_singleton.mpr rfl)) rfl
  have hbetween := hbetween.asked (.attempt (hbetween.quiet 0) rfl) rfl .accepted 7
  obtain ⟨later, current, next, hrun, horderly, hstep, hreturned, hsame⟩ :=
    hbetween.leaving "a" (.ofUuid ⟨0, 1⟩) (by decide)
  have hlost := (isReconnecting_run hrun).mp (hsame.trans rfl)
  exact (undone_of_returned hrun horderly hstep hreturned hlost).not_final
    (hall _ _ _ _ _ _ hrun horderly hstep hreturned)

end Client

end Muster
