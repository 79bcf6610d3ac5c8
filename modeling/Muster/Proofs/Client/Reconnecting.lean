import Muster.Proofs.Client.Generations

/-!
# Lost means reconnecting

When a stream is lost, or none can be opened, the reconnector starts, as long as there is
something to call.  It is stopped by the first sign that a stream is good, which is a new
view or the acknowledgment of a view, and by a call to stop.  Nothing else starts or stops
it, and in particular not an attempt of its own that fails: that starts the reconnector
again while it runs, which has no effect.

The runs are those of any number of concurrent callers, and calls that complete one after
the other are among them.
-/

namespace Muster

namespace Reconnector

variable {φ : Type} {reconnector : Reconnector φ}

theorem start_of_running (hrunning : reconnector.isRunning = true) (now : Nat) :
    reconnector.start now = (false, reconnector) := by
  simp [start, hrunning]

theorem start_fst (reconnector : Reconnector φ) (now : Nat) :
    (reconnector.start now).1 = (!reconnector.isRunning && reconnector.function.isSome) := by
  unfold start
  cases reconnector.isRunning <;> cases reconnector.function <;> rfl

theorem isRunning_start (reconnector : Reconnector φ) (now : Nat) :
    (reconnector.start now).2.isRunning =
      (reconnector.isRunning || reconnector.function.isSome) := by
  unfold start
  cases hrunning : reconnector.isRunning <;> cases hfunction : reconnector.function <;>
    simp [isRunning] at hrunning ⊢ <;> simp [hrunning]

@[simp] theorem function_start (reconnector : Reconnector φ) (now : Nat) :
    (reconnector.start now).2.function = reconnector.function := by
  unfold start
  split <;> rfl

@[simp] theorem stop_fst (reconnector : Reconnector φ) :
    reconnector.stop.1 = reconnector.isRunning := by
  rfl

@[simp] theorem isRunning_stop (reconnector : Reconnector φ) :
    reconnector.stop.2.isRunning = false := by
  rfl

@[simp] theorem function_stop (reconnector : Reconnector φ) :
    reconnector.stop.2.function = reconnector.function := by
  rfl

@[simp] theorem isRunning_setFunction (reconnector : Reconnector φ) (function : φ) :
    (reconnector.setFunction function).isRunning = reconnector.isRunning := by
  rfl

end Reconnector

namespace Manager

/-- Whether a frame is a sign that the stream is good. -/
def heartens (manager : Manager) (generation : Nat) (frame : Frame) : Bool :=
  manager.isCurrent generation &&
    match Response.decode frame with
    | .ok (.view view) => manager.lastViewId < view.viewId
    | .ok .registerViewAck => true
    | _ => false

theorem receive_of_heartens {manager : Manager} {generation : Nat} {frame : Frame}
    (hheartens : manager.heartens generation frame = true) :
    (manager.receive generation frame).2.reconnector = manager.reconnector.stop.2 := by
  simp only [heartens, Bool.and_eq_true] at hheartens
  obtain ⟨hcurrent, hsign⟩ := hheartens
  unfold receive
  split at hsign
  next view hview =>
    have hnew : manager.lastViewId < view.viewId := by simpa using hsign
    simp [hview, establish, hcurrent, UInt64.not_le.mpr hnew]
  next hack => simp [hack, establish, hcurrent]
  · contradiction

theorem receive_of_not_heartens {manager : Manager} {generation : Nat} {frame : Frame}
    (hheartens : manager.heartens generation frame = false) :
    (manager.receive generation frame).2 = manager := by
  by_cases hcurrent : manager.isCurrent generation = true
  · rw [heartens, hcurrent, Bool.true_and] at hheartens
    unfold receive
    split
    · rfl
    next view hview =>
      have hstale : view.viewId ≤ manager.lastViewId := by simpa [hview] using hheartens
      simp [establish, hstale]
    · rfl
    next hack => simp [hack] at hheartens
    · rfl
  · have hother : manager.generation ≠ generation := by simpa [isCurrent] using hcurrent
    rw [receive_of_ne hother]

theorem reconnector_detach (manager : Manager) (stopsReconnecting : Bool) :
    (manager.detach stopsReconnecting).2.reconnector =
      if stopsReconnecting then manager.reconnector.stop.2 else manager.reconnector := by
  unfold detach
  cases stopsReconnecting <;> cases hstream : manager.stream <;> simp [hstream]

theorem connected_of_detach {manager : Manager} {stopsReconnecting : Bool}
    (hconnected : (manager.detach stopsReconnecting).2.status = .connected) :
    manager.status = .connected := by
  cases hstream : manager.stream with
  | none => rwa [(detach_of_none hstream stopsReconnecting).1] at hconnected
  | some generation =>
      rw [(detach_of_some hstream stopsReconnecting).1] at hconnected
      contradiction

end Manager

namespace Client

/-- When the stream is lost at a moment, or none can be opened, or the first request cannot
be sent. -/
def Moment.lostAt? (moment : Moment) : Option Nat :=
  match moment.move with
  | .ended generation now =>
    if moment.client.manager.isCurrent generation then some now else none
  | .dial dial now =>
    if moment.client.manager.status = .disconnected ∧ dial ≠ .accepted then some now else none
  | _ => none

/-- Whether a moment brings a sign that the stream is good, or a call to stop. -/
def Moment.calms (moment : Moment) : Bool :=
  match moment.move with
  | .frame generation frame => moment.client.manager.heartens generation frame
  | .detach =>
    match moment.client.callers moment.caller with
    | .waiting .stop => true
    | _ => false
  | _ => false

def Moment.sets (moment : Moment) : Bool :=
  match moment.move with
  | .rejoin _ _ => true
  | _ => false

def Moment.starts (moment : Moment) : Bool :=
  moment.lostAt?.any fun now => (moment.client.manager.reconnector.start now).1

def Moment.aborts (moment : Moment) : Bool :=
  moment.calms && moment.client.manager.reconnector.stop.1

variable {config : ClientConfig} {client next : Client} {caller : Nat} {move : Move}
  {moments : List Moment}

/-- What a moment does to the reconnector. -/
inductive Turn (moment : Moment) (next : Manager) : Prop
  | calmed (hcalms : moment.calms = true) (hlost : moment.lostAt? = none)
      (hsets : moment.sets = false)
      (hnext : next.reconnector = moment.client.manager.reconnector.stop.2)
  | lost (now : Nat) (hcalms : moment.calms = false) (hlost : moment.lostAt? = some now)
      (hsets : moment.sets = false) (hstatus : next.status = .disconnected)
      (hnext : next.reconnector = (moment.client.manager.reconnector.start now).2)
  | set (function : Rejoin) (hcalms : moment.calms = false) (hlost : moment.lostAt? = none)
      (hsets : moment.sets = true) (hstatus : next.status = moment.client.manager.status)
      (hnext : next.reconnector = moment.client.manager.reconnector.setFunction function)
  | kept (hcalms : moment.calms = false) (hlost : moment.lostAt? = none)
      (hsets : moment.sets = false)
      (hstatus : next.status = .connected → moment.client.manager.status = .connected)
      (hnext : next.reconnector = moment.client.manager.reconnector)

theorem turn_step (hstep : Step caller client move next) :
    Turn ⟨client, caller, move⟩ next.manager := by
  cases hstep with
  | call | attempt | abort => exact .kept rfl rfl rfl id rfl
  | set => exact .kept rfl rfl rfl (fun hconnected => by contradiction) rfl
  | rejoin cluster address => exact .set ⟨cluster, address⟩ rfl rfl rfl rfl rfl
  | @dial call request dial now =>
      by_cases hstatus : client.manager.status = .disconnected
      · cases dial with
        | refused | unanswered | broken =>
            refine .lost now rfl (by simp [Moment.lostAt?, hstatus]) rfl ?_ ?_ <;>
              simp [goTo, Manager.openWith_of_disconnected hstatus, Manager.transportError,
                Manager.opened]
        | accepted =>
            refine .kept rfl (by simp [Moment.lostAt?]) rfl ?_ ?_ <;>
              simp [goTo, Manager.openWith_of_disconnected hstatus, Manager.opened]
      · refine .kept rfl (by simp [Moment.lostAt?, hstatus]) rfl ?_ ?_ <;>
          simp [goTo, Manager.openWith_of_ne hstatus]
  | leave hwaiting | ignore hwaiting =>
      refine .kept (by simp [Moment.calms, hwaiting]) rfl rfl Manager.connected_of_detach ?_
      simp [goTo, detached, Manager.reconnector_detach]
  | stop hwaiting =>
      refine .calmed (by simp [Moment.calms, hwaiting]) rfl rfl ?_
      simp [goTo, detached, Manager.reconnector_detach]
  | @frame generation frame =>
      cases hheartens : client.manager.heartens generation frame with
      | true => exact .calmed hheartens rfl rfl (Manager.receive_of_heartens hheartens)
      | false =>
          refine .kept hheartens rfl rfl ?_ ?_ <;>
            simp [Manager.receive_of_not_heartens hheartens]
  | @ended generation now =>
      by_cases hcurrent : client.manager.isCurrent generation = true
      · refine .lost now rfl (by simp [Moment.lostAt?, hcurrent]) rfl ?_ ?_ <;>
          simp [Client.ended, Manager.streamEnded, hcurrent, Manager.transportError]
      · refine .kept rfl (by simp [Moment.lostAt?, hcurrent]) rfl ?_ ?_ <;>
          simp [Client.ended, Manager.streamEnded, hcurrent]

/-- Nothing else starts the reconnector, and nothing else stops it. -/
theorem isReconnecting_step (hstep : Step caller client move next) :
    next.manager.isReconnecting = true ↔
      (⟨client, caller, move⟩ : Moment).lostAt?.isSome = true ∧
          client.manager.reconnector.function.isSome = true ∨
        client.manager.isReconnecting = true ∧
          (⟨client, caller, move⟩ : Moment).calms = false := by
  unfold Manager.isReconnecting
  cases turn_step hstep with
  | calmed hcalms hlost _ hnext => simp [hcalms, hlost, hnext]
  | lost now hcalms hlost _ _ hnext =>
      simp [hcalms, hlost, hnext, Reconnector.isRunning_start, or_comm]
  | set function hcalms hlost _ _ hnext => simp [hcalms, hlost, hnext]
  | kept hcalms hlost _ _ hnext => simp [hcalms, hlost, hnext]

theorem not_reconnecting_of_connected_step
    (hquiet : client.manager.status = .connected → client.manager.isReconnecting = false)
    (hstep : Step caller client move next) (hconnected : next.manager.status = .connected) :
    next.manager.isReconnecting = false := by
  unfold Manager.isReconnecting at hquiet ⊢
  cases turn_step hstep with
  | calmed _ _ _ hnext => rw [hnext, Reconnector.isRunning_stop]
  | lost _ _ _ _ hstatus =>
      rw [hstatus] at hconnected
      contradiction
  | set function _ _ _ hstatus hnext =>
      rw [hnext, Reconnector.isRunning_setFunction]
      exact hquiet (hstatus.symm.trans hconnected)
  | kept _ _ _ hstatus hnext =>
      rw [hnext]
      exact hquiet (hstatus hconnected)

/-- As long as nothing calms the client, a task that runs is never replaced. -/
theorem task_step (hstep : Step caller client move next)
    (hrunning : client.manager.isReconnecting = true)
    (hcalms : (⟨client, caller, move⟩ : Moment).calms = false) :
    next.manager.reconnector.task = client.manager.reconnector.task := by
  cases turn_step hstep with
  | calmed hcalmed =>
      rw [hcalms] at hcalmed
      contradiction
  | lost _ _ _ _ _ hnext => rw [hnext, Reconnector.start_of_running hrunning]
  | set _ _ _ _ _ hnext =>
      rw [hnext]
      rfl
  | kept _ _ _ _ hnext => rw [hnext]

/-- The tasks that are started by a move and the one that ran before are as many as those
that are aborted and the one that runs now. -/
theorem tasks_step (hstep : Step caller client move next) :
    (⟨client, caller, move⟩ : Moment).starts.toNat + client.manager.isReconnecting.toNat =
      (⟨client, caller, move⟩ : Moment).aborts.toNat + next.manager.isReconnecting.toNat := by
  unfold Moment.starts Moment.aborts Manager.isReconnecting
  cases turn_step hstep with
  | calmed hcalms hlost _ hnext => simp [hcalms, hlost, hnext]
  | lost now hcalms hlost _ _ hnext =>
      -- A task is started if none runs, and only then.
      simp only [hcalms, hlost, hnext, Option.any_some, Bool.false_and,
        Reconnector.isRunning_start, Reconnector.start_fst]
      cases client.manager.reconnector.isRunning <;>
        cases client.manager.reconnector.function.isSome <;> rfl
  | set _ hcalms hlost _ _ hnext => simp [hcalms, hlost, hnext]
  | kept hcalms hlost _ _ hnext => simp [hcalms, hlost, hnext]

theorem function_step (hstep : Step caller client move next) :
    next.manager.reconnector.function.isSome =
      (client.manager.reconnector.function.isSome ||
        (⟨client, caller, move⟩ : Moment).sets) := by
  cases turn_step hstep with
  | calmed _ _ hsets hnext | lost _ _ _ hsets _ hnext | kept _ _ hsets _ hnext =>
      simp [hsets, hnext]
  | set _ _ _ hsets _ hnext => simp [hsets, hnext, Reconnector.setFunction]

/-! ## Whole runs -/

/-- Whether the client has lost its stream while there was something to call, and nothing
has calmed it since. -/
def LostSince (moments : List Moment) : Prop :=
  ∃ earlier moment later, moments = earlier ++ moment :: later ∧
    earlier.any Moment.sets = true ∧ moment.lostAt?.isSome = true ∧
    ∀ other ∈ later, other.calms = false

theorem not_lostSince_nil : ¬LostSince [] := by
  rintro ⟨earlier, moment, later, hsplit, -⟩
  simp at hsplit

theorem lostSince_concat {last : Moment} :
    LostSince (moments ++ [last]) ↔
      last.lostAt?.isSome = true ∧ moments.any Moment.sets = true ∨
        LostSince moments ∧ last.calms = false := by
  constructor
  · rintro ⟨earlier, moment, later, hsplit, hsets, hlost, hcalms⟩
    rcases List.eq_nil_or_concat' later with rfl | ⟨before, final, rfl⟩
    · obtain ⟨rfl, hlast⟩ := List.append_inj' hsplit rfl
      rw [List.singleton_inj.mp hlast]
      exact .inl ⟨hlost, hsets⟩
    · rw [← List.cons_append, ← List.append_assoc] at hsplit
      obtain ⟨rfl, hlast⟩ := List.append_inj' hsplit rfl
      rw [List.singleton_inj.mp hlast]
      rw [List.forall_mem_append, List.forall_mem_singleton] at hcalms
      exact .inr ⟨⟨earlier, moment, before, rfl, hsets, hlost, hcalms.1⟩, hcalms.2⟩
  · rintro (⟨hlost, hsets⟩ | ⟨⟨earlier, moment, later, rfl, hsets, hlost, hcalms⟩, hlast⟩)
    · exact ⟨moments, last, [], rfl, hsets, hlost, fun _ hother => by contradiction⟩
    · refine ⟨earlier, moment, later ++ [last], by simp, hsets, hlost, ?_⟩
      rw [List.forall_mem_append, List.forall_mem_singleton]
      exact ⟨hcalms, hlast⟩

theorem function_run (hrun : Run config moments client) :
    client.manager.reconnector.function.isSome = moments.any Moment.sets := by
  induction hrun with
  | start => rfl
  | step _ hstep ih => simp [function_step hstep, ih]

theorem isReconnecting_run (hrun : Run config moments client) :
    client.manager.isReconnecting = true ↔ LostSince moments := by
  induction hrun with
  | start => exact ⟨fun hrunning => by contradiction, fun hlost => absurd hlost not_lostSince_nil⟩
  | step hrun hstep ih =>
      rw [isReconnecting_step hstep, lostSince_concat, function_run hrun, ih]

theorem not_reconnecting_of_connected_run (hrun : Run config moments client) :
    client.manager.status = .connected → client.manager.isReconnecting = false := by
  induction hrun with
  | start => exact fun _ => rfl
  | step _ hstep ih => exact not_reconnecting_of_connected_step ih hstep

theorem tasks_run (hrun : Run config moments client) :
    moments.countP Moment.starts =
      moments.countP Moment.aborts + client.manager.isReconnecting.toNat := by
  induction hrun with
  | start => rfl
  | @step moments current next caller move _ hstep ih =>
      have hlast := tasks_step hstep
      simp only [List.countP_append, List.countP_singleton]
      cases hstarts : (⟨current, caller, move⟩ : Moment).starts <;>
        cases haborts : (⟨current, caller, move⟩ : Moment).aborts <;>
        simp [hstarts, haborts] at hlast ⊢ <;> omega

theorem Course.task_eq {last : Client} (hcourse : client.Course moments last)
    (hrunning : client.manager.isReconnecting = true)
    (hcalms : ∀ moment ∈ moments, moment.calms = false) :
    last.manager.reconnector.task = client.manager.reconnector.task := by
  induction hcourse with
  | rest => rfl
  | step _ hstep ih =>
      rw [List.forall_mem_append, List.forall_mem_singleton] at hcalms
      have hsame := ih hcalms.1
      rw [← hsame]
      apply task_step hstep _ hcalms.2
      rw [Manager.isReconnecting, Reconnector.isRunning, hsame]
      exact hrunning

/-- The reconnector runs exactly if the client has lost its stream, or could not open one,
while there was something to call, and has since got neither a new view nor the
acknowledgment of a view nor a call to stop; and it does not run while the client is
connected.  Until then it is the same task that runs, whatever attempts fail, and no task is
started before the one that ran has been aborted. -/
theorem reconnecting_iff_lost (hrun : Run config moments client) :
    (client.manager.status = .connected → client.manager.isReconnecting = false) ∧
      (client.manager.isReconnecting = true ↔ LostSince moments) ∧
      (∀ earlier moment later, moments = earlier ++ moment :: later →
        moment.client.manager.isReconnecting = true →
        (∀ other ∈ moment :: later, other.calms = false) →
        client.manager.reconnector.task = moment.client.manager.reconnector.task) ∧
      moments.countP Moment.starts =
        moments.countP Moment.aborts + client.manager.isReconnecting.toNat := by
  refine ⟨not_reconnecting_of_connected_run hrun, isReconnecting_run hrun, ?_, tasks_run hrun⟩
  rintro earlier moment later rfl hrunning hcalms
  rw [List.forall_mem_cons] at hcalms
  obtain ⟨-, next, hstep, hcourse⟩ := hrun.split
  have hstill := (isReconnecting_step hstep).mpr (.inr ⟨hrunning, hcalms.1⟩)
  rw [hcourse.task_eq hstill hcalms.2, task_step hstep hrunning hcalms.1]

/-- A first call to connect fails, and so does the attempt that follows it: the client goes on
reconnecting with the one task that was started. -/
theorem reconnecting_iff_lost_twice :
    ∃ moments client, Run .default moments client ∧
      (moments.filterMap Moment.lostAt?) = [0, 7] ∧
      client.manager.isReconnecting = true ∧ moments.countP Moment.starts = 1 := by
  have hrun := @Run.step .default _ _ _ 0 _ .start (.rejoin "a" (.ofUuid ⟨0, 1⟩))
  have hrun := @Run.step _ _ _ _ 0 (.call (.connect "a" (.ofUuid ⟨0, 1⟩))) hrun (.call rfl)
  have hrun := @Run.step _ _ _ _ 0 (.dial .refused 0) hrun (.dial .refused 0 rfl rfl)
  have hrun := @Run.step _ _ _ _ 1 .attempt hrun (.attempt rfl rfl)
  have hrun := @Run.step _ _ _ _ 1 (.dial .unanswered 7) hrun (.dial .unanswered 7 rfl rfl)
  obtain ⟨-, hlost, -, htasks⟩ := reconnecting_iff_lost hrun
  have hrunning := hlost.mpr ⟨[_, _], _, [_, _], rfl, rfl, rfl, by simp [Moment.calms]⟩
  exact ⟨_, _, hrun, rfl, hrunning, htasks.trans (by rw [hrunning]; rfl)⟩

end Client

end Muster
