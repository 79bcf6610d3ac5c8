import Muster.Proofs.Client.Course

/-!
# Superseded streams

The reader of a stream goes on after the client has let go of the stream, and it may
report frames and its end at any time.  What it reports counts only while the generation
of the stream is the current one.

A generation is given to one stream only, and it is the current one exactly as long as the
stream is held.  Whatever takes the stream away from the client moves the generation on,
and the generation never comes back, so that from this moment on the reader is not heard.
-/

namespace Muster

/-- Whatever the reader of a stream reports, nothing changes and nobody is told. -/
structure Manager.Ignores (manager : Manager) (generation : Nat) : Prop where
  superseded : manager.isCurrent generation = false
  frame : ∀ frame, manager.receive generation frame = (none, manager)
  ended : ∀ now, manager.streamEnded generation now = manager

theorem Manager.establish_of_ne {manager : Manager} {generation : Nat}
    (hother : manager.generation ≠ generation) (viewId : Option UInt64) :
    manager.establish generation viewId = (false, manager) := by
  simp [establish, isCurrent, hother]

theorem Manager.receive_of_ne {manager : Manager} {generation : Nat}
    (hother : manager.generation ≠ generation) (frame : Frame) :
    manager.receive generation frame = (none, manager) := by
  unfold receive
  split <;> simp [establish_of_ne hother, isCurrent, hother]

theorem Manager.stream_detach (manager : Manager) (stopsReconnecting : Bool) :
    (manager.detach stopsReconnecting).2.stream = none := by
  cases hstream : manager.stream with
  | none => exact (detach_of_none hstream stopsReconnecting).2.1
  | some generation => exact (detach_of_some hstream stopsReconnecting).2.1

theorem Manager.ignores_of_ne {manager : Manager} {generation : Nat}
    (hother : manager.generation ≠ generation) : manager.Ignores generation where
  superseded := by simp [isCurrent, hother]
  frame := receive_of_ne hother
  ended := streamEnded_of_ne hother

namespace Client

/-- The streams that a move takes away from the client: the one that is held, when it is let
go, when it ends, or when another is dialed in its place, and one that breaks before its
first request has been sent. -/
def Moment.Detaches (moment : Moment) (generation : Nat) : Prop :=
  match moment.move with
  | .detach => moment.client.manager.stream = some generation
  | .ended reader _ => moment.client.manager.isCurrent reader = true ∧ reader = generation
  | .dial dial _ => moment.client.manager.status = .disconnected ∧
      (moment.client.manager.stream = some generation ∨
        dial = .broken ∧ moment.client.manager.generation + 1 = generation)
  | _ => False

variable {config : ClientConfig} {client next last : Client} {caller : Nat} {move : Move}
  {moments : List Moment} {generation : Nat}

theorem opened_sorted_step (hbound : ∀ generation ∈ client.opened,
      generation ≤ client.manager.generation)
    (hsorted : client.opened.Pairwise (· < ·)) (hstep : Step caller client move next) :
    next.opened.Pairwise (· < ·) := by
  rcases opened_step hstep with hsame | hadded
  · rw [hsame]
    exact hsorted
  · rw [hadded, List.pairwise_append]
    refine ⟨hsorted, List.pairwise_singleton _ _, ?_⟩
    intro earlier hearlier fresh hfresh
    rw [List.mem_singleton.mp hfresh]
    exact Nat.lt_succ_of_le (hbound earlier hearlier)

theorem opened_sorted_run (hrun : Run config moments client) :
    client.opened.Pairwise (· < ·) := by
  induction hrun with
  | start => exact .nil
  | step hrun hstep ih =>
      exact opened_sorted_step
        (fun generation hopened => ((sound_run hrun).reader generation hopened).1) ih hstep

theorem isCurrent_iff_held (hrun : Run config moments client)
    (hopened : generation ∈ client.opened) :
    client.manager.isCurrent generation = true ↔ client.manager.stream = some generation := by
  have hsound := sound_run hrun
  simp only [Manager.isCurrent, decide_eq_true_eq]
  constructor
  · intro hcurrent
    exact (hsound.reader generation hopened).2 hcurrent.symm
  · intro hheld
    exact (hsound.current generation hheld).symm

/-- A stream that is not held any more is not heard again. -/
theorem ignores_of_gone (hrun : Run config moments client)
    (hopened : generation ∈ client.opened) (hgone : client.manager.stream ≠ some generation)
    {later : List Moment} (hcourse : client.Course later last) :
    last.manager.Ignores generation := by
  apply Manager.ignores_of_ne
  intro hcurrent
  -- The generation would have to come back, and it only goes up.
  have hle := ((sound_run hrun).reader generation hopened).1
  have hlater := hcourse.generation_le
  have hsame : client.manager.isCurrent generation = true := by
    simp only [Manager.isCurrent, decide_eq_true_eq]
    omega
  exact hgone ((isCurrent_iff_held hrun hopened).mp hsame)

/-- Nothing but an opening makes the client hold a stream that it did not hold before. -/
theorem stream_step (hstep : Step caller client move next) :
    next.manager.stream = none ∨ next.manager.stream = client.manager.stream ∨
      next.manager.stream = some (client.manager.generation + 1) ∧
        client.manager.generation + 1 ∈ next.opened := by
  cases hstep with
  | call | attempt | abort | set | rejoin => exact .inr (.inl rfl)
  | @dial call request dial now =>
      by_cases hstatus : client.manager.status = .disconnected
      · cases dial <;>
          simp [goTo, dialed, hstatus, Manager.openWith_of_disconnected hstatus,
            Manager.transportError, Manager.opened]
      · simp [goTo, Manager.openWith_of_ne hstatus]
  | leave | ignore => exact .inl (client.manager.stream_detach false)
  | stop => exact .inl (client.manager.stream_detach true)
  | @frame generation frame =>
      rcases client.manager.receive_cases generation frame with hsame | ⟨-, -, hstream, -⟩
      · exact .inr (.inl (congrArg Manager.stream hsame))
      · exact .inr (.inl hstream)
  | @ended generation now =>
      simp only [Client.ended, Manager.streamEnded]
      split
      · exact .inl rfl
      · exact .inr (.inl rfl)

theorem mem_opened_of_held (hrun : Run config moments client)
    (hheld : client.manager.stream = some generation) : generation ∈ client.opened := by
  induction hrun with
  | start => contradiction
  | step _ hstep ih =>
      rcases stream_step hstep with hnone | hsame | ⟨hfresh, hopened⟩
      · rw [hnone] at hheld
        contradiction
      · rw [hsame] at hheld
        exact opened_subset_step hstep (ih hheld)
      · rw [hfresh] at hheld
        rw [← Option.some.inj hheld]
        exact hopened

theorem gone_of_detaches (hrun : Run config moments client)
    (hstep : Step caller client move next)
    (hdetaches : (⟨client, caller, move⟩ : Moment).Detaches generation) :
    generation ∈ next.opened ∧ next.manager.stream ≠ some generation := by
  have hheld : client.manager.stream = some generation → generation ∈ next.opened :=
    fun hheld => opened_subset_step hstep (mem_opened_of_held hrun hheld)
  cases hstep with
  | leave | ignore =>
      refine ⟨hheld hdetaches, ?_⟩
      simp [goTo, detached, Manager.stream_detach]
  | stop =>
      refine ⟨hheld hdetaches, ?_⟩
      simp [goTo, detached, Manager.stream_detach]
  | @ended reader now hopened =>
      obtain ⟨hcurrent, rfl⟩ := hdetaches
      refine ⟨hopened, ?_⟩
      simp [Client.ended, Manager.streamEnded, hcurrent, Manager.transportError]
  | @dial call request dial now =>
      obtain ⟨(hstatus : client.manager.status = .disconnected), hstream | ⟨rfl, rfl⟩⟩ :=
        hdetaches
      · refine ⟨hheld hstream, ?_⟩
        have hother : client.manager.generation + 1 ≠ generation := by
          rw [(sound_run hrun).current generation hstream]
          exact Nat.succ_ne_self _
        cases dial <;>
          simp [goTo, Manager.openWith_of_disconnected hstatus, Manager.transportError,
            Manager.opened, hother]
      · simp [goTo, dialed, hstatus, Manager.openWith_of_disconnected hstatus,
          Manager.transportError]
  | call | attempt | abort | set | frame | rejoin => exact hdetaches.elim

/-- No two streams share a generation, a stream is the current one exactly as long as it is
held, and whatever is reported for another generation changes nothing and is told to nobody.
Once a stream has been taken away from the client, that goes for all that its reader still
reports.  In sixty-four bits the generations are told apart as long as the counter has not
gone around. -/
theorem superseded_stream_is_inert (hrun : Run config moments client) :
    client.opened.Nodup ∧
      (∀ generation ∈ client.opened, client.manager.isCurrent generation = true ↔
        client.manager.stream = some generation) ∧
      (∀ generation, generation ≠ client.manager.generation →
        client.manager.Ignores generation) ∧
      (∀ earlier moment later, moments = earlier ++ moment :: later →
        ∀ generation, moment.Detaches generation →
          (∀ other ∈ later, other.client.manager.Ignores generation) ∧
            client.manager.Ignores generation) ∧
      (client.manager.generation < UInt64.size →
        ∀ generation ∈ client.opened, ∀ other ∈ client.manager.generation :: client.opened,
          generation.toUInt64 = other.toUInt64 → generation = other) := by
  refine ⟨?_, ?_, ?_, ?_, ?_⟩
  · exact (opened_sorted_run hrun).imp Nat.ne_of_lt
  · exact fun generation hopened => isCurrent_iff_held hrun hopened
  · exact fun generation hother => Manager.ignores_of_ne hother.symm
  · rintro earlier moment later rfl generation hdetaches
    obtain ⟨hearlier, next, hstep, hcourse⟩ := hrun.split
    obtain ⟨hopened, hgone⟩ := gone_of_detaches hearlier hstep hdetaches
    have hnext := Run.step hearlier hstep
    refine ⟨fun other hother => ?_, ignores_of_gone hnext hopened hgone hcourse⟩
    obtain ⟨sofar, hreached⟩ := hcourse.reaches hother
    exact ignores_of_gone hnext hopened hgone hreached
  · intro hfits generation hopened other hother hsame
    have hvalue : ∀ number ∈ client.manager.generation :: client.opened,
        number.toUInt64.toNat = number := by
      intro number hnumber
      apply UInt64.toNat_ofNat_of_lt'
      rcases List.mem_cons.mp hnumber with rfl | hnumber
      · exact hfits
      · exact Nat.lt_of_le_of_lt ((sound_run hrun).reader number hnumber).1 hfits
    rw [← hvalue generation (List.mem_cons_of_mem _ hopened), hsame, hvalue other hother]

/-- The first stream ends and another one is opened, and the reader of the first one has
still something to report. -/
theorem superseded_stream_is_inert_reopened :
    ∃ moments client, Run .default moments client ∧ client.opened = [1, 3] ∧
      client.manager.stream = some 3 ∧ client.manager.isCurrent 3 = true ∧
      client.manager.Ignores 1 := by
  have hrun := @Run.step .default _ _ _ 0 (.call (.connect "a" (.ofUuid ⟨0, 1⟩))) .start
    (.call rfl)
  have hrun := @Run.step _ _ _ _ 0 (.dial .accepted 0) hrun (.dial .accepted 0 rfl rfl)
  have hrun := @Run.step _ _ _ _ 0 (.ended 1 0) hrun (.ended 0 List.mem_cons_self)
  have hrun := @Run.step _ _ _ _ 0 (.call (.connect "a" (.ofUuid ⟨0, 1⟩))) hrun (.call rfl)
  have hrun := @Run.step _ _ _ _ 0 (.dial .accepted 0) hrun (.dial .accepted 0 rfl rfl)
  obtain ⟨-, hheld, -, hdetached, -⟩ := superseded_stream_is_inert hrun
  exact ⟨_, _, hrun, rfl, rfl, (hheld 3 (by decide)).mpr rfl,
    (hdetached [_, _] _ [_, _] rfl 1 ⟨rfl, rfl⟩).2⟩

end Client

end Muster
