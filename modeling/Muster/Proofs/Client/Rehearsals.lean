import Mathlib.Data.List.Induction
import Muster.Proofs.Client.Shifts
import Muster.Proofs.Registry.Table

/-!
# Rehearsals of a reconnector

In a rehearsal functions take a fixed time each, and their calls are counted.  Time passes in
spans, and what is due at the end of one is left for the next.  So a rehearsal goes through
the same orders as some run on the clock, and has counted the calls of that run.
-/

namespace Muster

namespace Reconnector

/-- Whether a shift is one of a rehearsal that has come to a moment. -/
def Shift.Rehearsed (shift : Shift Attempt) (moment : Nat) : Prop :=
  ∀ call ∈ shift.calls,
    call.time < shift.upTo moment ∧ call.takes = call.function.takes.millis

namespace Shift

variable {shift : Shift Attempt} {now moment : Nat}

theorem Rehearsed.stopped (hrehearsed : shift.Rehearsed now) (hopen : shift.stop = none) :
    Rehearsed { shift with stop := some now } now := by
  intro call hcall
  have hcall := hrehearsed call hcall
  rwa [upTo_of_open hopen] at hcall

theorem Rehearsed.called (hrehearsed : shift.Rehearsed moment) (hopen : shift.stop = none)
    (hbefore : now < moment) (function : Attempt) :
    Rehearsed
      { shift with calls := ⟨function, now, function.takes.millis⟩ :: shift.calls } moment := by
  have hend : now < shift.upTo moment := by
    rw [upTo_of_open hopen]
    exact hbefore
  exact List.forall_mem_cons.mpr ⟨⟨hend, rfl⟩, hrehearsed⟩

theorem Rehearsed.pass (hrehearsed : shift.Rehearsed now) (hlater : now ≤ moment) :
    shift.Rehearsed moment := by
  intro call hcall
  obtain ⟨htime, htakes⟩ := hrehearsed call hcall
  refine ⟨Nat.lt_of_lt_of_le htime ?_, htakes⟩
  cases hstop : shift.stop with
  | none =>
      rw [upTo_of_open hstop, upTo_of_open hstop]
      exact hlater
  | some stop => simp [upTo, hstop]

end Shift

end Reconnector

namespace Rehearsal

open Reconnector

/-- The number of calls of a function that some tasks have made. -/
def countIn (shifts : List (Shift Attempt)) (name : String) : Nat :=
  (shifts.flatMap Shift.calls).countP fun call => call.function.name = name

def act (rehearsal : Rehearsal) : Order Attempt ⊕ Duration → Rehearsal
  | .inl (.set attempt) =>
    { rehearsal with reconnector := rehearsal.reconnector.setFunction attempt }
  | .inl .start => rehearsal.start.2
  | .inl .stop => rehearsal.stop.2
  | .inr time => rehearsal.advance time

def rehearse (interval : Duration) (steps : List (Order Attempt ⊕ Duration)) : Rehearsal :=
  steps.foldl act (.idle interval)

/-- Whether a rehearsal, on its way to a moment, has come to the same as a run on the clock. -/
structure Mirrors (rehearsal : Rehearsal) (timeline : Timeline Attempt) (moment : Nat) :
    Prop where
  reconnector : timeline.reconnector = rehearsal.reconnector
  count : ∀ name, rehearsal.count name = countIn timeline.shifts name
  rehearsed : ∀ shift ∈ timeline.shifts, shift.Rehearsed moment
  set : ∀ function, timeline.reconnector.function = some function → function.breaksAt = none
  task : ∀ task, timeline.reconnector.task = some task → task.function.breaksAt = none

theorem count_call (rehearsal : Rehearsal) (task : Retry Attempt) (name : String) :
    (rehearsal.call task).count name =
      rehearsal.count name + if task.function.name = name then 1 else 0 := by
  by_cases hname : task.function.name = name
  · rw [if_pos hname]
    simp [count, call, hname]
  · rw [if_neg hname]
    have hother : name ≠ task.function.name := fun hsame => hname hsame.symm
    simp only [count, call, List.lookup_cons, beq_eq_false_iff_ne.mpr hother,
      lookup_erase_of_ne hother, Nat.add_zero]

variable {rehearsal : Rehearsal} {timeline : Timeline Attempt} {moment : Nat}
  {interval : Duration}

theorem Mirrors.pass (hmirrors : rehearsal.Mirrors timeline moment) {later : Nat}
    (hlater : moment ≤ later) : rehearsal.Mirrors timeline later :=
  ⟨hmirrors.reconnector, hmirrors.count,
    fun shift hshift => (hmirrors.rehearsed shift hshift).pass hlater, hmirrors.set, hmirrors.task⟩

theorem Mirrors.call (hmirrors : rehearsal.Mirrors timeline moment)
    (hkept : timeline.Kept interval) {task : Retry Attempt}
    (htask : rehearsal.reconnector.task = some task) (hbefore : task.due < moment) :
    (rehearsal.call task).Mirrors
      (({ timeline with now := task.due } : Timeline Attempt).call task
        task.function.takes.millis) moment := by
  have htimeline : timeline.reconnector.task = some task := by rw [hmirrors.reconnector, htask]
  obtain ⟨shift, rest, hshifts, hserves, -⟩ := hkept.busy task htimeline
  have hrehearsed := hmirrors.rehearsed
  rw [hshifts, List.forall_mem_cons] at hrehearsed
  have hunbroken := hmirrors.task task htimeline
  constructor
  · simp [Timeline.call, Rehearsal.call, hmirrors.reconnector, hunbroken, hserves.working]
  · intro name
    rw [count_call, hmirrors.count]
    simp only [Timeline.call, hshifts, List.modifyHead_cons, countIn, List.flatMap_cons,
      List.cons_append, List.countP_cons, decide_eq_true_eq, Nat.add_assoc]
  · simp only [Timeline.call, hshifts, List.modifyHead_cons]
    exact List.forall_mem_cons.mpr
      ⟨hrehearsed.1.called hserves.isOpen hbefore task.function, hrehearsed.2⟩
  · exact hmirrors.set
  · rintro other ⟨⟩
    exact hunbroken

/-- A rehearsal makes the calls that are due before a moment, and no others. -/
theorem Mirrors.callUntil (hpositive : 0 < interval.millis) {fuel : Nat}
    (hmirrors : rehearsal.Mirrors timeline moment) (hkept : timeline.Kept interval)
    (hbefore : timeline.now ≤ moment)
    (hfuel : ∀ task, rehearsal.reconnector.task = some task → moment < task.due + fuel) :
    ∃ moves last, Timeline.Run timeline moves last ∧ moves.filterMap Timeline.Move.order? = [] ∧
      (Rehearsal.callUntil moment fuel rehearsal).Mirrors last moment ∧ last.now ≤ moment ∧
      ∀ task, last.reconnector.task = some task → moment ≤ task.due := by
  -- Each call moves the time that is due by an interval at least, so the fuel is enough.
  induction fuel generalizing rehearsal timeline with
  | zero =>
      refine ⟨[], timeline, .start, rfl, hmirrors, hbefore, fun task htask => ?_⟩
      rw [hmirrors.reconnector] at htask
      exact Nat.le_of_lt (hfuel task htask)
  | succ fuel ih =>
      cases htask : rehearsal.reconnector.task with
      | none =>
          simp only [Rehearsal.callUntil, htask]
          refine ⟨[], timeline, .start, rfl, hmirrors, hbefore, fun task hsome => ?_⟩
          rw [hmirrors.reconnector, htask] at hsome
          contradiction
      | some task =>
          have htimeline : timeline.reconnector.task = some task := by
            rw [hmirrors.reconnector, htask]
          obtain ⟨_, _, -, hserves, -⟩ := hkept.busy task htimeline
          simp only [Rehearsal.callUntil, htask, hserves.working, Bool.false_eq_true, false_or]
          split
          next hdone =>
            refine ⟨[], timeline, .start, rfl, hmirrors, hbefore, fun other hother => ?_⟩
            rw [htimeline] at hother
            rwa [← Option.some.inj hother]
          next hdue =>
            have hdue : task.due < moment := Nat.lt_of_not_le hdue
            have hcall := hkept.run_to_due htimeline task.function.takes.millis
            have hnext : ∀ other, (rehearsal.call task).reconnector.task = some other →
                moment < other.due + fuel := by
              rintro other ⟨⟩
              have hfuel := hfuel task htask
              rw [← hmirrors.reconnector, hkept.pace]
              show moment < task.due + task.function.takes.millis + interval.millis + fuel
              omega
            obtain ⟨moves, last, hrun, horders, hmirrored, hnow, hlast⟩ :=
              ih (hmirrors.call hkept htask hdue) (hkept.run hcall) (Nat.le_of_lt hdue) hnext
            exact ⟨_, last, hcall.trans hrun, horders, hmirrored, hnow, hlast⟩

/-- Whether a rehearsal has come to the same as a run on the clock, at the same time. -/
structure Matches (rehearsal : Rehearsal) (timeline : Timeline Attempt) : Prop where
  now : timeline.now = rehearsal.now
  mirrors : rehearsal.Mirrors timeline rehearsal.now

theorem matches_idle (interval : Duration) :
    (Rehearsal.idle interval).Matches (Timeline.idle interval) := by
  refine ⟨rfl, rfl, fun name => rfl, List.forall_mem_nil _, ?_, ?_⟩
  · intro function hfunction
    contradiction
  · intro task htask
    contradiction

theorem Matches.advance (hpositive : 0 < interval.millis) (hmatches : rehearsal.Matches timeline)
    (hkept : timeline.Kept interval) (time : Duration) :
    ∃ moves last, Timeline.Run timeline moves last ∧ moves.filterMap Timeline.Move.order? = [] ∧
      (rehearsal.advance time).Matches last := by
  have hlater : rehearsal.now ≤ rehearsal.now + time.millis := Nat.le_add_right _ _
  have hfuel : ∀ task, rehearsal.reconnector.task = some task →
      rehearsal.now + time.millis < task.due + (time.millis + 1) := by
    intro task htask
    have hdue := hkept.now_le_due (hmatches.mirrors.reconnector ▸ htask)
    rw [hmatches.now] at hdue
    omega
  obtain ⟨moves, last, hrun, horders, hmirrors, hnow, hdue⟩ :=
    (hmatches.mirrors.pass hlater).callUntil hpositive hkept (hmatches.now ▸ hlater) hfuel
  refine ⟨moves ++ [.pass _], _, hrun.step (.pass hnow hdue), ?_, rfl, ?_⟩
  · rw [List.filterMap_append, horders]
    rfl
  · exact ⟨hmirrors.reconnector, hmirrors.count, hmirrors.rehearsed, hmirrors.set, hmirrors.task⟩

theorem Matches.set (hmatches : rehearsal.Matches timeline) {attempt : Attempt}
    (hunbroken : attempt.breaksAt = none) :
    (rehearsal.act (.inl (.set attempt))).Matches (timeline.obey (.set attempt)) := by
  obtain ⟨hnow, hreconnector, hcount, hrehearsed, -, htask⟩ := hmatches
  refine ⟨hnow, congrArg (Reconnector.setFunction · attempt) hreconnector, hcount, hrehearsed,
    ?_, htask⟩
  rintro function ⟨⟩
  exact hunbroken

theorem Matches.start (hmatches : rehearsal.Matches timeline) :
    (rehearsal.act (.inl .start)).Matches (timeline.obey .start) := by
  obtain ⟨hnow, hreconnector, hcount, hrehearsed, hset, htask⟩ := hmatches
  have hsame : (timeline.obey .start).reconnector =
      (rehearsal.act (.inl .start)).reconnector := by
    rw [Timeline.reconnector_obey_start, hnow, hreconnector]
    rfl
  rcases timeline.obey_start with ⟨-, hidle⟩ | ⟨function, -, hfunction, hnew⟩
  · rw [hidle] at hsame ⊢
    exact ⟨hnow, hsame, hcount, hrehearsed, hset, htask⟩
  · rw [hnew] at hsame ⊢
    refine ⟨hnow, hsame, hcount, ?_, hset, ?_⟩
    · exact List.forall_mem_cons.mpr ⟨List.forall_mem_nil _, hrehearsed⟩
    · rintro task ⟨⟩
      exact hset function hfunction

theorem Matches.stop (hmatches : rehearsal.Matches timeline) (hkept : timeline.Kept interval) :
    (rehearsal.act (.inl .stop)).Matches (timeline.obey .stop) := by
  obtain ⟨hnow, hreconnector, hcount, hrehearsed, hset, -⟩ := hmatches
  have hsame : timeline.reconnector.stop.2 = (rehearsal.act (.inl .stop)).reconnector := by
    rw [hreconnector]
    rfl
  cases htask : timeline.reconnector.task with
  | none =>
      rw [Timeline.obey_stop_of_idle (Timeline.isRunning_of_none htask)]
      refine ⟨hnow, hsame, hcount, hrehearsed, hset, fun task hsome => ?_⟩
      contradiction
  | some task =>
      obtain ⟨shift, rest, hshifts, hserves, -⟩ := hkept.busy task htask
      rw [hshifts, List.forall_mem_cons] at hrehearsed
      rw [Timeline.obey_stop_of_running (hkept.isRunning_of_some htask), hshifts,
        List.modifyHead_cons]
      rw [hshifts] at hcount
      refine ⟨hnow, hsame, hcount, ?_, hset, fun task hsome => ?_⟩
      · rw [hnow]
        exact List.forall_mem_cons.mpr ⟨hrehearsed.1.stopped hserves.isOpen, hrehearsed.2⟩
      · contradiction

/-- Every rehearsal is a run on the clock. -/
theorem exists_run (hpositive : 0 < interval.millis)
    {steps : List (Order Attempt ⊕ Duration)}
    (hunbroken : ∀ attempt, .inl (.set attempt) ∈ steps → attempt.breaksAt = none) :
    ∃ moves timeline, Timeline.Run (Timeline.idle interval) moves timeline ∧
      moves.filterMap Timeline.Move.order? = steps.filterMap Sum.getLeft? ∧
      (rehearse interval steps).Matches timeline := by
  induction steps using List.reverseRecOn with
  | nil => exact ⟨[], _, .start, rfl, matches_idle interval⟩
  | append_singleton steps step ih =>
      obtain ⟨moves, timeline, hrun, horders, hmatches⟩ :=
        ih fun attempt hmem => hunbroken attempt (List.mem_append_left _ hmem)
      have hkept := Timeline.kept_idle.run hrun
      rw [rehearse, List.foldl_append, ← rehearse]
      cases step with
      | inl order =>
          refine ⟨moves ++ [.order order], _, hrun.step (.order order), ?_, ?_⟩
          · rw [List.filterMap_append, List.filterMap_append, horders]
            rfl
          · cases order with
            | set attempt =>
                exact hmatches.set (hunbroken attempt (by simp))
            | start => exact hmatches.start
            | stop => exact hmatches.stop hkept
      | inr time =>
          obtain ⟨others, last, hlast, hnone, hmatched⟩ := hmatches.advance hpositive hkept time
          refine ⟨moves ++ others, last, hrun.trans hlast, ?_, hmatched⟩
          rw [List.filterMap_append, List.filterMap_append, horders, hnone]
          rfl

end Rehearsal

namespace Reconnector

/-- A reconnector has one task at most, which calls the function it was started with, for the
first time at once and then an interval after each call has completed, until it is stopped.
The rehearsals are runs of such a reconnector. -/
theorem one_steady_task {interval : Duration} (hpositive : 0 < interval.millis) :
    (∀ (φ : Type) (moves : List (Timeline.Move φ)) (timeline : Timeline φ),
        Timeline.Run (Timeline.idle interval) moves timeline →
          timeline.Steady interval moves) ∧
      ∀ steps : List (Order Attempt ⊕ Duration),
        (∀ attempt, .inl (.set attempt) ∈ steps → attempt.breaksAt = none) →
          ∃ moves timeline, Timeline.Run (Timeline.idle interval) moves timeline ∧
            moves.filterMap Timeline.Move.order? = steps.filterMap Sum.getLeft? ∧
            (Rehearsal.rehearse interval steps).Matches timeline :=
  ⟨fun _ _ _ hrun => Timeline.steady_run hpositive hrun,
    fun _ hunbroken => Rehearsal.exists_run hpositive hunbroken⟩

/-- A function that takes a while is called at the start, and 130 and 260 milliseconds later,
and not any more after the stop. -/
theorem one_steady_task_slow :
    0 < (⟨100⟩ : Duration).millis ∧
      ∃ moves timeline, Timeline.Run (Timeline.idle ⟨100⟩) moves timeline ∧
        timeline.Steady ⟨100⟩ moves ∧ timeline.now = 600 ∧
        Rehearsal.countIn timeline.shifts "a" = 3 := by
  have hpositive : 0 < (⟨100⟩ : Duration).millis := by decide
  obtain ⟨moves, timeline, hrun, -, hmatches⟩ := (one_steady_task hpositive).2
    [.inl (.set ⟨"a", ⟨30⟩, none⟩), .inl .start, .inr ⟨300⟩, .inl .stop, .inr ⟨300⟩] (by simp)
  refine ⟨hpositive, moves, timeline, hrun, (one_steady_task hpositive).1 _ _ _ hrun, ?_, ?_⟩
  · rw [hmatches.now]
    rfl
  · rw [← hmatches.mirrors.count]
    decide +kernel

/-- A function that takes no time is called at the start and after each interval. -/
example :
    (Rehearsal.rehearse ⟨100⟩ [.inl (.set ⟨"a", ⟨0⟩, none⟩), .inl .start, .inr ⟨350⟩,
      .inl .stop, .inr ⟨500⟩]).count "a" = 4 := by
  decide +kernel

end Reconnector

end Muster
