import Mathlib.Data.List.Infix
import Mathlib.Data.List.Nodup
import Muster.Proofs.Client.Reconnecting

/-!
# One task at a time, and a steady one

A reconnector is told to take a function, to start and to stop, and in between time passes.
A task calls its function when a call is due, and however long the call takes, the next one
is due an interval after it has completed.  Nothing that is due is passed over; whether a
call that is due at a moment or what the reconnector is told at that moment comes first is
left open.

What each task does between its start and its stop is its shift.
-/

namespace Muster

namespace Reconnector

/-! ## Shifts -/

structure Call (φ : Type) where
  function : φ
  time : Nat
  /-- how long the function takes to complete -/
  takes : Nat

/-- What a task does from its start to its stop. -/
structure Shift (φ : Type) where
  /-- the function that is set when the task starts -/
  function : φ
  start : Nat
  /-- the calls, the latest first -/
  calls : List (Call φ)
  stop : Option Nat

/-- When the next call is due after some. -/
def dueAfter {φ : Type} (interval start : Nat) : List (Call φ) → Nat
  | [] => start
  | call :: _ => call.time + call.takes + interval

/-- Whether each call begins when it is due. -/
def OnTime {φ : Type} (interval start : Nat) : List (Call φ) → Prop
  | [] => True
  | call :: earlier => call.time = dueAfter interval start earlier ∧ OnTime interval start earlier

section Shifts

variable {φ : Type} {interval start : Nat} {calls : List (Call φ)}

/-- If the function takes no time, its calls are an interval apart. -/
theorem times_of_instant (hontime : OnTime interval start calls)
    (hinstant : ∀ call ∈ calls, call.takes = 0) :
    calls.map Call.time =
        ((List.range calls.length).map fun number => start + number * interval).reverse ∧
      dueAfter interval start calls = start + calls.length * interval := by
  induction calls with
  | nil => simp [dueAfter]
  | cons call earlier ih =>
      rw [List.forall_mem_cons] at hinstant
      obtain ⟨htimes, hdue⟩ := ih hontime.2 hinstant.2
      have htime := hontime.1.trans hdue
      constructor
      · rw [List.map_cons, htimes, htime, List.length_cons, List.range_succ, List.map_append,
          List.reverse_append]
        rfl
      · rw [dueAfter, hinstant.1, htime, List.length_cons, Nat.succ_mul]
        omega

end Shifts

namespace Shift

variable {φ : Type}

/-- Until when a shift has lasted by now. -/
def upTo (shift : Shift φ) (now : Nat) : Nat :=
  shift.stop.getD now

def isOpen (shift : Shift φ) : Bool :=
  shift.stop.isNone

/-- What is required of a task that has worked until now. -/
structure Steady (shift : Shift φ) (interval now : Nat) : Prop where
  function : ∀ call ∈ shift.calls, call.function = shift.function
  onTime : OnTime interval shift.start shift.calls
  within : ∀ call ∈ shift.calls, call.time ≤ shift.upTo now
  complete : shift.upTo now ≤ dueAfter interval shift.start shift.calls
  lasts : shift.start ≤ shift.upTo now
  past : shift.upTo now ≤ now

/-- If the function takes no time, then until the end there is one call at each multiple of
the interval from the start on, and there are no others. -/
theorem Steady.count_times {shift : Shift φ} {interval now : Nat}
    (hsteady : shift.Steady interval now) (hpositive : 0 < interval)
    (hinstant : ∀ call ∈ shift.calls, call.takes = 0) :
    (∀ number, shift.start + number * interval < shift.upTo now →
        (shift.calls.map Call.time).count (shift.start + number * interval) = 1) ∧
      ∀ call ∈ shift.calls, ∃ number, call.time = shift.start + number * interval := by
  obtain ⟨htimes, hdue⟩ := times_of_instant hsteady.onTime hinstant
  constructor
  · intro number hbefore
    have hlater := Nat.lt_of_lt_of_le hbefore hsteady.complete
    rw [hdue, Nat.add_lt_add_iff_left] at hlater
    have hapart : Function.Injective fun number => shift.start + number * interval := by
      intro one other hsame
      exact Nat.eq_of_mul_eq_mul_right hpositive (Nat.add_left_cancel hsame)
    rw [htimes, List.count_reverse]
    refine List.count_eq_one_of_mem (List.nodup_range.map hapart) ?_
    exact List.mem_map_of_mem (List.mem_range.mpr (Nat.lt_of_mul_lt_mul_right hlater))
  · intro call hcall
    have hmem := List.mem_map_of_mem (f := Call.time) hcall
    rw [htimes, List.mem_reverse] at hmem
    obtain ⟨number, -, htime⟩ := List.mem_map.mp hmem
    exact ⟨number, htime.symm⟩

section Steady

variable {shift : Shift φ} {interval now : Nat}

theorem upTo_of_open (hopen : shift.stop = none) (now : Nat) : shift.upTo now = now := by
  rw [upTo, hopen, Option.getD_none]

theorem steady_opened (function : φ) (interval now : Nat) :
    Steady ⟨function, now, [], none⟩ interval now :=
  ⟨List.forall_mem_nil _, trivial, List.forall_mem_nil _, Nat.le_refl _, Nat.le_refl _,
    Nat.le_refl _⟩

theorem Steady.stopped (hsteady : shift.Steady interval now) (hopen : shift.stop = none) :
    Steady { shift with stop := some now } interval now := by
  have hnow := upTo_of_open hopen now
  have hwithin := hsteady.within
  have hcomplete := hsteady.complete
  have hlasts := hsteady.lasts
  rw [hnow] at hwithin hcomplete hlasts
  exact ⟨hsteady.function, hsteady.onTime, hwithin, hcomplete, hlasts, Nat.le_refl _⟩

theorem Steady.called (hsteady : shift.Steady interval now) (hopen : shift.stop = none)
    (hdue : now = dueAfter interval shift.start shift.calls) (takes : Nat) :
    Steady { shift with calls := ⟨shift.function, now, takes⟩ :: shift.calls } interval
      now := by
  have hnow := upTo_of_open hopen now
  constructor
  · exact List.forall_mem_cons.mpr ⟨rfl, hsteady.function⟩
  · exact ⟨hdue, hsteady.onTime⟩
  · exact List.forall_mem_cons.mpr ⟨Nat.le_of_eq hnow.symm, hsteady.within⟩
  · have hafter : now ≤ now + takes + interval :=
      Nat.le_add_right_of_le (Nat.le_add_right _ _)
    exact Nat.le_trans (Nat.le_of_eq hnow) hafter
  · exact hsteady.lasts
  · exact hsteady.past

theorem Steady.pass (hsteady : shift.Steady interval now) {moment : Nat} (hlater : now ≤ moment)
    (hdue : shift.stop = none → moment ≤ dueAfter interval shift.start shift.calls) :
    shift.Steady interval moment := by
  obtain ⟨hfunction, hontime, hwithin, hcomplete, hlasts, hpast⟩ := hsteady
  cases hstop : shift.stop with
  | none =>
      rw [upTo_of_open hstop] at hwithin hlasts
      have hmoment := upTo_of_open hstop moment
      constructor
      · exact hfunction
      · exact hontime
      · intro call hcall
        rw [hmoment]
        exact Nat.le_trans (hwithin call hcall) hlater
      · rw [hmoment]
        exact hdue hstop
      · rw [hmoment]
        exact Nat.le_trans hlasts hlater
      · exact Nat.le_of_eq hmoment
  | some stop =>
      have hsame : shift.upTo moment = shift.upTo now := by simp [upTo, hstop]
      rw [← hsame] at hwithin hcomplete hlasts hpast
      exact ⟨hfunction, hontime, hwithin, hcomplete, hlasts, Nat.le_trans hpast hlater⟩

end Steady

end Shift

/-! ## A reconnector on a clock -/

/-- What a reconnector is told. -/
inductive Order (φ : Type)
  | set (function : φ)
  | start
  | stop

/-- A reconnector, the time, and what its tasks have done, the latest task first. -/
structure Timeline (φ : Type) where
  reconnector : Reconnector φ
  now : Nat
  shifts : List (Shift φ)

namespace Timeline

variable {φ : Type}

def obey (timeline : Timeline φ) : Order φ → Timeline φ
  | .set function => { timeline with reconnector := timeline.reconnector.setFunction function }
  | .start =>
    match timeline.reconnector.start timeline.now, timeline.reconnector.function with
    | (true, reconnector), some function =>
      { timeline with
        reconnector
        shifts := ⟨function, timeline.now, [], none⟩ :: timeline.shifts }
    | (_, reconnector), _ => { timeline with reconnector }
  | .stop =>
    match timeline.reconnector.stop with
    | (true, reconnector) =>
      { timeline with
        reconnector
        shifts := timeline.shifts.modifyHead ({ · with stop := some timeline.now }) }
    | (false, reconnector) => { timeline with reconnector }

/-- The task calls its function, which completes after some time. -/
def call (timeline : Timeline φ) (task : Retry φ) (takes : Nat) : Timeline φ :=
  let due := task.due + takes + timeline.reconnector.interval.millis
  { timeline with
    reconnector := { timeline.reconnector with task := some { task with due } }
    shifts := timeline.shifts.modifyHead fun shift =>
      { shift with calls := ⟨task.function, timeline.now, takes⟩ :: shift.calls } }

inductive Move (φ : Type)
  | order (order : Order φ)
  | call (takes : Nat)
  | pass (moment : Nat)

inductive Step : Timeline φ → Move φ → Timeline φ → Prop
  | order {timeline : Timeline φ} (order : Order φ) :
      Step timeline (.order order) (timeline.obey order)
  | call {timeline : Timeline φ} {task : Retry φ} (takes : Nat)
      (htask : timeline.reconnector.task = some task) (hdue : task.due = timeline.now) :
      Step timeline (.call takes) (timeline.call task takes)
  /-- time passes up to the next call that is due, at most -/
  | pass {timeline : Timeline φ} {moment : Nat} (hlater : timeline.now ≤ moment)
      (hdue : ∀ task, timeline.reconnector.task = some task → moment ≤ task.due) :
      Step timeline (.pass moment) { timeline with now := moment }

inductive Run (first : Timeline φ) : List (Move φ) → Timeline φ → Prop
  | start : Run first [] first
  | step {moves : List (Move φ)} {timeline next : Timeline φ} {move : Move φ}
      (hrun : Run first moves timeline) (hstep : Step timeline move next) :
      Run first (moves ++ [move]) next

def idle (interval : Duration) : Timeline φ :=
  ⟨.idle interval, 0, []⟩

/-! ## What a run keeps -/

/-- Whether a task is at work on a shift. -/
structure Serves (task : Retry φ) (interval : Nat) (shift : Shift φ) : Prop where
  isOpen : shift.stop = none
  working : task.isBroken = false
  function : task.function = shift.function
  due : task.due = dueAfter interval shift.start shift.calls

/-- What holds of a reconnector and the shifts of its tasks. -/
structure Kept (interval : Duration) (timeline : Timeline φ) : Prop where
  pace : timeline.reconnector.interval = interval
  idle : timeline.reconnector.task = none → ∀ shift ∈ timeline.shifts, shift.isOpen = false
  busy : ∀ task, timeline.reconnector.task = some task →
    ∃ shift ended, timeline.shifts = shift :: ended ∧ Serves task interval.millis shift ∧
      ∀ other ∈ ended, other.isOpen = false
  steady : ∀ shift ∈ timeline.shifts, shift.Steady interval.millis timeline.now

variable {interval : Duration} {timeline next : Timeline φ} {moves : List (Move φ)}

theorem Run.trans {first : Timeline φ} {later : List (Move φ)} (hrun : Run first moves timeline)
    (hlater : Run timeline later next) : Run first (moves ++ later) next := by
  induction hlater with
  | start => simpa using hrun
  | @step _ _ _ move _ hstep ih =>
      rw [← List.append_assoc]
      exact ih.step hstep

theorem kept_idle : (idle interval : Timeline φ).Kept interval := by
  constructor
  · rfl
  · exact fun _ => List.forall_mem_nil _
  · intro task htask
    contradiction
  · exact List.forall_mem_nil _

theorem isRunning_of_none (htask : timeline.reconnector.task = none) :
    timeline.reconnector.isRunning = false := by
  rw [Reconnector.isRunning, htask]
  rfl

theorem Kept.isRunning_of_some (hkept : timeline.Kept interval) {task : Retry φ}
    (htask : timeline.reconnector.task = some task) : timeline.reconnector.isRunning = true := by
  obtain ⟨shift, ended, -, hserves, -⟩ := hkept.busy task htask
  simp [Reconnector.isRunning, htask, hserves.working]

theorem Kept.isRunning (hkept : timeline.Kept interval) :
    timeline.reconnector.isRunning = timeline.shifts.any Shift.isOpen := by
  cases htask : timeline.reconnector.task with
  | none =>
      rw [isRunning_of_none htask, List.any_eq_false.mpr]
      exact fun shift hshift => Bool.eq_false_iff.mp (hkept.idle htask shift hshift)
  | some task =>
      obtain ⟨shift, ended, hshifts, hserves, -⟩ := hkept.busy task htask
      simp [Reconnector.isRunning, htask, hserves.working, hshifts, Shift.isOpen, hserves.isOpen]

theorem Kept.countP_isOpen (hkept : timeline.Kept interval) :
    timeline.shifts.countP Shift.isOpen ≤ 1 := by
  cases htask : timeline.reconnector.task with
  | none =>
      rw [List.countP_eq_zero.mpr]
      · exact Nat.zero_le 1
      · exact fun shift hshift => Bool.eq_false_iff.mp (hkept.idle htask shift hshift)
  | some task =>
      obtain ⟨shift, ended, hshifts, -, hended⟩ := hkept.busy task htask
      have hnone : ended.countP Shift.isOpen = 0 :=
        List.countP_eq_zero.mpr fun other hother => Bool.eq_false_iff.mp (hended other hother)
      rw [hshifts, List.countP_cons, hnone]
      split <;> omega

theorem reconnector_obey_start (timeline : Timeline φ) :
    (timeline.obey .start).reconnector = (timeline.reconnector.start timeline.now).2 := by
  simp only [obey]
  split
  next hstarted _ => rw [hstarted]
  next hstarted _ => rw [hstarted]

theorem reconnector_obey_stop (timeline : Timeline φ) :
    (timeline.obey .stop).reconnector = timeline.reconnector.stop.2 := by
  simp only [obey]
  split
  next hstopped => rw [hstopped]
  next hstopped => rw [hstopped]

/-- A start begins a shift with the function that is set, unless one is under way. -/
theorem obey_start (timeline : Timeline φ) :
    (timeline.reconnector.start timeline.now).1 = false ∧ timeline.obey .start = timeline ∨
      ∃ function, timeline.reconnector.isRunning = false ∧
        timeline.reconnector.function = some function ∧
        timeline.obey .start =
          { timeline with
            reconnector :=
              { timeline.reconnector with task := some ⟨function, timeline.now, false⟩ }
            shifts := ⟨function, timeline.now, [], none⟩ :: timeline.shifts } := by
  cases hrunning : timeline.reconnector.isRunning with
  | true =>
      left
      simp [obey, start_of_running hrunning]
  | false =>
      cases hfunction : timeline.reconnector.function with
      | none =>
          left
          simp [obey, Reconnector.start, hfunction]
      | some function =>
          right
          exact ⟨function, rfl, rfl, by simp [obey, Reconnector.start, hrunning, hfunction]⟩

theorem Kept.start (hkept : timeline.Kept interval) : (timeline.obey .start).Kept interval := by
  rcases timeline.obey_start with ⟨-, hsame⟩ | ⟨function, hrunning, -, hnew⟩
  · rw [hsame]
    exact hkept
  · rw [hnew]
    constructor
    · exact hkept.pace
    · intro hnone
      contradiction
    · rintro task ⟨⟩
      refine ⟨_, _, rfl, ⟨rfl, rfl, rfl, rfl⟩, ?_⟩
      rw [hkept.isRunning, List.any_eq_false] at hrunning
      exact fun other hother => Bool.eq_false_iff.mpr (hrunning other hother)
    · exact List.forall_mem_cons.mpr ⟨Shift.steady_opened _ _ _, hkept.steady⟩

theorem obey_stop_of_idle (hrunning : timeline.reconnector.isRunning = false) :
    timeline.obey .stop = { timeline with reconnector := timeline.reconnector.stop.2 } := by
  simp [obey, Reconnector.stop, hrunning]

theorem obey_stop_of_running (hrunning : timeline.reconnector.isRunning = true) :
    timeline.obey .stop =
      { timeline with
        reconnector := timeline.reconnector.stop.2
        shifts := timeline.shifts.modifyHead ({ · with stop := some timeline.now }) } := by
  simp [obey, Reconnector.stop, hrunning]

theorem Kept.stop (hkept : timeline.Kept interval) : (timeline.obey .stop).Kept interval := by
  cases htask : timeline.reconnector.task with
  | none =>
      rw [obey_stop_of_idle (isRunning_of_none htask)]
      refine ⟨hkept.pace, fun _ => hkept.idle htask, ?_, hkept.steady⟩
      intro task hsome
      contradiction
  | some task =>
      obtain ⟨shift, ended, hshifts, hserves, hended⟩ := hkept.busy task htask
      have hsteady := hkept.steady
      rw [hshifts, List.forall_mem_cons] at hsteady
      rw [obey_stop_of_running (hkept.isRunning_of_some htask), hshifts, List.modifyHead_cons]
      constructor
      · exact hkept.pace
      · exact fun _ => List.forall_mem_cons.mpr ⟨rfl, hended⟩
      · intro task hsome
        contradiction
      · exact List.forall_mem_cons.mpr ⟨hsteady.1.stopped hserves.isOpen, hsteady.2⟩

/-- A call is made on the latest shift, which is the open one. -/
theorem Kept.call (hkept : timeline.Kept interval) {task : Retry φ}
    (htask : timeline.reconnector.task = some task) (hdue : task.due = timeline.now)
    (takes : Nat) : (timeline.call task takes).Kept interval := by
  obtain ⟨shift, ended, hshifts, hserves, hended⟩ := hkept.busy task htask
  have hsteady := hkept.steady
  rw [hshifts, List.forall_mem_cons] at hsteady
  simp only [Timeline.call, hshifts, List.modifyHead_cons]
  constructor
  · exact hkept.pace
  · intro hnone
    contradiction
  · rintro other ⟨⟩
    refine ⟨_, _, rfl, ⟨hserves.isOpen, hserves.working, hserves.function, ?_⟩, hended⟩
    rw [hdue, hkept.pace]
    rfl
  · rw [hserves.function]
    refine List.forall_mem_cons.mpr ⟨?_, hsteady.2⟩
    exact hsteady.1.called hserves.isOpen (hdue.symm.trans hserves.due) takes

theorem Kept.pass (hkept : timeline.Kept interval) {moment : Nat} (hlater : timeline.now ≤ moment)
    (hdue : ∀ task, timeline.reconnector.task = some task → moment ≤ task.due) :
    ({ timeline with now := moment } : Timeline φ).Kept interval := by
  refine ⟨hkept.pace, hkept.idle, hkept.busy, fun shift hshift => ?_⟩
  refine (hkept.steady shift hshift).pass hlater fun hopen => ?_
  -- The task at work is on this very shift, since all others have ended.
  cases htask : timeline.reconnector.task with
  | none =>
      have hended := hkept.idle htask shift hshift
      simp [Shift.isOpen, hopen] at hended
  | some task =>
      obtain ⟨current, ended, hshifts, hserves, hended⟩ := hkept.busy task htask
      rw [hshifts] at hshift
      rcases List.mem_cons.mp hshift with rfl | hother
      · rw [← hserves.due]
        exact hdue task htask
      · have hclosed := hended shift hother
        simp [Shift.isOpen, hopen] at hclosed

theorem Kept.now_le_due (hkept : timeline.Kept interval) {task : Retry φ}
    (htask : timeline.reconnector.task = some task) : timeline.now ≤ task.due := by
  obtain ⟨shift, rest, hshifts, hserves, -⟩ := hkept.busy task htask
  have hsteady := hkept.steady
  rw [hshifts, List.forall_mem_cons] at hsteady
  rw [hserves.due, ← Shift.upTo_of_open hserves.isOpen timeline.now]
  exact hsteady.1.complete

theorem Kept.step {move : Move φ} (hkept : timeline.Kept interval)
    (hstep : Step timeline move next) : next.Kept interval := by
  cases hstep with
  | order order =>
      cases order with
      | set function => exact ⟨hkept.pace, hkept.idle, hkept.busy, hkept.steady⟩
      | start => exact hkept.start
      | stop => exact hkept.stop
  | call takes htask hdue => exact hkept.call htask hdue takes
  | pass hlater hdue => exact hkept.pass hlater hdue

theorem Kept.run (hkept : timeline.Kept interval) (hrun : Run timeline moves next) :
    next.Kept interval := by
  induction hrun with
  | start => exact hkept
  | step _ hstep ih => exact ih.step hstep

/-! ## What a run says -/

def Move.order? : Move φ → Option (Order φ)
  | .order told => some told
  | .call _ | .pass _ => none

def Move.set? : Move φ → Option φ
  | .order (.set function) => some function
  | .order .start | .order .stop | .call _ | .pass _ => none

/-- The function that is set after some moves. -/
def lastSet (moves : List (Move φ)) : Option φ :=
  moves.reverse.findSome? Move.set?

/-- The shifts that are over. -/
def ended (timeline : Timeline φ) : List (Shift φ) :=
  timeline.shifts.filter (!·.isOpen)

theorem function_step {move : Move φ} (hstep : Step timeline move next) :
    next.reconnector.function = move.set?.or timeline.reconnector.function := by
  cases hstep with
  | order order =>
      cases order with
      | set function => rfl
      | start =>
          rw [reconnector_obey_start, function_start]
          rfl
      | stop =>
          rw [reconnector_obey_stop, function_stop]
          rfl
  | call | pass => rfl

theorem function_run (hrun : Run (idle interval) moves timeline) :
    timeline.reconnector.function = lastSet moves := by
  induction hrun with
  | start => rfl
  | @step moves timeline next move _ hstep ih =>
      rw [function_step hstep, ih, lastSet, lastSet, List.reverse_append, List.reverse_singleton,
        List.singleton_append, List.findSome?_cons]
      cases move.set? <;> rfl

/-- What a task has done by its stop is all that it ever does. -/
theorem Kept.ended_step {move : Move φ} (hkept : timeline.Kept interval)
    (hstep : Step timeline move next) : timeline.ended <:+ next.ended := by
  cases hstep with
  | order order =>
      cases order with
      | set function => exact List.suffix_rfl
      | start =>
          rcases timeline.obey_start with ⟨-, hsame⟩ | ⟨function, -, -, hnew⟩
          · rw [hsame]
          · rw [hnew]
            exact List.suffix_rfl
      | stop =>
          cases htask : timeline.reconnector.task with
          | none =>
              rw [obey_stop_of_idle (isRunning_of_none htask)]
              exact List.suffix_rfl
          | some task =>
              obtain ⟨shift, rest, hshifts, hserves, -⟩ := hkept.busy task htask
              have hended : timeline.ended = rest.filter (!·.isOpen) := by
                simp [Timeline.ended, hshifts, Shift.isOpen, hserves.isOpen]
              rw [obey_stop_of_running (hkept.isRunning_of_some htask), hended, Timeline.ended,
                hshifts, List.modifyHead_cons, List.filter_cons_of_pos rfl]
              exact List.suffix_cons _ _
  | @call task takes htask hdue =>
      obtain ⟨shift, rest, hshifts, hserves, -⟩ := hkept.busy task htask
      have hsame : (timeline.call task takes).ended = timeline.ended := by
        simp [Timeline.ended, Timeline.call, hshifts, Shift.isOpen, hserves.isOpen]
      rw [hsame]
  | pass hlater hdue => exact List.suffix_rfl

/-- Shifts that are over stay as they are, and others come before them. -/
theorem Kept.ended_run (hkept : timeline.Kept interval) (hrun : Run timeline moves next) :
    timeline.ended <:+ next.ended := by
  induction hrun with
  | start => exact List.suffix_rfl
  | step hrun hstep ih => exact ih.trans ((hkept.run hrun).ended_step hstep)

/-- The clock goes on to the time at which a call is due, and the call is made. -/
theorem Kept.run_to_due (hkept : timeline.Kept interval) {task : Retry φ}
    (htask : timeline.reconnector.task = some task) (takes : Nat) :
    Run timeline [.pass task.due, .call takes]
      (({ timeline with now := task.due } : Timeline φ).call task takes) := by
  have hpass : timeline.Step (.pass task.due) { timeline with now := task.due } := by
    refine .pass (hkept.now_le_due htask) fun other hother => ?_
    rw [htask] at hother
    exact Nat.le_of_eq (congrArg Retry.due (Option.some.inj hother))
  exact (Run.start.step hpass).step (.call takes htask rfl)

/-- Time can go on to any moment, without the reconnector being told anything. -/
theorem Kept.goesOn (hkept : timeline.Kept interval) (hpositive : 0 < interval.millis)
    {moment : Nat} (hlater : timeline.now ≤ moment) (gap : Nat)
    (hgap : ∀ task, timeline.reconnector.task = some task → moment < task.due + gap) :
    ∃ moves next, Run timeline moves next ∧ moves.filterMap Move.order? = [] ∧
      next.now = moment := by
  -- Each call moves the time that is due by an interval at least.
  induction gap generalizing timeline with
  | zero =>
      have hdue : ∀ task, timeline.reconnector.task = some task → moment ≤ task.due :=
        fun task htask => Nat.le_of_lt (hgap task htask)
      exact ⟨_, _, .step .start (.pass hlater hdue), rfl, rfl⟩
  | succ gap ih =>
      by_cases hdue : ∀ task, timeline.reconnector.task = some task → moment ≤ task.due
      · exact ⟨_, _, .step .start (.pass hlater hdue), rfl, rfl⟩
      · push Not at hdue
        obtain ⟨task, htask, hbefore⟩ := hdue
        have hcall := hkept.run_to_due htask 0
        obtain ⟨moves, next, hrun, horders, hnow⟩ :=
          ih (hkept.run hcall) (Nat.le_of_lt hbefore) (by
            rintro other ⟨⟩
            have hgap := hgap task htask
            rw [hkept.pace]
            show moment < task.due + 0 + interval.millis + gap
            omega)
        exact ⟨_, next, hcall.trans hrun, horders, hnow⟩

/-- What a reconnector and its tasks have come to by some moves. -/
structure Steady (interval : Duration) (moves : List (Move φ)) (timeline : Timeline φ) :
    Prop where
  atMostOne : timeline.shifts.countP Shift.isOpen ≤ 1
  isRunning : timeline.reconnector.isRunning = timeline.shifts.any Shift.isOpen
  start : (timeline.reconnector.start timeline.now).1 = true ↔
    (∀ shift ∈ timeline.shifts, shift.isOpen = false) ∧ (lastSet moves).isSome
  /-- a task that starts has the function that is set -/
  opens : (timeline.reconnector.start timeline.now).1 = true → ∃ function,
    lastSet moves = some function ∧
      (timeline.obey .start).shifts = ⟨function, timeline.now, [], none⟩ :: timeline.shifts
  stop : timeline.reconnector.stop.1 = true ↔ ∃ shift ∈ timeline.shifts, shift.isOpen = true
  shifts : ∀ shift ∈ timeline.shifts, shift.Steady interval.millis timeline.now
  /-- if the function takes no time, there has been one call at each multiple of the interval
  from the start on, and no other call -/
  instant : ∀ shift ∈ timeline.shifts, (∀ call ∈ shift.calls, call.takes = 0) →
    (∀ number, shift.start + number * interval.millis < shift.upTo timeline.now →
        (shift.calls.map Call.time).count (shift.start + number * interval.millis) = 1) ∧
      ∀ call ∈ shift.calls, ∃ number, call.time = shift.start + number * interval.millis
  /-- a task that has been stopped does nothing any more -/
  ended : ∀ later next, Run timeline later next → timeline.ended <:+ next.ended
  goesOn : ∀ moment, timeline.now ≤ moment → ∃ later next, Run timeline later next ∧
    later.filterMap Move.order? = [] ∧ next.now = moment

theorem steady_run (hpositive : 0 < interval.millis) (hrun : Run (idle interval) moves timeline) :
    timeline.Steady interval moves := by
  have hkept := kept_idle.run hrun
  constructor
  case atMostOne => exact hkept.countP_isOpen
  case isRunning => exact hkept.isRunning
  case start =>
    rw [start_fst, hkept.isRunning, function_run hrun]
    simp
  case opens =>
    intro hstarts
    rcases timeline.obey_start with ⟨hfails, -⟩ | ⟨function, -, hfunction, hnew⟩
    · rw [hfails] at hstarts
      contradiction
    · refine ⟨function, ?_, by rw [hnew]⟩
      rw [← function_run hrun, hfunction]
  case stop =>
    rw [stop_fst, hkept.isRunning]
    simp
  case shifts => exact hkept.steady
  case instant =>
    exact fun shift hshift hinstant => (hkept.steady shift hshift).count_times hpositive hinstant
  case ended => exact fun later next hlater => hkept.ended_run hlater
  case goesOn =>
    intro moment hlater
    refine hkept.goesOn hpositive hlater (moment + 1) fun task _ => ?_
    exact Nat.lt_of_lt_of_le (Nat.lt_succ_self moment) (Nat.le_add_left _ _)

end Timeline

end Reconnector

end Muster
