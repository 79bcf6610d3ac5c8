import Mathlib.Data.List.Basic
import Muster.Proofs.Client.Agreement

/-!
# The course of a client

From any state on, a client takes a course: one move after the other, by whichever
caller or reader it is made.  A run is a course from the creation of the client, and at
each of its moments it comes apart into the run so far, the move, and the course that
follows.

Along a course the generation only goes up.  A stream is entered among the opened ones
with a generation above all earlier ones, and it is never taken out again.
-/

namespace Muster

namespace Manager

theorem generation_le_openWith (manager : Manager) (request : Request) (dial : Dial)
    (now : Nat) : manager.generation ≤ (manager.openWith request dial now).2.generation := by
  by_cases hstatus : manager.status = .disconnected
  · rw [openWith_of_disconnected hstatus]
    cases dial with
    | refused | unanswered | accepted => exact Nat.le_succ _
    | broken => exact Nat.le_add_right _ 2
  · have hsame := openWith_of_ne hstatus request dial now
    exact Nat.le_of_eq (congrArg Manager.generation hsame.symm)

theorem generation_le_detach (manager : Manager) (stopsReconnecting : Bool) :
    manager.generation ≤ (manager.detach stopsReconnecting).2.generation := by
  cases hstream : manager.stream with
  | none => simp [detach_of_none hstream]
  | some generation => simp [detach_of_some hstream]

theorem generation_receive (manager : Manager) (generation : Nat) (frame : Frame) :
    (manager.receive generation frame).2.generation = manager.generation := by
  rcases manager.receive_cases generation frame with hsame | ⟨-, -, -, hgeneration⟩
  · rw [hsame]
  · exact hgeneration

theorem generation_le_streamEnded (manager : Manager) (generation now : Nat) :
    manager.generation ≤ (manager.streamEnded generation now).generation := by
  unfold streamEnded
  split
  · exact Nat.le_succ _
  · exact Nat.le_refl _

end Manager

namespace Client

/-- What can happen to a client from some state on. -/
inductive Course (client : Client) : List Moment → Client → Prop
  | rest : Course client [] client
  | step {moments : List Moment} {current next : Client} {caller : Nat} {move : Move}
      (hcourse : Course client moments current) (hstep : Step caller current move next) :
      Course client (moments ++ [⟨current, caller, move⟩]) next

variable {config : ClientConfig} {client next last : Client} {caller : Nat} {move : Move}
  {moments earlier later : List Moment}

/-- A run comes apart at each of its moments. -/
theorem Run.split {moment : Moment} (hrun : Run config (earlier ++ moment :: later) last) :
    Run config earlier moment.client ∧
      ∃ next, Step moment.caller moment.client moment.move next ∧ next.Course later last := by
  generalize hmoments : earlier ++ moment :: later = moments at hrun
  induction hrun generalizing later with
  | start => simp at hmoments
  | @step moments current next caller move hrun hstep ih =>
      rcases List.eq_nil_or_concat' later with rfl | ⟨before, final, rfl⟩
      · obtain ⟨rfl, hlast⟩ := List.append_inj' hmoments rfl
        obtain rfl : moment = ⟨current, caller, move⟩ := by simpa using hlast
        exact ⟨hrun, next, hstep, .rest⟩
      · rw [← List.cons_append, ← List.append_assoc] at hmoments
        obtain ⟨hbefore, hlast⟩ := List.append_inj' hmoments rfl
        obtain rfl : final = ⟨current, caller, move⟩ := by simpa using hlast
        obtain ⟨hearlier, middle, hfirst, hcourse⟩ := ih hbefore
        exact ⟨hearlier, middle, hfirst, .step hcourse hstep⟩

theorem Course.keeps {P : Client → Prop}
    (hkeeps : ∀ {current next caller move}, P current → Step caller current move next → P next)
    (hcourse : client.Course moments last) (hstart : P client) : P last := by
  induction hcourse with
  | rest => exact hstart
  | step _ hstep ih => exact hkeeps ih hstep

/-- The clients on the way are reached by courses of their own. -/
theorem Course.reaches {moment : Moment} (hcourse : client.Course moments last)
    (hmoment : moment ∈ moments) : ∃ sofar, client.Course sofar moment.client := by
  induction hcourse with
  | rest => contradiction
  | step hcourse _ ih =>
      rcases List.mem_append.mp hmoment with hearlier | hlast
      · exact ih hearlier
      · rw [List.mem_singleton.mp hlast]
        exact ⟨_, hcourse⟩

/-! ## Generations -/

@[simp] theorem manager_dialed (client : Client) (request : Request) (dial : Dial)
    (now : Nat) :
    (client.dialed request dial now).manager =
      (client.manager.openWith request dial now).2 := by
  unfold dialed
  split
  · cases dial <;> rfl
  · rfl

theorem generation_le_step (hstep : Step caller client move next) :
    client.manager.generation ≤ next.manager.generation := by
  cases hstep with
  | call | attempt | abort | set | rejoin => exact Nat.le_refl _
  | @dial call request dial now =>
      simp only [goTo, manager_dialed]
      exact client.manager.generation_le_openWith request dial now
  | leave | ignore => exact client.manager.generation_le_detach false
  | stop => exact client.manager.generation_le_detach true
  | @frame generation frame =>
      exact Nat.le_of_eq (client.manager.generation_receive generation frame).symm
  | @ended generation now => exact client.manager.generation_le_streamEnded generation now

theorem Course.generation_le (hcourse : client.Course moments last) :
    client.manager.generation ≤ last.manager.generation :=
  hcourse.keeps (P := fun current => client.manager.generation ≤ current.manager.generation)
    (fun hle hstep => Nat.le_trans hle (generation_le_step hstep)) (Nat.le_refl _)

/-- Nothing but an opening adds to the streams that were opened. -/
theorem opened_step (hstep : Step caller client move next) :
    next.opened = client.opened ∨
      next.opened = client.opened ++ [client.manager.generation + 1] := by
  cases hstep with
  | @dial call request dial now =>
      simp only [goTo, dialed]
      split
      · cases dial with
        | refused | unanswered => exact .inl rfl
        | broken | accepted => exact .inr rfl
      · exact .inl rfl
  | _ => exact .inl rfl

theorem opened_subset_step (hstep : Step caller client move next) :
    client.opened ⊆ next.opened := by
  rcases opened_step hstep with hsame | hadded
  · rw [hsame]
    exact List.Subset.refl _
  · rw [hadded]
    exact List.subset_append_left _ _

end Client

end Muster
