import Muster.Proofs.Relay.Eviction
import Muster.Proofs.Sessions
import Muster.Relay.Effort

/-!
# The course of work

Work that is done until nothing is left to do takes a course: one step after the
other, each in the state that the last one left.  Every work has a course, as the
effort grows less with each step, and the course ends where `Relay.finish` does.
What a step keeps is therefore kept by the whole course, and courses can be taken
apart and put together like the work they are courses of.
-/

namespace Muster

/-! ## Delivering -/

theorem sessions_deliver_cons (frame : Frame) (recipient : Recipient)
    (recipients : List Recipient) (sessions : Sessions) :
    (deliver frame (recipient :: recipients) sessions).sessions =
      (deliver frame recipients
        (sessions.put ((sessions.get recipient.session).send frame).1)).sessions :=
  rfl

theorem isClosed_deliver (frame : Frame) (recipients : List Recipient) (sessions : Sessions)
    (id : SessionId) :
    ((deliver frame recipients sessions).sessions.get id).isClosed =
      (sessions.get id).isClosed := by
  induction recipients generalizing sessions with
  | nil => rfl
  | cons recipient recipients ih =>
      rw [sessions_deliver_cons, ih, Sessions.get_put_send]
      split
      · exact Session.isClosed_send _ frame
      · rfl

theorem sound_deliver {sessions : Sessions} {id : SessionId} (hsound : (sessions.get id).Sound)
    (frame : Frame) (recipients : List Recipient) :
    ((deliver frame recipients sessions).sessions.get id).Sound := by
  induction recipients generalizing sessions with
  | nil => exact hsound
  | cons recipient recipients ih =>
      rw [sessions_deliver_cons]
      apply ih
      rw [Sessions.get_put_send]
      split
      · exact hsound.send frame
      · exact hsound

theorem received_prefix_deliver (frame : Frame) (recipients : List Recipient)
    (sessions : Sessions) (id : SessionId) :
    (sessions.get id).received <+:
      ((deliver frame recipients sessions).sessions.get id).received := by
  induction recipients generalizing sessions with
  | nil => exact List.prefix_rfl
  | cons recipient recipients ih =>
      rw [sessions_deliver_cons]
      refine List.IsPrefix.trans ?_ (ih _)
      rw [Sessions.get_put_send]
      split
      · exact Session.received_prefix_send _ frame
      · exact List.prefix_rfl

/-- A recipient whose write has not failed has the frame. -/
theorem mem_received_deliver {frame : Frame} {recipients : List Recipient}
    {sessions : Sessions} (hreached : unreached frame recipients sessions = [])
    {recipient : Recipient} (hrecipient : recipient ∈ recipients) :
    .message frame ∈
      ((deliver frame recipients sessions).sessions.get recipient.session).received := by
  induction recipients generalizing sessions with
  | nil => contradiction
  | cons first recipients ih =>
      simp only [unreached] at hreached
      cases hresult : ((sessions.get first.session).send frame).2 with
      | error fault =>
          rw [hresult] at hreached
          contradiction
      | ok done =>
          rw [hresult] at hreached
          rw [sessions_deliver_cons]
          rcases List.mem_cons.mp hrecipient with rfl | hrest
          · apply (received_prefix_deliver frame recipients _ recipient.session).subset
            rw [Sessions.get_put_send, if_pos rfl]
            exact Session.mem_received_send hresult
          · exact ih hreached hrest

theorem not_sound_of_mem_unreached {frame : Frame} {recipients : List Recipient}
    {sessions : Sessions} {recipient : Recipient}
    (hunreached : recipient ∈ unreached frame recipients sessions) :
    ¬(sessions.get recipient.session).Sound := by
  induction recipients generalizing sessions with
  | nil => contradiction
  | cons first recipients ih =>
      intro hsound
      have hstays : ((sessions.put ((sessions.get first.session).send frame).1).get
          recipient.session).Sound := by
        rw [Sessions.get_put_send]
        split
        · exact hsound.send frame
        · exact hsound
      simp only [unreached] at hunreached
      cases hresult : ((sessions.get first.session).send frame).2 with
      | ok done =>
          rw [hresult] at hunreached
          exact ih hunreached hstays
      | error fault =>
          rw [hresult] at hunreached
          rcases List.mem_cons.mp hunreached with rfl | hrest
          · rw [hsound.send_ok frame] at hresult
            contradiction
          · exact ih hrest hstays

namespace Relay

/-- Where sessions are closed, nothing is written. -/
theorem received_close (relay : Relay) (sessions : List SessionId) (id : SessionId) :
    ((relay.step (.close sessions)).relay.sessions.get id).received =
      (relay.sessions.get id).received := by
  cases sessions with
  | nil => rfl
  | cons session others =>
      simp only [step, Sessions.get_close]
      split
      · exact Session.received_close _
      · rfl

/-! ## Courses -/

/-- The steps that some work takes until nothing is left to do, and where it ends. -/
inductive Course : Relay → List Work → List (Relay × Work) → Relay → Prop
  | rest (relay : Relay) : Course relay [] [] relay
  | step {relay last : Relay} {work : Work} {others : List Work} {steps : List (Relay × Work)}
      (hrest : Course (relay.step work).relay ((relay.step work).next ++ others) steps last) :
      Course relay (work :: others) ((relay, work) :: steps) last

theorem Course.eq_finish {relay last : Relay} {work : List Work}
    {steps : List (Relay × Work)} (hcourse : relay.Course work steps last) :
    last = (relay.finish work).1 := by
  induction hcourse with
  | rest relay => rw [finish_nil]
  | step hrest ih => rw [finish_cons, ih]

theorem exists_course (relay : Relay) (work : List Work) :
    ∃ steps, relay.Course work steps (relay.finish work).1 := by
  induction heffort : relay.effort work using Nat.strongRecOn generalizing relay work with
  | ind effort ih =>
      subst heffort
      cases work with
      | nil =>
          refine ⟨[], ?_⟩
          rw [finish_nil]
          exact .rest relay
      | cons work others =>
          obtain ⟨steps, hrest⟩ := ih _ (relay.effort_next_lt work others) _ _ rfl
          refine ⟨(relay, work) :: steps, ?_⟩
          rw [finish_cons]
          exact .step hrest

theorem Course.append {relay middle last : Relay} {work others : List Work}
    {earlier later : List (Relay × Work)} (hfirst : relay.Course work earlier middle)
    (hsecond : middle.Course others later last) :
    relay.Course (work ++ others) (earlier ++ later) last := by
  induction hfirst with
  | rest => exact hsecond
  | step hrest ih =>
      rw [List.append_assoc] at ih
      exact .step (ih hsecond)

/-- What every step keeps, the whole course keeps. -/
theorem Course.keeps {P : Relay → List Work → Prop}
    (hstep : ∀ relay work others, P relay (work :: others) →
      P (relay.step work).relay ((relay.step work).next ++ others))
    {relay last : Relay} {work : List Work} {steps : List (Relay × Work)}
    (hcourse : relay.Course work steps last) (hstart : P relay work) : P last [] := by
  induction hcourse with
  | rest => exact hstart
  | step hrest ih => exact ih (hstep _ _ _ hstart)

/-! ## Closed sessions stay closed -/

theorem isClosed_step {relay : Relay} {id : SessionId}
    (hclosed : (relay.sessions.get id).isClosed = true) (work : Work) :
    ((relay.step work).relay.sessions.get id).isClosed = true := by
  cases work with
  | serve session request =>
      cases request <;> exact hclosed
  | reply session response =>
      simp only [step]
      rw [Sessions.get_put_send]
      split
      · rw [Session.isClosed_send]
        exact hclosed
      · exact hclosed
  | push change =>
      change ((deliver _ _ relay.sessions).sessions.get id).isClosed = true
      rw [isClosed_deliver]
      exact hclosed
  | relay envelope =>
      simp only [step, passOn]
      split
      · exact hclosed
      · exact hclosed
      · change ((deliver _ _ relay.sessions).sessions.get id).isClosed = true
        rw [isClosed_deliver]
        exact hclosed
      · change ((deliver _ _ relay.sessions).sessions.get id).isClosed = true
        rw [isClosed_deliver]
        exact hclosed
  | evict cluster failed => exact hclosed
  | close sessions =>
      cases sessions with
      | nil => exact hclosed
      | cons session others =>
          simp only [step]
          rw [Sessions.get_close]
          split
          · exact Session.isClosed_close hclosed
          · exact hclosed
  | forget session => exact hclosed

theorem Course.isClosed {relay last : Relay} {work : List Work} {steps : List (Relay × Work)}
    (hcourse : relay.Course work steps last) {id : SessionId}
    (hclosed : (relay.sessions.get id).isClosed = true) :
    (last.sessions.get id).isClosed = true :=
  hcourse.keeps (P := fun relay _ => (relay.sessions.get id).isClosed = true)
    (fun _ work _ hbefore => isClosed_step hbefore work) hclosed

end Relay

end Muster
