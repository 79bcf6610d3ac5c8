import Muster.Proofs.Relay.PassingOn
import Muster.Proofs.Relay.Serving

/-!
# Replies and requests

The task of a session is done with one request before it takes the next frame, and it has
written the reply by then.  Nobody else writes a reply to that session: the tasks of other
sessions write views to it, and messages that they were asked to pass on.  So the replies
written to a session are, in their order, those that its own requests ask for, and at most
the last one is still to come.
-/

namespace Muster

/-- The tag of the response that a request is answered with, if it is answered. -/
def Request.replyTag? : Request → Option String
  | join _ => none
  | leave _ => some "leaveAck"
  | registerView _ => some "registerViewAck"
  | getView _ => some "getViewResponse"
  | message _ => none
  | dump => some "dumpResponse"

/-- The tag of a response that answers a request.  The others come unasked. -/
def Response.replyTag? : Response → Option String
  | view _ => none
  | message _ => none
  | response => some response.tag

/-! ## Sends -/

namespace Relay

/-- The responses that a piece of work sends, and to whom. -/
def sends (relay : Relay) : Work → List (SessionId × Response)
  | .reply session response => [(session, response)]
  | .push change =>
    change.recipients.map fun recipient => (recipient.session, .view change.view)
  | .relay envelope =>
    (relay.registry.route envelope).1.recipients.map fun recipient =>
      (recipient.session, .message envelope)
  | .serve _ _ | .evict _ _ | .close _ | .forget _ => []

end Relay

namespace Serving

def sendsOf : Relay × Move → List (SessionId × Response)
  | (relay, .work _ piece) => relay.sends piece
  | (_, .take _ _) | (_, .depart _) | (_, .change _) => []

def sent (moves : List (Relay × Move)) : List (SessionId × Response) :=
  moves.flatMap sendsOf

/-- What is sent to one session. -/
def shareOf (session : SessionId) (sends : List (SessionId × Response)) : List Response :=
  (sends.filter (·.1 = session)).map Prod.snd

def sentTo (session : SessionId) (moves : List (Relay × Move)) : List Response :=
  shareOf session (sent moves)

/-- The request that a task gets from a frame. -/
def request? (session : SessionId) : Move → Option Request
  | .take taker frame => if taker = session then (Request.decode frame).toOption else none
  | .work _ _ | .depart _ | .change _ => none

/-- The requests that have come through a session. -/
def accepted (session : SessionId) (moves : List (Relay × Move)) : List Request :=
  moves.filterMap fun move => request? session move.2

def piece? (session : SessionId) : Move → Option Work
  | .work worker piece => if worker = session then some piece else none
  | .take _ _ | .depart _ | .change _ => none

/-- The pieces of work that the task of a session has done. -/
def done (session : SessionId) (moves : List (Relay × Move)) : List Work :=
  moves.filterMap fun move => piece? session move.2

theorem accepted_cons (session : SessionId) (move : Relay × Move)
    (moves : List (Relay × Move)) :
    accepted session (move :: moves) =
      (request? session move.2).toList ++ accepted session moves := by
  unfold accepted
  cases hrequest : request? session move.2 <;> simp [hrequest]

theorem done_cons (session : SessionId) (move : Relay × Move) (moves : List (Relay × Move)) :
    done session (move :: moves) = (piece? session move.2).toList ++ done session moves := by
  unfold done
  cases hpiece : piece? session move.2 <;> simp [hpiece]

/-! ## Balance -/

/-- What is due from a piece of work is done by the piece or due from those that follow it. -/
structure Balanced {α : Type} (due finished : Work → List α) : Prop where
  step : ∀ (relay : Relay) (piece : Work),
    due piece = finished piece ++ (relay.step piece).next.flatMap due
  forget : ∀ session, due (.forget session) = []

variable {first next last : Serving} {move : Move} {moves : List (Relay × Move)}

theorem flatMap_workFor {α : Type} (due : Work → List α) (session : SessionId)
    (frame : Frame) :
    (Connection.workFor session frame).flatMap due =
      (Request.decode frame).toOption.toList.flatMap fun request =>
        due (.serve session request) := by
  unfold Connection.workFor
  cases Request.decode frame <;> rfl

theorem Step.balance {α : Type} {due finished : Work → List α}
    (hbalanced : Balanced due finished) (hstep : Step first move next) (session : SessionId) :
    (first.tasks session).flatMap due ++
        (request? session move).toList.flatMap (fun request => due (.serve session request)) =
      (piece? session move).toList.flatMap finished ++ (next.tasks session).flatMap due := by
  cases hstep with
  | @take taker frame hidle =>
      by_cases htaker : session = taker
      · subst htaker
        simp [tasks_assign, request?, piece?, hidle, flatMap_workFor]
      · simp [tasks_assign, request?, piece?, htaker, Ne.symm htaker]
  | @work worker piece others hwork =>
      by_cases hworker : session = worker
      · subst hworker
        simp [tasks_assign, request?, piece?, hwork, hbalanced.step first.relay piece]
      · simp [tasks_assign, request?, piece?, hworker, Ne.symm hworker]
  | @depart leaver hidle =>
      by_cases hleaver : session = leaver
      · subst hleaver
        simp [tasks_assign, request?, piece?, hidle, hbalanced.forget]
      · simp [tasks_assign, request?, piece?, hleaver]
  | change => simp [request?, piece?]

/-- What was due and what requests have asked for has been done or is still due. -/
theorem Course.balance {α : Type} {due finished : Work → List α}
    (hbalanced : Balanced due finished) (hcourse : Course first moves last)
    (session : SessionId) :
    (first.tasks session).flatMap due ++
        (accepted session moves).flatMap (fun request => due (.serve session request)) =
      (done session moves).flatMap finished ++ (last.tasks session).flatMap due := by
  induction hcourse with
  | rest => simp [accepted, done]
  | @step first next last move moves hstep hrest ih =>
      have hfirst := hstep.balance hbalanced session
      rw [accepted_cons, done_cons, List.flatMap_append, List.flatMap_append,
        ← List.append_assoc, hfirst, List.append_assoc, ih, List.append_assoc]

/-! ## Replies -/

theorem flatMap_of_mends {α : Type} {due : Work → List α}
    (hdue : ∀ piece, Relay.mends piece = true → due piece = []) {work : List Work}
    (hwork : ∀ piece ∈ work, Relay.mends piece = true) : work.flatMap due = [] :=
  List.flatMap_eq_nil_iff.mpr fun piece hpiece => hdue piece (hwork piece hpiece)

/-- Whether a piece of work serves and answers nobody but one session. -/
def IsFor (session : SessionId) : Work → Prop
  | .serve other _ => other = session
  | .reply other response => other = session ∧ response.replyTag? ≠ none
  | .push _ | .relay _ | .evict _ _ | .close _ | .forget _ => True

/-- Every task works for its own session. -/
def Apart (serving : Serving) : Prop :=
  ∀ session, ∀ piece ∈ serving.tasks session, IsFor session piece

theorem apart_idle (relay : Relay) : (idle relay).Apart :=
  fun _ _ hpiece => by contradiction

theorem isFor_of_mends (session : SessionId) {piece : Work}
    (hpiece : Relay.mends piece = true) : IsFor session piece := by
  cases piece <;> trivial

theorem isFor_serve (relay : Relay) (session : SessionId) (request : Request) :
    ∀ next ∈ (relay.serve session request).next, IsFor session next := by
  cases request with
  | join request =>
      exact fun next hnext => isFor_of_mends session (Relay.mends_push? _ next hnext)
  | leave request =>
      refine List.forall_mem_cons.mpr ⟨⟨rfl, by simp [Response.replyTag?]⟩, ?_⟩
      exact fun next hnext => isFor_of_mends session (Relay.mends_afterDeparture _ next hnext)
  | registerView | getView | dump =>
      exact List.forall_mem_singleton.mpr ⟨rfl, by simp [Response.replyTag?]⟩
  | message envelope => exact List.forall_mem_singleton.mpr trivial

theorem isFor_next (relay : Relay) {session : SessionId} {piece : Work}
    (hpiece : IsFor session piece) : ∀ next ∈ (relay.step piece).next, IsFor session next := by
  cases piece with
  | serve other request =>
      obtain rfl : other = session := hpiece
      exact isFor_serve relay other request
  | _ =>
      intro next hnext
      exact isFor_of_mends session (Relay.mends_next (by simp) next hnext)

theorem isFor_workFor (session : SessionId) (frame : Frame) :
    ∀ piece ∈ Connection.workFor session frame, IsFor session piece := by
  unfold Connection.workFor
  split
  · exact List.forall_mem_singleton.mpr rfl
  · exact fun _ hpiece => by contradiction

theorem Apart.assign {serving : Serving} (hapart : serving.Apart) {session : SessionId}
    {work : List Work} (hwork : ∀ piece ∈ work, IsFor session piece) :
    (serving.assign session work).Apart := by
  intro other
  rw [tasks_assign]
  split
  next heq => exact heq ▸ hwork
  · exact hapart other

theorem Apart.step (hapart : first.Apart) (hstep : Step first move next) : next.Apart := by
  cases hstep with
  | @take session frame => exact hapart.assign (isFor_workFor session frame)
  | @work session piece others hwork =>
      have hpieces := hapart session
      rw [hwork, List.forall_mem_cons] at hpieces
      apply Apart.assign hapart
      exact List.forall_mem_append.mpr ⟨isFor_next first.relay hpieces.1, hpieces.2⟩
  | depart => exact hapart.assign (List.forall_mem_singleton.mpr trivial)
  | change => exact hapart

theorem Apart.course (hapart : first.Apart) (hcourse : Course first moves last) : last.Apart := by
  induction hcourse with
  | rest => exact hapart
  | step hstep _ ih => exact ih (hapart.step hstep)

/-- What tasks do in a course they do for their own sessions. -/
theorem Apart.isFor (hapart : first.Apart) (hcourse : Course first moves last)
    {relay : Relay} {worker : SessionId} {piece : Work}
    (hmove : (relay, .work worker piece) ∈ moves) : IsFor worker piece := by
  induction hcourse with
  | rest => contradiction
  | step hstep _ ih =>
      rcases List.mem_cons.mp hmove with heq | hrest
      · cases hstep with
        | work hwork =>
            cases heq
            exact hapart _ piece (hwork ▸ List.mem_cons_self)
        | _ => cases heq
      · exact ih (hapart.step hstep) hrest

/-- The envelopes that a piece of work is to pass on. -/
def carried : Work → List Envelope
  | .serve _ (.message envelope) => [envelope]
  | .relay envelope => [envelope]
  | _ => []

def passed : Work → List Envelope
  | .relay envelope => [envelope]
  | _ => []

theorem carried_of_mends {piece : Work} (hpiece : Relay.mends piece = true) :
    carried piece = [] := by
  cases piece <;> first | rfl | contradiction

theorem balanced_messages : Balanced carried passed where
  step := by
    intro relay piece
    cases piece with
    | serve session request =>
        cases request with
        | join request =>
            exact (flatMap_of_mends (fun _ => carried_of_mends) (Relay.mends_push? _)).symm
        | leave request =>
            exact (flatMap_of_mends (fun _ => carried_of_mends)
              (Relay.mends_afterDeparture _)).symm
        | registerView | getView | message | dump => rfl
    | _ =>
        rw [flatMap_of_mends (fun _ => carried_of_mends) (Relay.mends_next (by simp)),
          List.append_nil]
        rfl
  forget _ := rfl

theorem mem_done {relay : Relay} {worker : SessionId} {piece : Work}
    (hmove : (relay, .work worker piece) ∈ moves) : piece ∈ done worker moves :=
  List.mem_filterMap.mpr ⟨_, hmove, by simp [piece?]⟩

/-- What a session is sent unasked is a view or an envelope that somebody has sent. -/
theorem Course.unasked {relay : Relay} (hcourse : Course (idle relay) moves last)
    {session : SessionId} {response : Response} (hresponse : response ∈ sentTo session moves)
    (hunasked : response.replyTag? = none) :
    (∃ view, response = .view view) ∨
      ∃ envelope sender, response = .message envelope ∧
        .message envelope ∈ accepted sender moves := by
  obtain ⟨send, hsend, rfl⟩ := List.mem_map.mp hresponse
  obtain ⟨⟨state, move⟩, hmove, hsend⟩ := List.mem_flatMap.mp (List.mem_filter.mp hsend).1
  cases move with
  | take | depart | change => contradiction
  | work worker piece =>
      have hpiece := (apart_idle relay).isFor hcourse hmove
      cases piece with
      | serve | evict | close | forget => contradiction
      | reply other response =>
          obtain rfl := List.mem_singleton.mp hsend
          exact absurd hunasked hpiece.2
      | push change =>
          obtain ⟨recipient, -, rfl⟩ := List.mem_map.mp hsend
          exact .inl ⟨change.view, rfl⟩
      | relay envelope =>
          obtain ⟨recipient, -, rfl⟩ := List.mem_map.mp hsend
          refine .inr ⟨envelope, worker, rfl, ?_⟩
          have hbalance := hcourse.balance balanced_messages worker
          have hpassed : envelope ∈ (done worker moves).flatMap passed :=
            List.mem_flatMap.mpr ⟨_, mem_done hmove, List.mem_singleton_self envelope⟩
          have hcarried := hbalance.symm ▸ List.mem_append_left _ hpassed
          obtain ⟨request, hrequest, henvelope⟩ := List.mem_flatMap.mp hcarried
          cases request with
          | message other => exact List.mem_singleton.mp henvelope ▸ hrequest
          | _ => contradiction

/-! ## The order of a task -/

/-- Whether work begins with a row of pieces, whatever others do to the relay between them. -/
inductive Begins : List Work → List Work → Prop
  | nil (work : List Work) : Begins work []
  | cons {piece : Work} {others row : List Work}
      (hothers : ∀ relay : Relay, Begins ((relay.step piece).next ++ others) row) :
      Begins (piece :: others) (piece :: row)

theorem Begins.ne_of_idle {serving : Serving} {session other : SessionId} {piece : Work}
    {row : List Work} (hbegins : Begins (serving.tasks session) (piece :: row))
    (hidle : serving.tasks other = []) : session ≠ other := by
  rintro rfl
  rw [hidle] at hbegins
  contradiction

/-- A task goes on with a row of pieces, while others do as they like. -/
theorem Step.begins {session : SessionId} {piece : Work} {row : List Work}
    (hstep : Step first move next) (hbegins : Begins (first.tasks session) (piece :: row)) :
    (piece? session move = none ∧ Begins (next.tasks session) (piece :: row)) ∨
      (piece? session move = some piece ∧ Begins (next.tasks session) row) := by
  cases hstep with
  | @take taker frame hidle =>
      refine .inl ⟨rfl, ?_⟩
      rwa [tasks_assign, if_neg (hbegins.ne_of_idle hidle)]
  | @work worker done others hwork =>
      by_cases hworker : session = worker
      · subst hworker
        rw [hwork] at hbegins
        cases hbegins with
        | cons hothers =>
            refine .inr ⟨by simp [piece?], ?_⟩
            rw [tasks_assign, if_pos rfl]
            exact hothers first.relay
      · refine .inl ⟨by simp [piece?, Ne.symm hworker], ?_⟩
        rwa [tasks_assign, if_neg hworker]
  | @depart leaver hidle =>
      refine .inl ⟨rfl, ?_⟩
      rwa [tasks_assign, if_neg (hbegins.ne_of_idle hidle)]
  | change => exact .inl ⟨rfl, hbegins⟩

/-- As far as a task gets, it does what its work begins with. -/
theorem Course.begins (hcourse : Course first moves last) {session : SessionId}
    {row : List Work} (hbegins : Begins (first.tasks session) row) :
    (∃ rest, row = done session moves ++ rest ∧ Begins (last.tasks session) rest) ∨
      row <+: done session moves := by
  induction hcourse generalizing row with
  | rest => exact .inl ⟨row, rfl, hbegins⟩
  | step hstep _ ih =>
      cases row with
      | nil => exact .inr List.nil_prefix
      | cons piece row =>
          rw [done_cons]
          -- A move of another task leaves the row as it is, one of its own takes the first off.
          rcases hstep.begins hbegins with ⟨hpiece, hnext⟩ | ⟨hpiece, hnext⟩
          · rw [hpiece]
            exact ih hnext
          · rw [hpiece]
            rcases ih hnext with ⟨rest, rfl, hrest⟩ | hdone
            · exact .inl ⟨rest, rfl, hrest⟩
            · exact .inr ((List.cons_prefix_cons).mpr ⟨rfl, hdone⟩)

/-! ## Frames that are no requests -/

end Serving

end Muster
