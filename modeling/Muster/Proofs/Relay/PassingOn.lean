import Muster.Proofs.Message.RoundTrip
import Muster.Proofs.Registry.Addressees
import Muster.Proofs.Relay.Repair

/-!
# Passing an envelope on

An envelope is written once to everybody whom it is for, and to nobody else.  Whoever is
not reached has left: one eviction removes exactly these members, and it makes the next
view before anything of it is told.  What is written from then on are views.

The writes of a piece of work are those that its step carries out on the sessions, one
after the other.
-/

namespace Muster

/-! ## Writes -/

/-- A frame that is handed to a session. -/
structure Write where
  session : SessionId
  frame : Frame
  deriving DecidableEq, Repr

def Sessions.write (sessions : Sessions) (write : Write) : Sessions :=
  sessions.put ((sessions.get write.session).send write.frame).1

def writesTo (recipients : List Recipient) (frame : Frame) : List Write :=
  recipients.map fun recipient => ⟨recipient.session, frame⟩

theorem sessions_deliver (frame : Frame) (recipients : List Recipient) (sessions : Sessions) :
    (deliver frame recipients sessions).sessions =
      (writesTo recipients frame).foldl Sessions.write sessions := by
  induction recipients generalizing sessions with
  | nil => rfl
  | cons recipient recipients ih => exact ih _

/-- Every write that is meant for an open session is tried there, once. -/
theorem Sessions.writes_foldl_write (writes : List Write) {sessions : Sessions} {id : SessionId}
    (hopen : (sessions.get id).isClosed = false) :
    ((writes.foldl Sessions.write sessions).get id).writes =
      (sessions.get id).writes + writes.countP (·.session = id) := by
  induction writes generalizing sessions with
  | nil => rfl
  | cons write writes ih =>
      have hfirst := sessions.get_put_send write.session id write.frame
      rw [List.foldl_cons, List.countP_cons]
      by_cases hid : id = write.session
      · rw [if_pos hid] at hfirst
        have hlater := @ih (sessions.write write) (by rw [Sessions.write, hfirst]; simpa)
        rw [hlater, Sessions.write, hfirst, Session.writes_send, if_neg (by simp [hopen])]
        simp only [hid, decide_true, if_true]
        omega
      · rw [if_neg hid] at hfirst
        have hlater := @ih (sessions.write write) (by rw [Sessions.write, hfirst, hopen])
        rw [hlater, Sessions.write, hfirst]
        simp [Ne.symm hid]

namespace Membership

/-- The membership without some addresses, and with the next view if anybody is left. -/
def without (membership : Membership) (addresses : List Address) : Membership :=
  let left : Membership :=
    { membership with
      members := membership.members.filter fun member =>
        member.address.uuid ∉ addresses.map Address.uuid }
  if left.isEmpty then left else left.bumped

/-- A view of a cluster and whom it is for, if there is anybody. -/
def change? (membership : Membership) (cluster : String) : Option ViewChange :=
  membership.view?.map fun view => ⟨cluster, view, membership.recipients []⟩

theorem announce_eq (cluster : String) (membership : Membership) :
    Registry.announce cluster membership =
      let next := if membership.isEmpty then membership else membership.bumped
      (next.change? cluster, next) := by
  unfold Registry.announce nextView change?
  cases hempty : membership.isEmpty with
  | true =>
      obtain ⟨members, lastViewId⟩ := membership
      obtain rfl : members = [] := List.isEmpty_iff.mp hempty
      rfl
  | false => rfl

variable {membership : Membership} {addresses : List Address}

theorem leaveAll_snd (membership : Membership) (addresses : List Address) :
    (membership.leaveAll addresses).2 =
      { membership with
        members := membership.members.filter fun member =>
          member.address.uuid ∉ addresses.map Address.uuid } := by
  have hmembers := membership.members_leaveAll addresses
  have hnumber := membership.lastViewId_leaveAll addresses
  simp only [Address.not_isIn_eq] at hmembers
  rw [← hmembers, ← hnumber]

/-- Members that leave together leave in one view step. -/
theorem Distinct.dismiss_eq (hdistinct : membership.Distinct) {address : Address}
    (haddress : address ∈ addresses) (hmember : address.uuid ∈ membership.identities)
    (cluster : String) :
    (Registry.dismiss addresses cluster membership).1.change =
        (membership.without addresses).change? cluster ∧
      (Registry.dismiss addresses cluster membership).2 = membership.without addresses := by
  obtain ⟨member, hmember, hsame⟩ := List.mem_map.mp hmember
  have hlisted : member.address.isIn addresses = true :=
    Address.isIn_iff.mpr ⟨address, haddress, hsame⟩
  have hdeparted : (membership.leaveAll addresses).1 ≠ [] :=
    List.ne_nil_of_mem (hdistinct.mem_departed hmember hlisted)
  simp only [Registry.dismiss, List.isEmpty_iff, hdeparted, if_false, announce_eq, leaveAll_snd]
  exact ⟨rfl, rfl⟩

end Membership

theorem Registry.leaveAll_eq {registry : Registry} (hdistinct : registry.DistinctMembers)
    {addresses : List Address} {address : Address} {cluster : String}
    (haddress : address ∈ addresses)
    (hmember : address.uuid ∈ (registry.current cluster).identities) :
    let left := (registry.current cluster).without addresses
    (registry.leaveAll cluster addresses).1.change = left.change? cluster ∧
      (registry.leaveAll cluster addresses).2 = registry.store cluster left := by
  cases hfind : registry.find? cluster with
  | none =>
      rw [current_of_find?_none hfind] at hmember
      contradiction
  | some membership =>
      rw [current_of_find? hfind] at hmember ⊢
      obtain ⟨hchange, hleft⟩ := (hdistinct _ _ hfind).dismiss_eq haddress hmember cluster
      rw [leaveAll_of_find? hfind, hleft]
      exact ⟨hchange, rfl⟩

namespace Relay

def writes (relay : Relay) : Work → List Write
  | .reply session response => [⟨session, response.encode⟩]
  | .push change => writesTo change.recipients (Response.view change.view).encode
  | .relay envelope =>
    writesTo (relay.registry.route envelope).1.recipients (Response.message envelope).encode
  | .serve _ _ | .evict _ _ | .close _ | .forget _ => []

def written (steps : List (Relay × Work)) : List Write :=
  steps.flatMap fun step => step.1.writes step.2

/-! ## The first step -/

variable {relay : Relay} {envelope : Envelope}

theorem passOn_snd (relay : Relay) (envelope : Envelope) :
    (relay.passOn envelope).2 =
      ({ relay with registry := (relay.registry.route envelope).2 }.spread envelope.cluster
        (Response.message envelope).encode (relay.registry.route envelope).1.recipients).2 := by
  unfold passOn
  cases hroute : (relay.registry.route envelope).1 <;> simp only [hroute] <;> rfl

theorem sessions_eq_foldl_write (relay : Relay) {work : Work}
    (hwork : work.isClosing = false) :
    (relay.step work).relay.sessions = (relay.writes work).foldl Sessions.write relay.sessions := by
  cases work with
  | serve session request => cases request <;> rfl
  | reply session response => rfl
  | push change => exact sessions_deliver _ _ _
  | relay envelope =>
      simp only [step, passOn_snd]
      exact sessions_deliver _ _ _
  | evict cluster failed => rfl
  | close sessions => contradiction
  | forget session => rfl

theorem written_cons (step : Relay × Work) (steps : List (Relay × Work)) :
    written (step :: steps) = step.1.writes step.2 ++ written steps :=
  List.flatMap_cons

/-! ## What follows an eviction -/

/-- Whether a piece of work writes nothing but views. -/
def mends : Work → Bool
  | .push _ | .evict _ _ | .close _ => true
  | _ => false

theorem mends_push? (change? : Option ViewChange) :
    ∀ next ∈ (change?.map Work.push).toList, mends next = true := by
  intro next hnext
  obtain ⟨change, -, rfl⟩ : ∃ change, _ ∧ Work.push change = next := by simpa using hnext
  rfl

theorem mends_afterDeparture (departure : Departure) :
    ∀ next ∈ afterDeparture departure, mends next = true :=
  List.forall_mem_cons.mpr ⟨rfl, mends_push? departure.change⟩

/-- Whatever follows from anything but a request mends. -/
theorem mends_next {relay : Relay} {work : Work}
    (hwork : ∀ session request, work ≠ .serve session request) :
    ∀ next ∈ (relay.step work).next, mends next = true := by
  intro next hnext
  cases work with
  | serve session request => exact absurd rfl (hwork session request)
  | reply => contradiction
  | push change =>
      rw [eq_of_mem_next_spread hnext]
      rfl
  | relay envelope =>
      rw [step, passOn_snd] at hnext
      rw [eq_of_mem_next_spread hnext]
      rfl
  | evict cluster failed => exact mends_afterDeparture _ next hnext
  | close sessions =>
      cases sessions with
      | nil => contradiction
      | cons session others =>
          rw [List.mem_singleton.mp hnext]
          rfl
  | forget session =>
      obtain ⟨change, -, rfl⟩ := List.mem_map.mp hnext
      rfl

theorem ne_serve_of_mends {work : Work} (hwork : mends work = true) (session : SessionId)
    (request : Request) : work ≠ .serve session request := by
  rintro rfl
  contradiction

theorem Course.mends {relay last : Relay} {work : List Work} {steps : List (Relay × Work)}
    (hcourse : relay.Course work steps last) (hwork : ∀ piece ∈ work, mends piece = true) :
    ∀ step ∈ steps, mends step.2 = true := by
  induction hcourse with
  | rest => exact fun _ hstep => by contradiction
  | step hrest ih =>
      rw [List.forall_mem_cons] at hwork ⊢
      refine ⟨hwork.1, ih (List.forall_mem_append.mpr ⟨?_, hwork.2⟩)⟩
      exact mends_next (ne_serve_of_mends hwork.1)

/-- The sender is written to as well, and the second member is not reached. -/
example :
    let first := Address.ofUuid ⟨0, 1⟩
    let second := Address.ofUuid ⟨0, 2⟩
    let broken := (Session.fresh ⟨2⟩).withFates fun _ => .broken
    let relay : Relay :=
      ⟨(Registry.empty 1).after [.join "a" first ⟨1⟩, .join "a" second ⟨2⟩], ⟨[broken]⟩⟩
    let result := relay.relayEnvelope ⟨"a", some first, none, [], none, none⟩
    result.1 = .delivered 1 1 ∧
      result.2.1.registry.find? "a" = some ⟨[⟨first, some ⟨1⟩⟩], 3⟩ := by
  decide

end Relay

end Muster
