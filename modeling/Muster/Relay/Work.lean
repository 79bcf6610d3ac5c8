import Muster.Message.Request
import Muster.Message.Response
import Muster.Registry.Basic
import Muster.Relay.Delivery

/-!
# The work of a relay

Handling a request is a row of small pieces of work.  A piece looks at the
registry once, or writes to some sessions once, and leaves further pieces
behind.  Between two pieces others may work on the same registry, and after a
piece that wrote to a stuck session there is a wait.

The pieces follow a few rules.  A recipient whose write fails has left the
cluster; the others are told by a new view, until a view has been taken by
everybody it was sent to.  The sessions of departed members are closed before
the others are told.  A leaving member gets its acknowledgement first.  Nobody
is told of an envelope that went nowhere.
-/

namespace Muster

/-- The state shared by all handlers. -/
structure Relay where
  registry : Registry
  sessions : Sessions

/-- A piece of work. -/
inductive Work
  /-- handle a request that came through a session -/
  | serve (session : SessionId) (request : Request)
  | reply (session : SessionId) (response : Response)
  /-- send a view to its recipients -/
  | push (change : ViewChange)
  /-- pass an envelope on -/
  | relay (envelope : Envelope)
  /-- treat members as having left, because a write to them failed -/
  | evict (cluster : String) (failed : List Address)
  /-- close sessions, one after the other -/
  | close (sessions : List SessionId)
  /-- forget the members of a session whose stream is over -/
  | forget (session : SessionId)
  deriving DecidableEq, Repr

/-- Whether a session is to be closed, and not written to. -/
def Work.isClosing : Work → Bool
  | .close _ => true
  | _ => false

/-- What a piece of work comes to. -/
structure Step where
  relay : Relay
  /-- what is to be done next -/
  next : List Work
  /-- the wait before that -/
  pause : Pause

/-- What became of an envelope. -/
inductive Outcome
  | delivered (delivered failed : Nat)
  | unknownCluster
  | unknownDestination
  deriving DecidableEq, Repr

namespace Relay

def dump (relay : Relay) : String :=
  relay.registry.dump

def resumeWith (relay : Relay) (registry : Registry) (next : List Work) : Step :=
  ⟨{ relay with registry }, next, .none⟩

/-- What follows a departure: sessions are closed, then the others are told. -/
def afterDeparture (departure : Departure) : List Work :=
  .close departure.sessions :: (departure.change.map Work.push).toList

def afterDelivery (cluster : String) (delivery : Delivery) : List Work :=
  if delivery.failed.isEmpty then [] else [.evict cluster delivery.failed]

def spread (relay : Relay) (cluster : String) (frame : Frame) (recipients : List Recipient) :
    List Address × Step :=
  let delivery := deliver frame recipients relay.sessions
  (delivery.failed,
    { relay := { relay with sessions := delivery.sessions }
      next := afterDelivery cluster delivery
      pause := delivery.pause })

def passOn (relay : Relay) (envelope : Envelope) : Outcome × Step :=
  let (route, registry) := relay.registry.route envelope
  let relay := { relay with registry }
  match route with
  | .unknownCluster => (.unknownCluster, ⟨relay, [], .none⟩)
  | .unknownDestination _ => (.unknownDestination, ⟨relay, [], .none⟩)
  | .unicast recipient => sent [recipient] relay
  | .multicast recipients => sent recipients relay
where
  /-- The envelope as a response, written to every recipient. -/
  sent (recipients : List Recipient) (relay : Relay) : Outcome × Step :=
    let (failed, step) :=
      relay.spread envelope.cluster (Response.message envelope).encode recipients
    (.delivered (recipients.length - failed.length) failed.length, step)

/-- Handles a request up to its first write. -/
def serve (relay : Relay) (session : SessionId) : Request → Step
  | .join ⟨cluster, address⟩ =>
    let (change?, registry) := relay.registry.join cluster address session
    relay.resumeWith registry (change?.map Work.push).toList
  | .leave ⟨cluster, address⟩ =>
    let (departure, registry) := relay.registry.leave cluster address
    relay.resumeWith registry (.reply session .leaveAck :: afterDeparture departure)
  | .registerView ⟨cluster, view, address⟩ =>
    relay.resumeWith (relay.registry.registerView cluster view.members address session)
      [.reply session .registerViewAck]
  | .getView ⟨cluster⟩ =>
    let (view?, registry) := relay.registry.getView cluster
    relay.resumeWith registry [.reply session (.getViewResponse ⟨view?⟩)]
  | .message envelope => ⟨relay, [.relay envelope], .none⟩
  | .dump => ⟨relay, [.reply session (.dumpResponse ⟨relay.dump⟩)], .none⟩

def step (relay : Relay) : Work → Step
  | .serve session request => relay.serve session request
  | .reply session response =>
    let current := relay.sessions.get session
    { relay := { relay with sessions := relay.sessions.put (current.send response.encode).1 }
      next := []
      pause := .of current }
  | .push change =>
    (relay.spread change.cluster (Response.view change.view).encode change.recipients).2
  | .relay envelope => (relay.passOn envelope).2
  | .evict cluster failed =>
    let (departure, registry) := relay.registry.leaveAll cluster failed
    relay.resumeWith registry (afterDeparture departure)
  | .close [] => ⟨relay, [], .none⟩
  | .close (session :: others) =>
    { relay := { relay with sessions := relay.sessions.close session }
      next := [.close others]
      pause := .of (relay.sessions.get session) }
  | .forget session =>
    let (changes, registry) := relay.registry.removeSession session
    relay.resumeWith registry (changes.map Work.push)

/-! ## Working alone -/

/-- A bound on the steps that a piece of work takes.  What it does to members
is paid for by `effort`: a member that enters has its share here, and one that
leaves gives back more than its removal takes. -/
def effortOf : Work → Nat
  | .serve _ (.registerView request) => 2 + 8 * (request.view.members.length + 1)
  | .serve _ _ => 12
  | .close sessions => sessions.length + 1
  | .push _ => 3
  | .relay _ => 3
  | .evict _ _ => 2
  | _ => 1

/-- The steps that a row of work takes, those spent on members apart. -/
def effortOfAll (work : List Work) : Nat :=
  total (work.map effortOf)

/-- A bound on the steps that work takes until nothing is left to do.  Every
step lowers it. -/
def effort (relay : Relay) (work : List Work) : Nat :=
  8 * relay.registry.population + effortOfAll work

/-- Works for at most `fuel` steps, and says how long the waits were. -/
def workFor : Nat → List Work → Relay → Relay × Duration
  | fuel + 1, work :: others, relay =>
    let step := relay.step work
    let (relay, elapsed) := workFor fuel (step.next ++ others) step.relay
    (relay, step.pause.length + elapsed)
  | _, _, relay => (relay, .zero)

/-- Works until nothing is left to do while nobody else does, and says how long
that takes. -/
def finish (relay : Relay) (work : List Work) : Relay × Duration :=
  workFor (relay.effort work) work relay

/-- Passes an envelope on and treats failed recipients as having left. -/
def relayEnvelope (relay : Relay) (envelope : Envelope) : Outcome × Relay × Duration :=
  let (outcome, step) := relay.passOn envelope
  let (relay, elapsed) := step.relay.finish step.next
  (outcome, relay, step.pause.length + elapsed)

end Relay

end Muster
