import Mathlib.Logic.Function.Basic
import Muster.Client.Manager

/-!
# Concurrent calls of a client

Any number of callers share a client.  What a call does while it
holds the client's lock is one step.  A call to disconnect, and a call to stop, sets
the status once more after it has given the lock back, and this is a step of its
own.  In between, streams hand in frames and report their ends, and the reconnector
makes its attempts.

A stream that was opened is let go when a caller or an error takes it from the
client.  Opening another one in its place does not let it go.
-/

namespace Muster

namespace Manager

@[simp] theorem compareAndSet_disconnected (next : Status) :
    Status.compareAndSet .disconnected .disconnected next = (true, next) := by
  rfl

theorem openWith_of_ne {manager : Manager} (hstatus : manager.status ≠ .disconnected)
    (request : Request) (dial : Dial) (now : Nat) :
    (manager.openWith request dial now).2 = manager := by
  unfold openWith Status.compareAndSet
  rw [if_neg hstatus]

theorem openWith_of_disconnected {manager : Manager} (hstatus : manager.status = .disconnected)
    (request : Request) (dial : Dial) (now : Nat) :
    (manager.openWith request dial now).2 =
      match dial with
      | .refused | .unanswered =>
        { manager with status := .connecting }.transportError now
      | .broken => { manager with status := .connecting }.opened.transportError now
      | .accepted => { manager with status := .connecting }.opened := by
  unfold openWith
  rw [hstatus, compareAndSet_disconnected]
  cases dial <;> rfl

theorem detach_of_none {manager : Manager} (hnone : manager.stream = none)
    (stopsReconnecting : Bool) :
    (manager.detach stopsReconnecting).2.status = manager.status ∧
      (manager.detach stopsReconnecting).2.stream = none ∧
      (manager.detach stopsReconnecting).2.generation = manager.generation := by
  unfold detach
  cases stopsReconnecting <;> simp [hnone]

theorem detach_of_some {manager : Manager} {generation : Nat}
    (hheld : manager.stream = some generation) (stopsReconnecting : Bool) :
    (manager.detach stopsReconnecting).2.status = .disconnecting ∧
      (manager.detach stopsReconnecting).2.stream = none ∧
      (manager.detach stopsReconnecting).2.generation = manager.generation + 1 := by
  unfold detach
  cases stopsReconnecting <;> simp [hheld]

/-- A frame counts only if it is from the current stream. -/
theorem receive_cases (manager : Manager) (generation : Nat) (frame : Frame) :
    (manager.receive generation frame).2 = manager ∨
      manager.generation = generation ∧
        (manager.receive generation frame).2.status =
          (manager.status.compareAndSet .connecting .connected).2 ∧
        (manager.receive generation frame).2.stream = manager.stream ∧
        (manager.receive generation frame).2.generation = manager.generation := by
  have hestablish (viewId : Option UInt64) :
      (manager.establish generation viewId).2 = manager ∨
        manager.generation = generation ∧
          (manager.establish generation viewId).2.status =
            (manager.status.compareAndSet .connecting .connected).2 ∧
          (manager.establish generation viewId).2.stream = manager.stream ∧
          (manager.establish generation viewId).2.generation = manager.generation := by
    unfold establish
    split
    · exact .inl rfl
    next hcounts =>
      refine .inr ⟨?_, rfl, rfl, rfl⟩
      by_contra hother
      exact hcounts (.inl (by simp [isCurrent, hother]))
  unfold receive
  split
  · exact .inl rfl
  next view _ => exact hestablish (some view.viewId)
  · exact .inl rfl
  · exact hestablish none
  · exact .inl rfl

theorem streamEnded_of_ne {manager : Manager} {generation : Nat}
    (hother : manager.generation ≠ generation) (now : Nat) :
    manager.streamEnded generation now = manager := by
  simp [streamEnded, isCurrent, hother]

theorem streamEnded_self (manager : Manager) (now : Nat) :
    manager.streamEnded manager.generation now = manager.transportError now := by
  simp [streamEnded, isCurrent]

end Manager

inductive Call
  | connect (cluster : String) (address : Address)
  | registerView (cluster : String) (view : View) (address : Address)
  | disconnect (cluster : String) (address : Address)
  | stop

def Call.request? : Call → Option Request
  | connect cluster address => some (.join ⟨cluster, address⟩)
  | registerView cluster view address => some (.registerView ⟨cluster, view, address⟩)
  | disconnect _ _ | stop => none

/-- How far a call has got. -/
inductive Stage
  | idle
  | waiting (call : Call)
  /-- the lock has been given back, and the status is still to be set -/
  | closing (call : Call)

/-- The client, its callers, and its streams by generation. -/
structure Client where
  manager : Manager
  callers : Nat → Stage
  /-- the streams that were ever opened -/
  opened : List Nat
  /-- the streams that were opened and have not been let go -/
  streams : List Nat

namespace Client

def start (config : ClientConfig) : Client :=
  ⟨.idle config, fun _ => .idle, [], []⟩

def Quiet (client : Client) : Prop :=
  ∀ caller, client.callers caller = .idle

def goTo (client : Client) (caller : Nat) (stage : Stage) : Client :=
  { client with callers := Function.update client.callers caller stage }

/-- The streams without the one that is held. -/
def rest (client : Client) : List Nat :=
  client.streams.filter fun generation => client.manager.stream ≠ some generation

/-- The stream that an opening replaces, if it gets so far as to open one. -/
def replaces (client : Client) (dial : Dial) : Option Nat :=
  if client.manager.status = .disconnected then
    match dial with
    | .refused | .unanswered => none
    | .broken | .accepted => client.manager.stream
  else none

def dialed (client : Client) (request : Request) (dial : Dial) (now : Nat) :
    Client :=
  let manager := (client.manager.openWith request dial now).2
  let fresh := client.manager.generation + 1
  if client.manager.status = .disconnected then
    match dial with
    | .refused | .unanswered => { client with manager, streams := client.rest }
    | .broken => { client with manager, opened := client.opened ++ [fresh] }
    | .accepted =>
      { client with
        manager
        opened := client.opened ++ [fresh]
        streams := client.streams ++ [fresh] }
  else { client with manager }

theorem callers_dialed (client : Client) (request : Request) (dial : Dial)
    (now : Nat) : (client.dialed request dial now).callers = client.callers := by
  unfold dialed
  split
  · cases dial <;> rfl
  · rfl

def detached (client : Client) (stopsReconnecting : Bool) : Client :=
  { client with
    manager := (client.manager.detach stopsReconnecting).2
    streams := client.rest }

def ended (client : Client) (generation now : Nat) : Client :=
  { client with
    manager := client.manager.streamEnded generation now
    streams :=
      if client.manager.isCurrent generation then client.rest
      else client.streams }

inductive Move
  | call (call : Call)
  | attempt
  | abort
  | dial (dial : Dial) (now : Nat)
  | detach
  | set
  | frame (generation : Nat) (frame : Frame)
  | ended (generation now : Nat)
  | rejoin (cluster : String) (address : Address)

/-- What can happen next.  The reader of any stream that was ever opened may still
report, and an attempt of the reconnector may be aborted while it waits. -/
inductive Step (caller : Nat) (client : Client) : Move → Client → Prop
  | call {call : Call} (hidle : client.callers caller = .idle) :
      Step caller client (.call call) (client.goTo caller (.waiting call))
  | attempt {task : Retry Rejoin} (hidle : client.callers caller = .idle)
      (htask : client.manager.reconnector.task = some task) :
      Step caller client .attempt
        (client.goTo caller
          (.waiting (.connect task.function.cluster task.function.address)))
  | abort {cluster : String} {address : Address}
      (hwaiting : client.callers caller = .waiting (.connect cluster address)) :
      Step caller client .abort (client.goTo caller .idle)
  | dial {call : Call} {request : Request} (dial : Dial) (now : Nat)
      (hwaiting : client.callers caller = .waiting call)
      (hrequest : call.request? = some request) :
      Step caller client (.dial dial now)
        ((client.dialed request dial now).goTo caller .idle)
  | leave {cluster : String} {address : Address}
      (hwaiting : client.callers caller = .waiting (.disconnect cluster address))
      (hheld : client.manager.stream ≠ none) :
      Step caller client .detach
        ((client.detached false).goTo caller (.closing (.disconnect cluster address)))
  | ignore {cluster : String} {address : Address}
      (hwaiting : client.callers caller = .waiting (.disconnect cluster address))
      (hnone : client.manager.stream = none) :
      Step caller client .detach ((client.detached false).goTo caller .idle)
  | stop (hwaiting : client.callers caller = .waiting .stop) :
      Step caller client .detach
        ((client.detached true).goTo caller (.closing .stop))
  | set {call : Call} (hclosing : client.callers caller = .closing call) :
      Step caller client .set
        ({ client with manager := client.manager.markDisconnected }.goTo caller .idle)
  | frame {generation : Nat} (frame : Frame) (hopened : generation ∈ client.opened) :
      Step caller client (.frame generation frame)
        { client with manager := (client.manager.receive generation frame).2 }
  | ended {generation : Nat} (now : Nat) (hopened : generation ∈ client.opened) :
      Step caller client (.ended generation now) (client.ended generation now)
  | rejoin (cluster : String) (address : Address) :
      Step caller client (.rejoin cluster address)
        { client with manager := client.manager.rejoinOnReconnect cluster address }

/-- A move, and the client just before it. -/
structure Moment where
  client : Client
  caller : Nat
  move : Move

/-- What can happen to a client from its creation on. -/
inductive Run (config : ClientConfig) : List Moment → Client → Prop
  | start : Run config [] (.start config)
  | step {moments : List Moment} {client next : Client} {caller : Nat} {move : Move}
      (hrun : Run config moments client) (hstep : Step caller client move next) :
      Run config (moments ++ [⟨client, caller, move⟩]) next

/-- The stream that is held while a call that has given the lock back sets the
status. -/
def Moment.hit? (moment : Moment) : Option Nat :=
  match moment.move with
  | .set => moment.client.manager.stream
  | _ => none

/-- The stream that is replaced by another one. -/
def Moment.replaced? (moment : Moment) : Option Nat :=
  match moment.move with
  | .dial dial _ => moment.client.replaces dial
  | _ => none

/-- A call has set the status back while the stream was held. -/
def Hit (moments : List Moment) (generation : Nat) : Prop :=
  ∃ moment ∈ moments, moment.hit? = some generation

def replaced (moments : List Moment) : List Nat :=
  moments.filterMap Moment.replaced?

end Client

end Muster
