import Muster.Client.Config
import Muster.Client.EventBus
import Muster.Client.Reconnector
import Muster.Client.Status

/-!
# The connection of a client

A client holds at most one stream to its relay.  Opening a stream sends a
request that enters a cluster; the stream then carries views and messages back.
When the stream breaks, the client falls back to `disconnected` and its
reconnector tries to join again, until a view arrives.

Every opened stream has a generation.  What the reader of a stream reports
counts only while its generation is the current one, so nothing late from an
old stream can disturb a new one.  Within a stream, a view whose number is not
above that of the last one handed on is dropped.

The operations are small: each of them is what happens while the lock of the
client is held once, or a change of the status without the lock.
-/

namespace Muster

/-- Whom to join again. -/
structure Rejoin where
  cluster : String
  address : Address
  deriving DecidableEq, Repr

/-- What the network makes of an attempt to open a stream. -/
inductive Dial
  /-- no stream -/
  | refused
  /-- no answer within the bound on requests -/
  | unanswered
  /-- a stream that breaks before the first request has been sent -/
  | broken
  | accepted
  deriving DecidableEq, Repr

/-- The connection of a client. -/
structure Manager where
  config : ClientConfig
  status : Status
  /-- the generation of the latest stream, or a higher number -/
  generation : Nat
  /-- the generation of the stream that is held -/
  stream : Option Nat
  /-- the number of the last view handed on from the held stream -/
  lastViewId : UInt64
  reconnector : Reconnector Rejoin

namespace Manager

def idle (config : ClientConfig) : Manager :=
  ⟨config, .disconnected, 0, none, 0, .idle ⟨config.reconnectInterval.toNat⟩⟩

/-- A client with certificates that can be trusted, if it needs any. -/
def create (files : Files) (config : ClientConfig) : Except ClientError Manager :=
  (config.checkCertificates files).map fun () => idle config

def isConnected (manager : Manager) : Bool :=
  manager.status = .connected

def isReconnecting (manager : Manager) : Bool :=
  manager.reconnector.isRunning

/-- Joins a cluster again whenever the stream breaks from now on. -/
def rejoinOnReconnect (manager : Manager) (cluster : String) (address : Address) : Manager :=
  { manager with reconnector := manager.reconnector.setFunction ⟨cluster, address⟩ }

def transportError (manager : Manager) (now : Nat) : Manager :=
  { manager with
    status := .disconnected
    stream := none
    generation := manager.generation + 1
    reconnector := (manager.reconnector.start now).2 }

/-- Holds a stream that has just been opened.  A relay that was started again
numbers views from the beginning. -/
def opened (manager : Manager) : Manager :=
  { manager with
    generation := manager.generation + 1
    stream := some (manager.generation + 1)
    lastViewId := 0 }

/-- Opens a stream and sends the first request, unless the client is not
disconnected. -/
def openWith (manager : Manager) (request : Request) (dial : Dial) (now : Nat) :
    Except ClientError Unit × Manager :=
  match manager.status.compareAndSet .disconnected .connecting with
  | (false, _) => (.ok (), manager)
  | (true, status) =>
    let manager := { manager with status }
    match dial with
    | .refused => (.error (.connect manager.config.url), manager.transportError now)
    | .unanswered => (.error manager.config.unanswered, manager.transportError now)
    | .broken => (.error (.send request.tag), manager.opened.transportError now)
    | .accepted => (.ok (), manager.opened)

def connect (manager : Manager) (cluster : String) (address : Address) (dial : Dial) (now : Nat) :
    Except ClientError Unit × Manager :=
  manager.openWith (.join ⟨cluster, address⟩) dial now

def registerView (manager : Manager) (cluster : String) (view : View) (address : Address)
    (dial : Dial) (now : Nat) : Except ClientError Unit × Manager :=
  manager.openWith (.registerView ⟨cluster, view, address⟩) dial now

def attempt (manager : Manager) (dial : Dial) (now : Nat) : Manager :=
  match manager.reconnector.task with
  | none => manager
  | some task => (manager.connect task.function.cluster task.function.address dial now).2

/-- Lets go of the stream, so that its reader no longer counts. -/
def detach (manager : Manager) (stopsReconnecting : Bool) : Option Nat × Manager :=
  let manager := if stopsReconnecting then
    { manager with reconnector := manager.reconnector.stop.2 } else manager
  match manager.stream with
  | none => (none, manager)
  | some stream =>
    (some stream, { manager with
      stream := none
      status := .disconnecting
      generation := manager.generation + 1 })

/-- What follows when a stream that was let go has ended. -/
def markDisconnected (manager : Manager) : Manager :=
  { manager with status := .disconnected }

/-- Leaves a cluster and closes the stream.  `isSent` says whether the request
to leave could be sent. -/
def disconnect (manager : Manager) (isSent : Bool) : Except ClientError Unit × Manager :=
  match manager.detach false with
  | (none, manager) => (.ok (), manager)
  | (some _, manager) =>
    (if isSent then .ok () else .error (.send "leave"), manager.markDisconnected)

/-- Stops to reconnect and closes the stream without leaving. -/
def stop (manager : Manager) : Manager :=
  (manager.detach true).2.markDisconnected

/-- Sends a request through the stream.  `isSent` says whether it could be
sent. -/
def sendRequest (manager : Manager) (request : Request) (isSent : Bool) :
    Except ClientError Unit :=
  if manager.isConnected ∧ manager.stream.isSome then
    if isSent then .ok () else .error (.send request.tag)
  else .error (.notConnected manager.config.target)

/-! ## What arrives -/

def isCurrent (manager : Manager) (generation : Nat) : Bool :=
  manager.generation = generation

/-- Takes the stream as established, and with it the view with a number, and
says whether that counts. -/
def establish (manager : Manager) (generation : Nat) (viewId : Option UInt64) : Bool × Manager :=
  if !manager.isCurrent generation ∨ viewId.any (· ≤ manager.lastViewId) then (false, manager)
  else
    (true, { manager with
      lastViewId := viewId.getD manager.lastViewId
      status := (manager.status.compareAndSet .connecting .connected).2
      reconnector := manager.reconnector.stop.2 })

/-- The reader of a stream hands a frame in.  Yields what the application is to
be told. -/
def receive (manager : Manager) (generation : Nat) (frame : Frame) : Option Event × Manager :=
  match Response.decode frame with
  | .error _ => (none, manager)
  | .ok (.view view) =>
    let (isNew, manager) := manager.establish generation (some view.viewId)
    (if isNew then some (.view view) else none, manager)
  | .ok (.message envelope) =>
    (if manager.isCurrent generation then some (.message envelope) else none, manager)
  | .ok .registerViewAck => (none, (manager.establish generation none).2)
  | .ok _ => (none, manager)

def streamEnded (manager : Manager) (generation : Nat) (now : Nat) : Manager :=
  if manager.isCurrent generation then manager.transportError now else manager

/-! ## Questions -/

/-- The question that a short stream of its own is opened for. -/
inductive Question : Type → Type
  | view (cluster : String) : Question (Option View)
  | listing : Question String

/-- How a short stream goes on after its frames. -/
inductive End
  | closed
  | silent
  deriving DecidableEq, Repr

namespace Question

def request : {α : Type} → Question α → Request
  | _, view cluster => .getView ⟨cluster⟩
  | _, listing => .dump

/-- The answer in a response, if it is one to this question. -/
def pick : {α : Type} → Question α → Response → Option α
  | _, view _, .getViewResponse response => some response.view
  | _, listing, .dumpResponse response => some response.text
  | _, _, _ => none

/-- The tag of the response that answers a question. -/
def awaited : {α : Type} → Question α → String
  | _, view _ => "getViewResponse"
  | _, listing => "dumpResponse"

/-- The answer to a question among the frames of a stream.  Other responses are
passed over, and a frame that is none puts an end to it. -/
def answerAmong {α : Type} (question : Question α) (timeout : Duration) (ending : End) :
    List Frame → Except ClientError α
  | [] =>
    match ending with
    | .closed => .error .streamClosed
    | .silent => .error (.timeout timeout question.awaited)
  | frame :: frames =>
    match Response.decode frame with
    | .error error => .error (.protocol error)
    | .ok response =>
      match question.pick response with
      | some answer => .ok answer
      | none => question.answerAmong timeout ending frames

end Question

/-- Asks the relay a question through a short stream of its own. -/
def ask {α : Type} (manager : Manager) (question : Question α) (dial : Dial)
    (frames : List Frame) (ending : End) : Except ClientError α :=
  match dial with
  | .refused => .error (.connect manager.config.url)
  | .unanswered => .error manager.config.unanswered
  | .broken => .error (.send question.request.tag)
  | .accepted =>
    question.answerAmong ⟨manager.config.requestTimeout.toNat⟩ ending frames

end Manager

end Muster
