import Muster.Server.Connection
import Muster.Server.Line

/-!
# The server

A relay with its connections and a clock.  Tasks take turns: the one whose turn
it is goes on until it has nothing to do or waits for the lines of stuck
sessions, and then the next one follows.  A task comes in line again when
something has arrived for it, when one of its deadlines passes, and when a line
passes to it.

A peer whose session is closed by the relay closes its stream in answer, after
everything it has sent before.  A stalled peer takes nothing, so its session
cannot be closed and stays open.  Nothing more is written to a peer that has
closed its stream, except that what is under way to a stalled one goes on until
it is given up.
-/

namespace Muster

/-- Somebody who takes a turn. -/
inductive Turn
  /-- the task of a connection -/
  | task (session : SessionId)
  /-- the peer at its other end -/
  | peer (session : SessionId)
  deriving DecidableEq, Repr

/-- A relay that serves connections. -/
structure Server where
  relay : Relay
  /-- the bound on every write -/
  sendTimeout : Duration
  connections : List Connection
  /-- those with something to do, in the order of their turns -/
  turns : List Turn
  lines : Lines
  /-- milliseconds since the start -/
  now : Nat

namespace Server

def start (sendTimeout : Duration) : Server :=
  ⟨⟨.empty Ledger.defaultCapacity, .empty⟩, sendTimeout, [], [], .idle, 0⟩

def find? (server : Server) (session : SessionId) : Option Connection :=
  server.connections.find? (·.session = session)

def modify (server : Server) (session : SessionId) (change : Connection → Connection) : Server :=
  { server with
    connections := server.connections.map fun connection =>
      if connection.session = session then change connection else connection }

def modifySession (server : Server) (session : SessionId) (change : Session → Session) : Server :=
  let sessions := server.relay.sessions
  { server with
    relay := { server.relay with sessions := sessions.put (change (sessions.get session)) } }

/-- Puts somebody behind all others in line, unless they stand there already. -/
def enqueue (turns : List Turn) (turn : Turn) : List Turn :=
  if turns.contains turn then turns else turns ++ [turn]

def wake (server : Server) (turns : List Turn) : Server :=
  { server with turns := turns.foldl enqueue server.turns }

/-- Something arrives through a connection.  A task that waits looks at it when it
waits no more. -/
def arrive (server : Server) (session : SessionId) (arrival : Arrival) : Server :=
  let server := server.modify session (·.arrive arrival)
  if server.lines.isWaiting session then server else server.wake [.task session]

def ended (server : Server) : List SessionId :=
  (server.connections.filter Connection.isOver).map Connection.session

/-! ## Taking turns -/

/-- Whether what is written to a session gets stuck. -/
def isStuck (server : Server) (session : SessionId) : Bool :=
  (server.relay.sessions.get session).isStuck

def claim (server : Server) (task : SessionId) (isClosing : Bool) (sessions : List SessionId) :
    Server :=
  { server with
    lines := server.lines.add (sessions.map fun session =>
      ⟨task, session, server.now + (server.relay.sessions.get session).timeout.millis,
        isClosing, false⟩) }

/-- A task looks at its claims, and those that get a line from it get a turn. -/
def poll (server : Server) (task : SessionId) : Server :=
  let (lines, heirs) := server.lines.poll task server.isStuck server.now
  { server with lines }.wake (heirs.map .task)

/-- Whether the session of a connection has been closed and its peer has not
answered. -/
def isAnswerDue (server : Server) (connection : Connection) : Bool :=
  !connection.hasEnded && (server.relay.sessions.get connection.session).isClosed

/-- The peers of sessions that have been closed get a turn. -/
def wakePeers (server : Server) : Server :=
  server.wake ((server.connections.filter server.isAnswerDue).map fun connection =>
    .peer connection.session)

def pass (server : Server) : Server :=
  { server with turns := server.turns.tail }

/-- A task does one piece of its work, and has `others` to do after it. -/
def workOn (server : Server) (session : SessionId) (work : Work) (others : List Work) : Server :=
  let step := server.relay.step work
  (({ server with relay := step.relay }.modify session
    ({ · with work := step.next ++ others })).claim session work.isClosing
      step.pause.sessions).wakePeers

/-- The stream of a connection is over, and its members are to be forgotten. -/
def depart (server : Server) (session : SessionId) (inbox : List Arrival) : Server :=
  server.modify session ({ · with inbox, work := [.forget session], isLeaving := true })

/-- Nothing more is written to a peer that has closed its stream.  A stalled one
has not taken what is under way. -/
def shut (server : Server) (session : SessionId) : Server :=
  if server.isStuck session then { server with lines := server.lines.refuse session }
  else server.modifySession session (·.withFates fun _ => .broken)

def look (server : Server) (connection : Connection) (arrival : Arrival) (inbox : List Arrival) :
    Server :=
  let session := connection.session
  match arrival with
  | .frame bytes =>
    server.modify session ({ · with inbox, work := Connection.workFor session bytes })
  | .ping payload =>
    (server.modify session ({ · with inbox })).modifySession session (·.pong payload)
  | .closing => (server.depart session inbox).shut session
  | .failure => server.depart session inbox

/-- Whether there is something to do in a turn. -/
def isBusy (server : Server) : Turn → Bool
  | .task session =>
    !server.lines.isWaiting session &&
      (server.find? session).any fun connection =>
        !connection.isOver && !(connection.work.isEmpty && connection.inbox.isEmpty)
  | .peer session => (server.find? session).any server.isAnswerDue

def step (server : Server) : Turn → Server
  | .task session =>
    match server.find? session with
    | none => server
    | some connection =>
      match connection.work, connection.inbox with
      | work :: others, _ => server.workOn session work others
      | [], arrival :: inbox =>
        if connection.isLeaving then server.modify session ({ · with inbox := [] })
        else server.look connection arrival inbox
      | [], [] => server
  | .peer session => server.arrive session .closing

/-- Whoever is first in line finds out whether there is something to do. -/
def begin (server : Server) : Turn → Server
  | .task session => server.poll session
  | .peer _ => server

/-- A turn is over.  A task that has looked at the end of its stream and waits no
more is done for good. -/
def rest (server : Server) : Turn → Server
  | .task session =>
    if server.lines.isWaiting session then server.pass
    else (server.modify session fun connection =>
      { connection with isOver := connection.isLeaving }).pass
  | .peer _ => server.pass

/-- Passes on at most `fuel` turns until somebody has something to do. -/
def skimFor : Nat → Server → Server
  | 0, server => server
  | fuel + 1, server =>
    match server.turns with
    | [] => server
    | turn :: _ =>
      let server := server.begin turn
      if server.isBusy turn then server else skimFor fuel (server.rest turn)

/-- Passes turns on until somebody has something to do.  A line that passes on
brings a turn for a claim that is over. -/
def skim (server : Server) : Server :=
  skimFor (server.turns.length + server.lines.claims.length) server

/-- A bound on the steps until every task is idle or waits. -/
def effort (server : Server) : Nat :=
  8 * server.relay.registry.population + Connection.effortOfAll server.connections

/-- Lets everybody take turns, for at most `fuel` steps. -/
def settleFor : Nat → Server → Server
  | 0, server => server.skim
  | fuel + 1, server =>
    let server := server.skim
    match server.turns with
    | [] => server
    | turn :: _ => settleFor fuel (server.step turn)

/-- Lets everybody take turns until every task is idle or waits. -/
def settle (server : Server) : Server :=
  settleFor server.effort server

/-! ## What happens to a server -/

def nextId (server : Server) : SessionId :=
  ⟨server.connections.length.toUInt64 + 1⟩

def connect (server : Server) (isStalled : Bool) : SessionId × Server :=
  let id := server.nextId
  let session := { Session.fresh id with
    timeout := server.sendTimeout
    fates := fun _ => if isStalled then .stuck else .taken }
  (id, { server.modifySession id (fun _ => session) with
    connections := server.connections ++ [.opened id] })

/-- A peer sends a message, which may be text or bytes. -/
def receive (server : Server) (session : SessionId) (frame : Frame) : Server :=
  (server.arrive session (.ofMessage frame)).settle

def ping (server : Server) (session : SessionId) (payload : Frame) : Server :=
  (server.arrive session (.ofPing payload)).settle

def hangUp (server : Server) (session : SessionId) : Server :=
  (server.arrive session .closing).settle

/-- The connection to a peer is cut.  Writes to it fail from now on, and what is
under way is over. -/
def cut (server : Server) (session : SessionId) : Server :=
  (((server.modifySession session (·.withFates fun _ => .broken)).arrive session .failure).wake
    ((server.lines.holder? session).map Turn.task).toList).settle

/-- A moment comes, at which deadlines may pass. -/
def reach (server : Server) (moment : Nat) : Server :=
  ({ server with now := moment }.wake ((server.lines.late moment).map Turn.task)).settle

/-- Lets time pass up to a moment, one deadline after the other. -/
def runUntil (moment : Nat) : Nat → Server → Server
  | 0, server => server
  | fuel + 1, server =>
    match server.lines.nextDeadline? with
    | none => { server with now := moment }
    | some deadline =>
      if moment < deadline then { server with now := moment }
      else runUntil moment fuel (server.reach deadline)

/-- Lets time pass.  No two deadlines that are reached one after the other are
less than a millisecond apart. -/
def advance (server : Server) (time : Duration) : Server :=
  runUntil (server.now + time.millis) (time.millis + 1) server

end Server

end Muster
