import Muster.Relay.Work

/-!
# Connections

Every connection has a task that takes what arrives, one thing after the other,
and works on it until nothing is left to do.  While the task waits for a stuck
session, what arrives in the meantime queues up.

A stream ends in two ways: the peer closes it, or it fails.  It also fails when
the peer sends more at once than a stream carries.
-/

namespace Muster

/-- What arrives through a connection. -/
inductive Arrival
  | frame (bytes : Frame)
  | ping (payload : Frame)
  /-- the peer closes the stream -/
  | closing
  /-- the stream fails -/
  | failure
  deriving DecidableEq, Repr

namespace Arrival

/-- The number of bytes that a message has at most. -/
def messageLimit : Nat := Nat.pow 2 24

/-- The number of bytes that a ping carries at most. -/
def pingLimit : Nat := 125

def ofMessage (bytes : Frame) : Arrival :=
  if messageLimit < bytes.length then failure else frame bytes

def ofPing (payload : Frame) : Arrival :=
  if pingLimit < payload.length then failure else ping payload

def isLast : Arrival → Bool
  | frame _ => false
  | ping _ => false
  | closing => true
  | failure => true

end Arrival

/-- A connection and its task. -/
structure Connection where
  session : SessionId
  /-- what has arrived and not been looked at yet -/
  inbox : List Arrival
  /-- what remains to be done about the last thing looked at -/
  work : List Work
  /-- whether nothing more can arrive -/
  hasEnded : Bool
  /-- whether the end of the stream has been looked at -/
  isLeaving : Bool
  /-- whether the task is done for good -/
  isOver : Bool

namespace Connection

/-- A connection through which nothing has arrived yet. -/
def opened (session : SessionId) : Connection :=
  ⟨session, [], [], false, false, false⟩

/-- Something arrives, unless the stream is over. -/
def arrive (connection : Connection) (arrival : Arrival) : Connection :=
  if connection.hasEnded then connection
  else { connection with
    inbox := connection.inbox ++ [arrival]
    hasEnded := arrival.isLast }

/-- The work that a frame asks for.  Frames that are no requests ask for
nothing. -/
def workFor (session : SessionId) (frame : Frame) : List Work :=
  match Request.decode frame with
  | .ok request => [.serve session request]
  | .error _ => []

/-- A bound on the steps that an arrival takes: one to look at it, and those of
the work that it asks for. -/
def effortOf (session : SessionId) : Arrival → Nat
  | .frame bytes => 1 + Relay.effortOfAll (workFor session bytes)
  | .ping _ => 1
  | .closing => 2
  | .failure => 2

/-- A bound on the steps that a connection takes.  As long as its stream goes
on, the end of the stream is still to come, which is a step of the peer and what
follows from it. -/
def effort (connection : Connection) : Nat :=
  total (connection.inbox.map (effortOf connection.session)) +
    Relay.effortOfAll connection.work + (if connection.hasEnded then 0 else 3)

def effortOfAll (connections : List Connection) : Nat :=
  total (connections.map effort)

end Connection

end Muster
