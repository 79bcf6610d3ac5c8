import Muster.Duration
import Muster.Message.Frame
import Muster.Net.Ip

/-!
# Sessions

A session is the relay's end of one member's connection.  What becomes of each
write is decided by the other end: the frame is taken, the connection turns out
to be broken, or the write gets stuck.  A stuck write is given up after the
timeout of the session.  Once a session is closed every write fails at once.
-/

namespace Muster

open Text

/-- The number of a session, unique while the relay lives. -/
structure SessionId where
  number : UInt64
  deriving DecidableEq, Repr, Inhabited

def SessionId.text (id : SessionId) : String :=
  "session-" ++ decimal id.number.toNat

/-- What the other end makes of a write. -/
inductive Fate
  | taken
  | broken
  | stuck
  deriving DecidableEq, Repr

/-- Why a write failed at once. -/
inductive LineFault
  /-- the session had been closed before -/
  | closed
  /-- the other end is gone -/
  | gone
  deriving DecidableEq, Repr

def LineFault.message : LineFault → String
  | closed => "Trying to work with closed connection"
  | gone => "Connection closed normally"

/-- Why a frame was not sent. -/
inductive SendError
  | failed (id : SessionId) (fault : LineFault)
  | timedOut (id : SessionId) (after : Duration)
  deriving DecidableEq, Repr

namespace SendError

def message : SendError → String
  | failed id fault => "Failed to send to " ++ id.text ++ ": " ++ fault.message
  | timedOut id after => "Send to " ++ id.text ++ " timed out after " ++ after.text

end SendError

/-- What arrives at the other end. -/
inductive Outgoing
  | message (frame : Frame)
  /-- the answer to a ping -/
  | pong (payload : Frame)
  deriving DecidableEq, Repr

/-- The relay's end of a connection. -/
structure Session where
  id : SessionId
  remote : Option Net.Endpoint
  /-- the bound on every write -/
  timeout : Duration
  /-- what becomes of the writes, the first one after the last change first -/
  fates : Nat → Fate
  /-- the writes so far -/
  writes : Nat
  isClosed : Bool
  /-- what the other end has taken -/
  received : List Outgoing

namespace Session

/-- The timeout of a session that is given none. -/
def defaultTimeout : Duration := ⟨1000⟩

/-- A session whose other end takes everything. -/
def fresh (id : SessionId) : Session :=
  ⟨id, none, defaultTimeout, fun _ => .taken, 0, false, []⟩

/-- The session with a new course of its writes. -/
def withFates (session : Session) (fates : Nat → Fate) : Session :=
  { session with fates, writes := 0 }

def next (session : Session) : Fate :=
  session.fates session.writes

def isStuck (session : Session) : Bool :=
  !session.isClosed && session.next = .stuck

def send (session : Session) (frame : Frame) : Session × Except SendError Unit :=
  if session.isClosed then (session, .error (.failed session.id .closed))
  else
    let after := { session with writes := session.writes + 1 }
    match session.next with
    | .taken => ({ after with received := session.received ++ [.message frame] }, .ok ())
    | .broken => (after, .error (.failed session.id .gone))
    | .stuck => (after, .error (.timedOut session.id session.timeout))

/-- Sends frames that were all handed in at once.  Behind a stuck one the others
wait in vain. -/
def sendAll (session : Session) : List Frame → Session × List (Except SendError Unit)
  | [] => (session, [])
  | frame :: frames =>
    if session.isStuck then
      (session, (frame :: frames).map fun _ => .error (.timedOut session.id session.timeout))
    else
      let (session, result) := session.send frame
      let (session, results) := session.sendAll frames
      (session, result :: results)

/-- Answers a ping, as far as the other end can take it. -/
def pong (session : Session) (payload : Frame) : Session :=
  if session.isClosed ∨ session.next ≠ .taken then session
  else { session with received := session.received ++ [.pong payload] }

/-- Closes a session whose next write would be taken.  Others stay as they are:
a broken one has nothing to close, and a stuck one is given up.  They are not closed, so
they take frames again should the other end do so later.  That is more than a real end
can do once a write has failed. -/
def close (session : Session) : Session :=
  if session.next = .taken then { session with isClosed := true } else session

/-- What the wait for the other end comes to when it is stuck. -/
def patience (session : Session) : Duration :=
  if session.isStuck then session.timeout else .zero

def display (session : Session) : String :=
  "Session \x7b id: SessionId(" ++ decimal session.id.number.toNat ++ "), remote: " ++
    (match session.remote with
      | none => "None"
      | some remote => "Some(" ++ remote.text ++ ")") ++ " \x7d"

end Session

end Muster
