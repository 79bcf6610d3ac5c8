import Muster.Membership
import Muster.Session.Table

/-!
# Delivery

A frame is written to several recipients at once.  Each write stands for
itself: the failed ones are reported by their addresses, and a stuck one holds
up nobody but the caller, who goes on when the longest wait is over.
-/

namespace Muster

/-- A wait for the other ends of some sessions. -/
structure Pause where
  sessions : List SessionId
  length : Duration
  deriving DecidableEq, Repr

namespace Pause

def none : Pause := ⟨[], .zero⟩

/-- The wait for a write to a session or for its closing. -/
def of (session : Session) : Pause :=
  if session.isStuck then ⟨[session.id], session.timeout⟩ else none

def both (a b : Pause) : Pause :=
  ⟨a.sessions ++ b.sessions, max a.length b.length⟩

end Pause

/-- What became of a frame. -/
structure Delivery where
  /-- the recipients whose write failed -/
  failed : List Address
  pause : Pause
  sessions : Sessions

def deliver (frame : Frame) : List Recipient → Sessions → Delivery
  | [], sessions => ⟨[], .none, sessions⟩
  | recipient :: recipients, sessions =>
    let session := sessions.get recipient.session
    let (after, result) := session.send frame
    let others := deliver frame recipients (sessions.put after)
    { others with
      failed := match result with
        | .ok () => others.failed
        | .error _ => recipient.address :: others.failed
      pause := (Pause.of session).both others.pause }

end Muster
