import Muster.Session.Basic

/-!
# The sessions of a relay

The table finds a session by its number.  A number that was never put into it
stands for a session whose other end takes everything.
-/

namespace Muster

/-- The sessions by their numbers. -/
structure Sessions where
  entries : List Session

namespace Sessions

def empty : Sessions := ⟨[]⟩

def get (sessions : Sessions) (id : SessionId) : Session :=
  (sessions.entries.find? (·.id = id)).getD (.fresh id)

/-- The entries with one of them replaced or added. -/
def replace (session : Session) : List Session → List Session
  | [] => [session]
  | other :: entries =>
    if other.id = session.id then session :: entries else other :: replace session entries

def put (sessions : Sessions) (session : Session) : Sessions :=
  ⟨replace session sessions.entries⟩

def close (sessions : Sessions) (id : SessionId) : Sessions :=
  sessions.put (sessions.get id).close

def closed (sessions : Sessions) : List SessionId :=
  (sessions.entries.filter Session.isClosed).map Session.id

/-- What every session has received, and the table without it. -/
def collect (sessions : Sessions) : List (SessionId × List Outgoing) × Sessions :=
  ((sessions.entries.filter (!·.received.isEmpty)).map fun session =>
      (session.id, session.received),
    ⟨sessions.entries.map fun session => { session with received := [] }⟩)

end Sessions

end Muster
