/-!
# Connection status

The status of a client's connection.  A guarded change happens only when the
status is the expected one.
-/

namespace Muster

/-- How a client stands to its relay. -/
inductive Status
  | disconnected
  | connecting
  | connected
  | disconnecting
  deriving DecidableEq, Repr, Inhabited

namespace Status

def text : Status → String
  | disconnected => "disconnected"
  | connecting => "connecting"
  | connected => "connected"
  | disconnecting => "disconnecting"

def isOneOf (status : Status) (statuses : List Status) : Bool :=
  statuses.contains status

/-- Moves to `next` if the status is the expected one, and says whether it
was. -/
def compareAndSet (status expected next : Status) : Bool × Status :=
  if status = expected then (true, next) else (false, status)

end Status

end Muster
