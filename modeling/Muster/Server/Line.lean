import Muster.Session.Basic

/-!
# Lines

Whatever is written to a session goes through its line, one thing after the
other.  As long as the other end takes everything, nobody waits for a line.  When
it is stuck, the first to claim the line has it until the deadline of the claim,
and so do the next ones after it; those whose deadlines pass before that have
waited in vain.

A closing that has got the line makes it refuse what is written later: such a
write is over when it gets the line.  A closing itself is never over before its
deadline, and neither is a write that has got the line before.

A line passes on when the task that has it looks at its claims and finds that
one of them is over.  The task that comes next does not learn it before its own
turn.
-/

namespace Muster

/-- A claim of a task on the line of a stuck session. -/
structure Claim where
  task : SessionId
  line : SessionId
  /-- when the claim is given up -/
  deadline : Nat
  /-- whether the session is to be closed, and not written to -/
  isClosing : Bool
  /-- whether its task has found out that the claim has the line -/
  isUnderWay : Bool
  deriving DecidableEq, Repr

namespace Claim

def isLate (claim : Claim) (now : Nat) : Bool :=
  claim.deadline ≤ now

/-- Whether a claim is over when it has the line, although time is left. -/
def isSpent (claim : Claim) (isStuck : SessionId → Bool) (refusing : List SessionId) : Bool :=
  !isStuck claim.line ||
    (!claim.isClosing && !claim.isUnderWay && refusing.contains claim.line)

/-- What a task makes of a claim of its own, unless it is over. -/
def poll? (claim : Claim) (isHeld : Bool) (isStuck : SessionId → Bool) (now : Nat)
    (refusing : List SessionId) : Option Claim :=
  if claim.isLate now then none
  else if isHeld then some claim
  else if claim.isSpent isStuck refusing then none
  else some { claim with isUnderWay := true }

end Claim

/-- The lines of all sessions. -/
structure Lines where
  /-- what is waited for, in the order in which it was claimed -/
  claims : List Claim
  /-- the lines that refuse what is written -/
  refusing : List SessionId
  deriving DecidableEq, Repr

namespace Lines

def idle : Lines := ⟨[], []⟩

def isWaiting (lines : Lines) (task : SessionId) : Bool :=
  lines.claims.any (·.task = task)

def add (lines : Lines) (claims : List Claim) : Lines :=
  { lines with claims := lines.claims ++ claims }

/-- A line refuses what is written from now on. -/
def refuse (lines : Lines) (line : SessionId) : Lines :=
  { lines with refusing := lines.refusing.insert line }

/-- A task looks at its claims.  Lines in `held` belong to earlier claims, and
those in `vacant` have been given back by the task without being taken again.
Besides the lines, the tasks are found to which a line has passed. -/
def pollClaims (task : SessionId) (isStuck : SessionId → Bool) (now : Nat)
    (held vacant refusing : List SessionId) : List Claim → Lines × List SessionId
  | [] => (⟨[], refusing⟩, [])
  | claim :: claims =>
    let line := claim.line
    let isHeld := held.contains line
    if claim.task = task then
      let refusing := if claim.isClosing && !isHeld then refusing.insert line else refusing
      match claim.poll? isHeld isStuck now refusing with
      | none =>
        pollClaims task isStuck now held (if isHeld then vacant else line :: vacant) refusing claims
      | some claim =>
        let (lines, heirs) :=
          pollClaims task isStuck now (line :: held) (vacant.erase line) refusing claims
        ({ lines with claims := claim :: lines.claims }, heirs)
    else
      let (lines, heirs) :=
        pollClaims task isStuck now (line :: held) (vacant.erase line) refusing claims
      ({ lines with claims := claim :: lines.claims },
        if !isHeld && vacant.contains line then claim.task :: heirs else heirs)

def poll (lines : Lines) (task : SessionId) (isStuck : SessionId → Bool) (now : Nat) :
    Lines × List SessionId :=
  pollClaims task isStuck now [] [] lines.refusing lines.claims

/-- The tasks with a claim whose deadline has passed. -/
def late (lines : Lines) (now : Nat) : List SessionId :=
  (lines.claims.filter (·.isLate now)).map Claim.task

def holder? (lines : Lines) (line : SessionId) : Option SessionId :=
  (lines.claims.find? (·.line = line)).map Claim.task

/-- The earliest deadline. -/
def nextDeadline? (lines : Lines) : Option Nat :=
  (lines.claims.map Claim.deadline).min?

end Lines

end Muster
