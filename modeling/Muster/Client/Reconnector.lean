import Muster.Duration

/-!
# Reconnection

A reconnector calls a function, waits for a fixed interval after the call has
completed, and calls again until it is stopped.  At most one task does so at a
time, and a task keeps the function it was started with.
-/

namespace Muster

/-- A task that calls a function over and over. -/
structure Retry (φ : Type) where
  function : φ
  /-- when the next call is due, in milliseconds -/
  due : Nat
  /-- whether a call has put an end to the task -/
  isBroken : Bool
  deriving Repr

/-- Calls a function over and over. -/
structure Reconnector (φ : Type) where
  interval : Duration
  function : Option φ
  task : Option (Retry φ)
  deriving Repr

namespace Reconnector

variable {φ : Type}

def idle (interval : Duration) : Reconnector φ :=
  ⟨interval, none, none⟩

def isRunning (reconnector : Reconnector φ) : Bool :=
  reconnector.task.any (!·.isBroken)

/-- Sets the function to be called by tasks that start from now on. -/
def setFunction (reconnector : Reconnector φ) (function : φ) : Reconnector φ :=
  { reconnector with function := some function }

/-- Starts a task, unless one is running or there is nothing to call. -/
def start (reconnector : Reconnector φ) (now : Nat) : Bool × Reconnector φ :=
  match reconnector.isRunning, reconnector.function with
  | false, some function =>
    (true, { reconnector with task := some ⟨function, now, false⟩ })
  | _, _ => (false, reconnector)

/-- Stops the task, if there is one, and says whether it was running. -/
def stop (reconnector : Reconnector φ) : Bool × Reconnector φ :=
  (reconnector.isRunning, { reconnector with task := none })

/-- The reconnector as it is shown to operators. -/
def display (reconnector : Reconnector φ) : String :=
  "Reconnector \x7b interval: " ++ reconnector.interval.text ++ ", running: " ++
    (if reconnector.isRunning then "true" else "false") ++ " \x7d"

end Reconnector

/-! ## Time -/

/-- A function that counts its calls. -/
structure Attempt where
  name : String
  /-- how long a call takes -/
  takes : Duration
  /-- the call that puts an end to the task -/
  breaksAt : Option Nat
  deriving DecidableEq, Repr

/-- A reconnector on a clock. -/
structure Rehearsal where
  reconnector : Reconnector Attempt
  now : Nat
  /-- how often functions have been called, by name -/
  calls : List (String × Nat)

namespace Rehearsal

def idle (interval : Duration) : Rehearsal :=
  ⟨.idle interval, 0, []⟩

def count (rehearsal : Rehearsal) (name : String) : Nat :=
  (rehearsal.calls.lookup name).getD 0

def start (rehearsal : Rehearsal) : Bool × Rehearsal :=
  let (started, reconnector) := rehearsal.reconnector.start rehearsal.now
  (started, { rehearsal with reconnector })

def stop (rehearsal : Rehearsal) : Bool × Rehearsal :=
  let (stopped, reconnector) := rehearsal.reconnector.stop
  (stopped, { rehearsal with reconnector })

/-- The task calls its function at the time that is due. -/
def call (rehearsal : Rehearsal) (task : Retry Attempt) : Rehearsal :=
  let function := task.function
  let count := rehearsal.count function.name + 1
  let others := rehearsal.calls.filter fun entry => entry.1 ≠ function.name
  let due := task.due + function.takes.millis + rehearsal.reconnector.interval.millis
  { rehearsal with
    calls := (function.name, count) :: others
    reconnector := { rehearsal.reconnector with
      task := some { task with due, isBroken := function.breaksAt = some count } } }

/-- Makes the calls that are due before a moment, at most `fuel` of them. -/
def callUntil (moment : Nat) : Nat → Rehearsal → Rehearsal
  | 0, rehearsal => rehearsal
  | fuel + 1, rehearsal =>
    match rehearsal.reconnector.task with
    | none => rehearsal
    | some task =>
      if task.isBroken ∨ moment ≤ task.due then rehearsal
      else callUntil moment fuel (rehearsal.call task)

/-- Lets time pass.  What is due at the very end is left for later.  With a
positive interval there is at most one call per millisecond. -/
def advance (rehearsal : Rehearsal) (time : Duration) : Rehearsal :=
  let moment := rehearsal.now + time.millis
  { callUntil moment (time.millis + 1) rehearsal with now := moment }

end Rehearsal

end Muster
