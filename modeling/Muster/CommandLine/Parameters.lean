/-!
# Parameters

Arguments are read from the left to the right.  A value follows its parameter
as the next argument, behind an equals sign, or right behind a short name; an
argument that starts with a dash is no value.  A parameter is given at most
once.  What is not given is taken from the environment.
-/

namespace Muster.CommandLine

/-- What a parameter takes. -/
inductive Takes
  | nothing
  | text
  /-- a text that is not empty -/
  | path
  /-- a number of 16 bits -/
  | port
  /-- a number of 64 bits -/
  | count
  deriving DecidableEq, Repr

/-- Something that may be given. -/
structure Parameter where
  long : String
  short : Option Char
  /-- the name in the environment -/
  environment : Option String
  takes : Takes
  /-- another parameter that must be given too -/
  companion : Option String
  deriving Repr

/-- What has been given. -/
inductive Value
  | set
  | text (value : String)
  | number (value : Nat)
  deriving DecidableEq, Repr

/-- Why arguments are refused. -/
inductive Refusal
  | unknown (argument : String)
  | missingValue (parameter : String)
  | needlessValue (parameter : String)
  | badValue (parameter value : String)
  | repeated (parameter : String)
  | missingCompanion (parameter companion : String)
  deriving DecidableEq, Repr

/-- Why arguments give nothing to work with. -/
inductive Stop
  | refused (refusal : Refusal)
  /-- an explanation is asked for -/
  | help
  deriving DecidableEq, Repr

abbrev Given := List (String × Value)

/-- A number of decimal digits, which may follow a plus sign. -/
def natural? : List Char → Option Nat
  | '+' :: digits => number? digits
  | digits => number? digits
where
  /-- A number of at least one digit. -/
  number? (digits : List Char) : Option Nat :=
    if digits.isEmpty ∨ !digits.all Char.isDigit then none
    else some (digits.foldl (fun value c => 10 * value + (c.toNat - '0'.toNat)) 0)

def Takes.read? (takes : Takes) (value : String) : Option Value :=
  match takes with
  | nothing => none
  | text => some (.text value)
  | path => if value.isEmpty then none else some (.text value)
  | port =>
    match value.toList with
    | '-' :: digits =>
      if natural?.number? digits = some 0 then some (.number 0) else none
    | digits => (natural? digits).bind fun n => if n < Nat.pow 2 16 then some (.number n) else none
  | count => (natural? value.toList).bind fun n => if n < Nat.pow 2 64 then some (.number n) else none

def give (given : Given) (parameter : Parameter) (value : String) : Except Stop Given :=
  if (given.lookup parameter.long).isSome then throw (.refused (.repeated parameter.long))
  else match parameter.takes.read? value with
    | some value => return given ++ [(parameter.long, value)]
    | none => throw (.refused (.badValue parameter.long value))

def switchOn (given : Given) (parameter : Parameter) : Except Stop Given :=
  if (given.lookup parameter.long).isSome then throw (.refused (.repeated parameter.long))
  else return given ++ [(parameter.long, .set)]

/-- Whether an argument cannot be the value of the one before. -/
def isDashed (argument : String) : Bool :=
  argument.startsWith "-" && argument ≠ "-"

/-- An argument taken apart: the name of a parameter and the value that is
attached to it. -/
inductive Shape
  /-- two dashes -/
  | barrier
  | long (name : String) (attached : Option String)
  | short (name : Char) (attached : Option String)
  | plain

def shapeOf (argument : String) : Shape :=
  match argument.toList with
  | ['-', '-'] => .barrier
  | '-' :: '-' :: rest =>
    let name := rest.takeWhile (· ≠ '=')
    .long (String.ofList name)
      (if name.length < rest.length then
        some (String.ofList (rest.drop (name.length + 1)))
      else none)
  | '-' :: name :: rest =>
    .short name (match rest with
      | [] => none
      | '=' :: value => some (String.ofList value)
      | value => some (String.ofList value))
  | _ => .plain

/-- Arguments that have been read in part. -/
structure Progress where
  given : Given
  /-- the parameter that waits for its value -/
  pending : Option Parameter
  /-- whether two dashes alone have been met, behind which nothing is a parameter -/
  isBarred : Bool

def meet (progress : Progress) (parameter : Parameter) (attached : Option String) :
    Except Stop Progress := do
  match parameter.takes, attached with
  | .nothing, some _ => throw (.refused (.needlessValue parameter.long))
  | .nothing, none => return { progress with given := ← switchOn progress.given parameter }
  | _, some value => return { progress with given := ← give progress.given parameter value }
  | _, none => return { progress with pending := some parameter }

def readArgument (parameters : List Parameter) (progress : Progress) (argument : String) :
    Except Stop Progress := do
  let unknown : Except Stop Progress := throw (.refused (.unknown argument))
  let named (parameter? : Option Parameter) (attached : Option String) : Except Stop Progress :=
    match parameter? with
    | none => unknown
    | some parameter => meet progress parameter attached
  match progress.pending with
  | some parameter =>
    if isDashed argument then throw (.refused (.missingValue parameter.long))
    return { progress with given := ← give progress.given parameter argument, pending := none }
  | none =>
    if progress.isBarred then unknown
    else match shapeOf argument with
      | .barrier => return { progress with isBarred := true }
      | .long "help" none => throw .help
      | .short 'h' _ => throw .help
      | .long name attached => named (parameters.find? (·.long = name)) attached
      | .short name attached => named (parameters.find? (·.short = some name)) attached
      | .plain => unknown

def readArguments (parameters : List Parameter) (arguments : List String) :
    Except Stop Given := do
  let progress ← arguments.foldlM (readArgument parameters) ⟨[], none, false⟩
  match progress.pending with
  | some parameter => throw (.refused (.missingValue parameter.long))
  | none => return progress.given

/-- Fills in from the environment what the arguments do not give. -/
def addEnvironment (environment : String → Option String) :
    List Parameter → Given → Except Stop Given
  | [], given => return given
  | parameter :: parameters, given =>
    match given.lookup parameter.long, parameter.environment.bind environment with
    | none, some value => do addEnvironment environment parameters (← give given parameter value)
    | _, _ => addEnvironment environment parameters given

/-- Checks that no parameter lacks the one that goes with it. -/
def checkCompanions (given : Given) : List Parameter → Except Stop Unit
  | [] => return
  | parameter :: parameters => do
    if let some companion := parameter.companion then
      if (given.lookup parameter.long).isSome ∧ (given.lookup companion).isNone then
        throw (.refused (.missingCompanion parameter.long companion))
    checkCompanions given parameters

def read (parameters : List Parameter) (environment : String → Option String)
    (arguments : List String) : Except Stop Given := do
  let given ← addEnvironment environment parameters (← readArguments parameters arguments)
  checkCompanions given parameters
  return given

namespace Given

def text? (given : Given) (name : String) : Option String :=
  match given.lookup name with
  | some (.text value) => some value
  | _ => none

def number? (given : Given) (name : String) : Option Nat :=
  match given.lookup name with
  | some (.number value) => some value
  | _ => none

end Given

end Muster.CommandLine
