import Muster.Client.Manager
import Muster.CommandLine.Parameters
import Muster.Server.Config

/-!
# The programs

Two programs share this library: one serves a relay, the other lists the
clusters of a running one.  Values come from the arguments, then from the
environment, then from a configuration file, then from defaults.
-/

namespace Muster.CommandLine

open Text

/-- An error with what it goes back to, the nearest cause first. -/
structure Report where
  message : String
  causes : List String
  deriving DecidableEq, Repr

namespace Report

def numbered (number : Nat) (cause : String) : String :=
  let digits := (decimal number).toList
  String.ofList (List.replicate (5 - digits.length) ' ' ++ digits) ++ ": " ++ cause ++ "\n"

/-- The report as it is printed.  Several causes are numbered. -/
def text (report : Report) : String :=
  "Error: " ++ report.message ++ "\n" ++
    match report.causes with
    | [] => ""
    | [cause] => "\nCaused by:\n    " ++ cause ++ "\n"
    | causes =>
      "\nCaused by:\n" ++ joined "" ((causes.zipIdx).map fun (cause, number) =>
        numbered number cause)

end Report

/-- What a program comes to before it does its work. -/
inductive Failure
  /-- nothing is done, because of the arguments -/
  | stopped (stop : Stop)
  | failed (report : Report)
  deriving DecidableEq, Repr

def Failure.exitCode : Failure → UInt32
  | stopped (.refused _) => 2
  | stopped .help => 0
  | failed _ => 1

/-- An error of a configuration and what it goes back to. -/
def reportOf (message : String) (error : ConfigError) : Report :=
  ⟨message, error.message :: error.cause?.toList⟩

/-! ## Serving -/

def serverParameters : List Parameter := [
  ⟨"config", some 'c', some "RELAY_CONFIG", .path, none⟩,
  ⟨"bind", some 'b', some "RELAY_BIND", .text, none⟩,
  ⟨"port", some 'p', some "RELAY_PORT", .port, none⟩,
  ⟨"cert", none, some "RELAY_CERT", .path, some "key"⟩,
  ⟨"key", none, some "RELAY_KEY", .path, some "cert"⟩,
  ⟨"send-timeout-ms", none, some "RELAY_SEND_TIMEOUT_MS", .count, none⟩,
  ⟨"verbose", none, none, .nothing, none⟩]

def serverGiven (environment : String → Option String) (arguments : List String) :
    Except Failure Given :=
  (read serverParameters environment arguments).mapError .stopped

/-- Puts what has been given over a configuration. -/
def overrideWith (given : Given) (config : ServerConfig) : ServerConfig :=
  let config := { config with
    bind := (given.text? "bind").getD config.bind
    port := ((given.number? "port").map Nat.toUInt16).getD config.port
    sendTimeout := ((given.number? "send-timeout-ms").map UInt64.ofNat).getD config.sendTimeout }
  match given.text? "cert", given.text? "key" with
  | some certificate, some key => config.withTls certificate key
  | _, _ => config

def serverConfig (files : Files) (given : Given) : Except Failure ServerConfig := do
  match given.text? "config" with
  | none => return overrideWith given .default
  | some path =>
    match ServerConfig.load files path with
    | .ok config => return overrideWith given config
    | .error error =>
      throw (.failed (reportOf ("Failed to load configuration from " ++ quoted path) error))

/-- Gets the server ready.  It does not get a port that is kept for the system. -/
def launch (files : Files) (config : ServerConfig) : Except Failure Launch := do
  let launch ← (config.prepare files).mapError fun error =>
    .failed (reportOf "Invalid relay configuration" error)
  if launch.endpoint.isReserved then
    throw (.failed ⟨"Failed to bind " ++ launch.endpoint.text,
      ["Permission denied (os error 13)"]⟩)
  return launch

def serve (files : Files) (environment : String → Option String) (arguments : List String) :
    Except Failure Launch := do
  launch files (← serverConfig files (← serverGiven environment arguments))

/-! ## Listing -/

def listingParameters : List Parameter := [
  ⟨"host", none, some "RELAY_HOST", .text, none⟩,
  ⟨"port", some 'p', some "RELAY_PORT", .port, none⟩,
  ⟨"cert", none, some "RELAY_CERT", .path, none⟩,
  ⟨"verbose", none, none, .nothing, none⟩]

def listingGiven (environment : String → Option String) (arguments : List String) :
    Except Failure Given :=
  (read listingParameters environment arguments).mapError .stopped

def listingConfig (given : Given) : ClientConfig :=
  let config := ClientConfig.ofPlace ((given.text? "host").getD ClientConfig.default.host)
    (((given.number? "port").map Nat.toUInt16).getD ClientConfig.default.port)
  match given.text? "cert" with
  | some path => config.withServerCertificate path
  | none => config

/-- Gets the client ready that asks for the listing. -/
def listingClient (files : Files) (config : ClientConfig) : Except Failure Manager :=
  (Manager.create files config).mapError fun error =>
    .failed ⟨"Invalid client configuration", [error.message]⟩

/-- The report on a listing that was not received. -/
def listingFailed (config : ClientConfig) (error : ClientError) : Failure :=
  .failed ⟨"Failed to dump " ++ config.target, [error.message]⟩

/-- The listing of a relay that is reached as `dial` says and then sends some
frames. -/
def list (files : Files) (environment : String → Option String) (arguments : List String)
    (dial : Dial) (frames : List Frame) (ending : Manager.End) : Except Failure String := do
  let config := listingConfig (← listingGiven environment arguments)
  let manager ← listingClient files config
  (manager.ask .listing dial frames ending).mapError (listingFailed config)

end Muster.CommandLine
