import Muster.Duration
import Muster.Json.Schema
import Muster.Message.Frame
import Muster.Tls.Material

/-!
# Configuration of a client

A configuration comes from a file or from defaults, and single values may be
set afterwards.  The connection is encrypted when a certificate to trust is
given.
-/

namespace Muster

open Json Text

/-- What a client is told to do.  Times are in milliseconds. -/
structure ClientConfig where
  host : String
  port : UInt16
  /-- the file with the certificates to trust -/
  serverCertificate : Option String
  /-- the time between two attempts to reconnect -/
  reconnectInterval : UInt64
  /-- the bound on a request and its response -/
  requestTimeout : UInt64
  /-- the bound on the end of a stream -/
  shutdownTimeout : UInt64
  deriving DecidableEq, Repr

/-- Why a configuration file was not loaded. -/
inductive LoadError
  | unread (error : ReadError)
  | unparsed (fault : Fault)
  deriving DecidableEq, Repr

def LoadError.message : LoadError → String
  | unread error => error.message
  | unparsed fault => fault.message

/-- What can go wrong for a client. -/
inductive ClientError
  | notConnected (target : String)
  /-- no stream could be opened -/
  | connect (url : String)
  | certificateNotFound (path : String)
  /-- the certificates of a file cannot be read, or there are none -/
  | certificates (path : String) (isEmpty : Bool)
  /-- a certificate is not to be trusted -/
  | rejected (path : String)
  /-- a request could not be sent -/
  | send (kind : String)
  | timeout (after : Duration) (awaited : String)
  | protocol (error : FrameError)
  | streamClosed
  | config (path : String) (error : LoadError)
  deriving DecidableEq, Repr

namespace ClientError

def message : ClientError → String
  | notConnected target => "Not connected to " ++ target
  | connect url => "Failed to connect to " ++ url
  | certificateNotFound path => "Server certificate not found: " ++ quoted path
  | certificates path isEmpty => "TLS configuration error: " ++
      (if isEmpty then "No certificates found in " else "Failed to parse ") ++ quoted path
  | rejected path => "TLS configuration error: Rejected certificate in " ++ quoted path
  | send kind => "Failed to send " ++ kind
  | timeout after awaited => "Timed out after " ++ after.text ++ " waiting for " ++ awaited
  | protocol error => "Protocol error: " ++ error.message
  | streamClosed => "Stream closed by relay"
  | config path error => "Failed to load client config " ++ quoted path ++ ": " ++ error.message

end ClientError

namespace ClientConfig

/-- The configuration of a client that is told nothing. -/
def default : ClientConfig :=
  ⟨"localhost", 50051, none, 3000, 5000, 30000⟩

/-- The configuration for the relay at some place. -/
def ofPlace (host : String) (port : UInt16) : ClientConfig :=
  { default with host, port }

def record : Record ClientConfig where
  title := "ClientConfig"
  fields :=
    .cons "host" (.defaulted default.host) (.scalar .text) <|
    .cons "port" (.defaulted default.port) (.scalar .u16) <|
    .cons "server_cert" (.defaulted none) (.optional (.scalar .path)) <|
    .cons "reconnect_interval_ms" (.defaulted default.reconnectInterval) (.scalar .u64) <|
    .cons "request_timeout_ms" (.defaulted default.requestTimeout) (.scalar .u64) <|
    .cons "shutdown_timeout_ms" (.defaulted default.shutdownTimeout) (.scalar .u64) .nil
  build := fun (host, port, certificate, reconnect, request, shutdown, ()) =>
    ⟨host, port, certificate, reconnect, request, shutdown⟩
  split := fun config =>
    (config.host, config.port, config.serverCertificate, config.reconnectInterval,
      config.requestTimeout, config.shutdownTimeout, ())

/-- The configuration as it is written to a file. -/
def written (config : ClientConfig) : List UInt8 :=
  (record.schema.toTree config).written

def load (files : Files) (path : String) : Except ClientError ClientConfig :=
  match files.readText path with
  | .error error => .error (.config path (.unread error))
  | .ok bytes =>
    match record.schema.scan.run bytes with
    | .error fault => .error (.config path (.unparsed fault))
    | .ok config => .ok config

def withServerCertificate (config : ClientConfig) (path : String) : ClientConfig :=
  { config with serverCertificate := some path }

/-- Sets the time between attempts, of which the lowest 64 bits are kept. -/
def withReconnectInterval (config : ClientConfig) (interval : Duration) : ClientConfig :=
  { config with reconnectInterval := UInt64.ofNat interval.millis }

/-- Sets the bound on the end of a stream, of which the lowest 64 bits are
kept. -/
def withShutdownTimeout (config : ClientConfig) (timeout : Duration) : ClientConfig :=
  { config with shutdownTimeout := UInt64.ofNat timeout.millis }

def target (config : ClientConfig) : String :=
  config.host ++ ":" ++ decimal config.port.toNat

def url (config : ClientConfig) : String :=
  (if config.serverCertificate.isSome then "wss" else "ws") ++ "://" ++ config.target

/-- The error of a stream that does not open in time. -/
def unanswered (config : ClientConfig) : ClientError :=
  .timeout ⟨config.requestTimeout.toNat⟩ "connection"

/-- Checks the certificates to trust.  No implementation of encryption is part
of this library, so every certificate is refused. -/
def checkCertificates (files : Files) (config : ClientConfig) : Except ClientError Unit :=
  match config.serverCertificate with
  | none => .ok ()
  | some path =>
    match Tls.loadCertificates files path with
    | .error .missing => .error (.certificateNotFound path)
    | .error .unreadable => .error (.certificates path false)
    | .error .empty => .error (.certificates path true)
    | .ok _ => .error (.rejected path)

end ClientConfig

end Muster
