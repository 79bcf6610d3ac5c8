import Muster.Duration
import Muster.Json.Schema
import Muster.Net.Ip
import Muster.Session.Basic
import Muster.Tls.Material

/-!
# Configuration of a server

A configuration comes from a file or from defaults, and single values may be
set afterwards.  Before a server starts, its configuration is checked in a fixed
order: the address, the send timeout, the certificate, the key.
-/

namespace Muster

open Json Text

/-- The files that a server needs to encrypt its connections. -/
structure TlsFiles where
  certificate : String
  key : String
  deriving DecidableEq, Repr

/-- What a server is told to do. -/
structure ServerConfig where
  /-- the address to listen on -/
  bind : String
  port : UInt16
  /-- connections are encrypted when set -/
  tls : Option TlsFiles
  /-- the bound on every write, in milliseconds -/
  sendTimeout : UInt64
  deriving DecidableEq, Repr

/-- What can be wrong with the configuration of a server. -/
inductive ConfigError
  | unread (path : String) (error : ReadError)
  | unparsed (path : String) (fault : Fault)
  | bindAddress (text : String)
  | sendTimeout
  | missingCertificate (path : String)
  | missingPrivateKey (path : String)
  /-- the certificates of a file cannot be used -/
  | certificates (path : String) (isEmpty : Bool)
  /-- the private key of a file cannot be used -/
  | privateKey (path : String) (isEmpty : Bool)
  /-- certificate and key do not make a server -/
  | unusable
  deriving DecidableEq, Repr

namespace ConfigError

def message : ConfigError → String
  | unread path error => "Failed to read config file " ++ quoted path ++ ": " ++ error.message
  | unparsed path fault => "Failed to parse config file " ++ quoted path ++ ": " ++ fault.message
  | bindAddress text => "Invalid bind address " ++ quoted text
  | sendTimeout => "Send timeout must be greater than zero"
  | missingCertificate path => "TLS certificate not found: " ++ quoted path
  | missingPrivateKey path => "TLS private key not found: " ++ quoted path
  | certificates path isEmpty => "Invalid TLS material: " ++
      (if isEmpty then "No certificates found in " else "Failed to parse certificates in ") ++
      quoted path
  | privateKey path isEmpty => "Invalid TLS material: " ++
      (if isEmpty then "No private key found in " else "Failed to parse private key in ") ++
      quoted path
  | unusable => "Invalid TLS material: Failed to build TLS config"

def cause? : ConfigError → Option String
  | unread _ error => some error.message
  | unparsed _ fault => some fault.message
  | _ => none

end ConfigError

def TlsFiles.record : Record TlsFiles where
  title := "TlsFiles"
  fields :=
    .cons "cert" .required (.scalar .path) <|
    .cons "key" .required (.scalar .path) .nil
  build := fun (certificate, key, ()) => ⟨certificate, key⟩
  split := fun files => (files.certificate, files.key, ())

namespace ServerConfig

/-- The configuration of a server that is told nothing. -/
def default : ServerConfig :=
  ⟨"0.0.0.0", 50051, none, Session.defaultTimeout.millis.toUInt64⟩

def record : Record ServerConfig where
  title := "ServerConfig"
  fields :=
    .cons "bind" (.defaulted default.bind) (.scalar .text) <|
    .cons "port" (.defaulted default.port) (.scalar .u16) <|
    .cons "tls" (.defaulted none) (.optional TlsFiles.record.schema) <|
    .cons "send_timeout_ms" (.defaulted default.sendTimeout) (.scalar .u64) .nil
  build := fun (bind, port, tls, sendTimeout, ()) => ⟨bind, port, tls, sendTimeout⟩
  split := fun config => (config.bind, config.port, config.tls, config.sendTimeout, ())

/-- The configuration as it is written to a file. -/
def written (config : ServerConfig) : List UInt8 :=
  (record.schema.toTree config).written

def load (files : Files) (path : String) : Except ConfigError ServerConfig :=
  match files.readText path with
  | .error error => .error (.unread path error)
  | .ok bytes =>
    match record.schema.scan.run bytes with
    | .error fault => .error (.unparsed path fault)
    | .ok config => .ok config

/-- Sets the send timeout, of which the lowest 64 bits are kept. -/
def withSendTimeout (config : ServerConfig) (timeout : Duration) : ServerConfig :=
  { config with sendTimeout := UInt64.ofNat timeout.millis }

def withTls (config : ServerConfig) (certificate key : String) : ServerConfig :=
  { config with tls := some ⟨certificate, key⟩ }

def endpoint (config : ServerConfig) : Except ConfigError Net.Endpoint :=
  match Net.Ip.ofText? config.bind with
  | some host => .ok (.ofHost host config.port)
  | none => .error (.bindAddress config.bind)

def validate (files : Files) (config : ServerConfig) : Except ConfigError Unit := do
  let _ ← config.endpoint
  if config.sendTimeout = 0 then throw .sendTimeout
  match config.tls with
  | none => return
  | some tls =>
    if !files.isFile tls.certificate then throw (.missingCertificate tls.certificate)
    if !files.isFile tls.key then throw (.missingPrivateKey tls.key)

end ServerConfig

def loadCertificates (files : Files) (path : String) : Except ConfigError (List (List UInt8)) :=
  match Tls.loadCertificates files path with
  | .ok certificates => .ok certificates
  | .error .missing => .error (.missingCertificate path)
  | .error .unreadable => .error (.certificates path false)
  | .error .empty => .error (.certificates path true)

def loadPrivateKey (files : Files) (path : String) : Except ConfigError Tls.Item :=
  match Tls.loadPrivateKey files path with
  | .ok key => .ok key
  | .error .missing => .error (.missingPrivateKey path)
  | .error .unreadable => .error (.privateKey path false)
  | .error .empty => .error (.privateKey path true)

/-- What a server needs to start. -/
structure Launch where
  endpoint : Net.Endpoint
  sendTimeout : Duration
  isEncrypted : Bool
  deriving DecidableEq, Repr

/-- Gets a server ready.  No implementation of encryption is part of this
library, so certificates and keys are loaded and then refused. -/
def ServerConfig.prepare (files : Files) (config : ServerConfig) : Except ConfigError Launch := do
  config.validate files
  if let some tls := config.tls then
    let _ ← loadCertificates files tls.certificate
    let _ ← loadPrivateKey files tls.key
    throw .unusable
  return ⟨← config.endpoint, ⟨config.sendTimeout.toNat⟩, config.tls.isSome⟩

end Muster
