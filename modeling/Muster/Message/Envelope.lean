import Muster.View

/-!
# Envelopes

An envelope carries an application message through the relay.  The payload is
opaque.  With a destination the message goes to that member alone, without one
to every member that the correlation header does not exclude.
-/

namespace Muster

open Json

/-- What ties a reply to the call it answers. -/
structure CorrelationHeader where
  kind : UInt8
  requestId : UInt64
  correlationId : UInt16
  /-- members that a multicast passes over -/
  exclusions : List Address
  deriving DecidableEq, Repr

namespace CorrelationHeader

def bare (header : CorrelationHeader) : CorrelationHeader :=
  { header with exclusions := header.exclusions.map Address.bare }

def excluding (header : CorrelationHeader) (addresses : List Address) : CorrelationHeader :=
  { header with exclusions := header.exclusions ++ addresses }

def record : Record CorrelationHeader where
  title := "CorrelationHeader"
  fields :=
    .cons "type" .required (.scalar .u8) <|
    .cons "requestId" .required (.scalar .u64) <|
    .cons "correlationId" .required (.scalar .u16) <|
    .cons "exclusionList" (.defaulted []) (.list Address.record.schema) .nil
  build := fun (kind, requestId, correlationId, exclusions, ()) =>
    ⟨kind, requestId, correlationId, exclusions⟩
  split := fun header =>
    (header.kind, header.requestId, header.correlationId, header.exclusions, ())

end CorrelationHeader

/-- The purpose of a message between sites. -/
inductive RelayKind
  | data
  | siteUnreachable
  | sitesUp
  | sitesDown
  | topologyRequest
  | topologyResponse
  deriving DecidableEq, Repr

namespace RelayKind

/-- The names of the kinds, in declaration order. -/
def names : List String :=
  ["DATA", "SITE_UNREACHABLE", "SITES_UP", "SITES_DOWN", "TOPO_REQ", "TOPO_RSP"]

def index : RelayKind → Fin names.length
  | data => ⟨0, by decide⟩
  | siteUnreachable => ⟨1, by decide⟩
  | sitesUp => ⟨2, by decide⟩
  | sitesDown => ⟨3, by decide⟩
  | topologyRequest => ⟨4, by decide⟩
  | topologyResponse => ⟨5, by decide⟩

def ofIndex (index : Fin names.length) : RelayKind :=
  match index.val with
  | 0 => data
  | 1 => siteUnreachable
  | 2 => sitesUp
  | 3 => sitesDown
  | 4 => topologyRequest
  | _ => topologyResponse

def schema : Schema (Fin names.length) := .symbol names

end RelayKind

/-- The marks of a message passed on between sites. -/
structure RelayHeader where
  kind : RelayKind
  finalDestination : Option Address
  originalSender : Option Address
  siteNames : List String
  deriving DecidableEq, Repr

namespace RelayHeader

def bare (header : RelayHeader) : RelayHeader :=
  { header with
    finalDestination := header.finalDestination.map Address.bare
    originalSender := header.originalSender.map Address.bare }

def record : Record RelayHeader where
  title := "RelayHeader"
  fields :=
    .cons "type" .required RelayKind.schema <|
    .cons "finalDestination" .optional (.optional Address.record.schema) <|
    .cons "originalSender" .optional (.optional Address.record.schema) <|
    .cons "siteNames" (.defaulted []) (.list (.scalar .text)) .nil
  build := fun (kind, finalDestination, originalSender, siteNames, ()) =>
    ⟨.ofIndex kind, finalDestination, originalSender, siteNames⟩
  split := fun header =>
    (header.kind.index, header.finalDestination, header.originalSender, header.siteNames, ())

end RelayHeader

/-- An application message on its way through a cluster. -/
structure Envelope where
  cluster : String
  sender : Option Address
  /-- the only member to receive the message, or none for a multicast -/
  destination : Option Address
  payload : List UInt8
  correlation : Option CorrelationHeader
  relay : Option RelayHeader
  deriving DecidableEq, Repr

namespace Envelope

def bare (envelope : Envelope) : Envelope :=
  { envelope with
    sender := envelope.sender.map Address.bare
    destination := envelope.destination.map Address.bare
    correlation := envelope.correlation.map CorrelationHeader.bare
    relay := envelope.relay.map RelayHeader.bare }

def isMulticast (envelope : Envelope) : Bool :=
  envelope.destination.isNone

def exclusions (envelope : Envelope) : List Address :=
  match envelope.correlation with
  | some header => header.exclusions
  | none => []

def record : Record Envelope where
  title := "MessageEnvelope"
  fields :=
    .cons "cluster" .required (.scalar .text) <|
    .cons "sender" .optional (.optional Address.record.schema) <|
    .cons "destination" .optional (.optional Address.record.schema) <|
    .cons "payload" (.defaulted []) (.list (.scalar .u8)) <|
    .cons "correlationHeader" .optional (.optional CorrelationHeader.record.schema) <|
    .cons "relayHeader" .optional (.optional RelayHeader.record.schema) .nil
  build := fun (cluster, sender, destination, payload, correlation, relay, ()) =>
    ⟨cluster, sender, destination, payload, correlation, relay⟩
  split := fun envelope =>
    (envelope.cluster, envelope.sender, envelope.destination, envelope.payload,
      envelope.correlation, envelope.relay, ())

end Envelope

end Muster
