import Muster.Address.Uuid
import Muster.Json.Schema

/-!
# Addresses

An address names a member.  Only the identity decides whether two addresses
mean the same member and how they are ordered; name and site travel along for
display and for relaying between sites.
-/

namespace Muster

open Json Text

/-- The address of a member. -/
structure Address where
  uuid : Uuid
  /-- a display name -/
  name : Option String
  /-- the site of the member -/
  site : Option String
  /-- whether the member coordinates its site -/
  isSiteCoordinator : Bool
  deriving DecidableEq, Repr, Inhabited

namespace Address

def ofUuid (uuid : Uuid) : Address :=
  ⟨uuid, none, none, false⟩

/-- The same member without name and site. -/
def bare (address : Address) : Address :=
  ofUuid address.uuid

def withName (address : Address) (name : String) : Address :=
  { address with name := some name }

def withSite (address : Address) (site : String) (isSiteCoordinator : Bool) : Address :=
  { address with site := some site, isSiteCoordinator }

/-- Whether two addresses mean the same member. -/
def same (a b : Address) : Bool :=
  a.uuid = b.uuid

def isIn (address : Address) (addresses : List Address) : Bool :=
  addresses.any address.same

/-- The order of addresses is that of their identities. -/
def order (a b : Address) : Ordering :=
  compare a.uuid b.uuid

/-- Addresses in increasing order; those of one member keep their order. -/
def sorted (addresses : List Address) : List Address :=
  addresses.mergeSort fun a b => order a b ≠ .gt

/-- The name, or the identity of a member without one. -/
def display (address : Address) : String :=
  address.name.getD address.uuid.text

def displayAll (addresses : List Address) : String :=
  bracketed (addresses.map display)

/-- What a text without an identity is refused with. -/
inductive ParseError
  | noUuid
  deriving DecidableEq, Repr

def ParseError.message : ParseError → String
  | noUuid => "Invalid address: expected a UUID"

def ofText (text : String) : Except ParseError Address :=
  match Uuid.ofText? text with
  | some uuid => .ok (ofUuid uuid)
  | none => .error .noUuid

/-- The fields of an address.  Name and site are left out when absent, and the
flag when it is not set. -/
def record : Record Address where
  title := "Address"
  fields :=
    .cons "uuidHigh" .required (.scalar .u64) <|
    .cons "uuidLow" .required (.scalar .u64) <|
    .cons "name" .optional (.optional (.scalar .text)) <|
    .cons "site" .optional (.optional (.scalar .text)) <|
    .cons "isSiteCoordinator" .ifSet (.scalar .flag) .nil
  build := fun (high, low, name, site, isSiteCoordinator, ()) =>
    ⟨⟨high, low⟩, name, site, isSiteCoordinator⟩
  split := fun address =>
    (address.uuid.high, address.uuid.low, address.name, address.site,
      address.isSiteCoordinator, ())

end Address

end Muster
