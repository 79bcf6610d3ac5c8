import Muster.Text.Utf8

/-!
# Internet addresses

Addresses of both families as they are read and written.  A dotted address has
four decimal parts without leading zeros.  A colon address has eight
hexadecimal groups; one run of zero groups may be left out, and the last two
groups may be dotted.  When written, the longest run of two or more zero groups
is left out, the first one of equals.

With a port an address makes an endpoint, in which a colon address may also have
a scope.
-/

namespace Muster.Net

open Text

/-- An address of a host. -/
inductive Ip
  /-- four parts -/
  | v4 (a b c d : UInt8)
  /-- eight groups -/
  | v6 (groups : Vector UInt16 8)
  deriving DecidableEq, Repr

namespace Ip

/-- The value of a digit in a base up to sixteen. -/
def digitValue? (base : Nat) (c : Char) : Option Nat :=
  let value :=
    if c.isDigit then c.toNat - '0'.toNat
    else if 'a' ≤ c ∧ c ≤ 'f' then c.toNat - 'a'.toNat + 10
    else if 'A' ≤ c ∧ c ≤ 'F' then c.toNat - 'A'.toNat + 10
    else base
  if value < base then some value else none

/-- A number of one to `most` digits, and the text after it. -/
def number? (base most : Nat) (text : List Char) : Option (Nat × List Char) :=
  let digits := text.takeWhile fun c => (digitValue? base c).isSome
  if digits.isEmpty ∨ most < digits.length then none
  else some (digits.foldl (fun value c => base * value + (digitValue? base c).getD 0) 0,
    text.drop digits.length)

def part? (text : List Char) : Option (UInt8 × List Char) := do
  let (value, rest) ← number? 10 3 text
  if 255 < value ∨ (text.head? = some '0' ∧ rest.length + 1 < text.length) then none
  else some (value.toUInt8, rest)

def mark? (mark : Char) : List Char → Option (List Char)
  | c :: rest => if c = mark then some rest else none
  | [] => none

def dotted? (text : List Char) : Option ((UInt8 × UInt8 × UInt8 × UInt8) × List Char) := do
  let (a, text) ← part? text
  let (b, text) ← part? (← mark? '.' text)
  let (c, text) ← part? (← mark? '.' text)
  let (d, text) ← part? (← mark? '.' text)
  return ((a, b, c, d), text)

def group (high low : UInt8) : UInt16 :=
  high.toUInt16 <<< 8 ||| low.toUInt16

/-- What a run of groups holds. -/
structure Groups where
  values : List UInt16
  /-- whether the last two groups were dotted -/
  endsDotted : Bool
  rest : List Char

/-- As many groups as there are, but not more than `room`. -/
def groups : Nat → Bool → List Char → Groups
  | 0, _, text => ⟨[], false, text⟩
  | room + 1, isFirst, text =>
    match if isFirst then some text else mark? ':' text with
    | none => ⟨[], false, text⟩
    | some body =>
      match if room = 0 then none else dotted? body with
      | some ((a, b, c, d), rest) => ⟨[group a b, group c d], true, rest⟩
      | none =>
        match number? 16 4 body with
        | none => ⟨[], false, text⟩
        | some (value, rest) =>
          let others := groups room false rest
          { others with values := value.toUInt16 :: others.values }

/-- Eight groups from those before a gap and those after it. -/
def withGap (front back : List UInt16) : Vector UInt16 8 :=
  Vector.ofFn fun index =>
    if index.val < front.length then front.getD index.val 0
    else if 8 ≤ index.val + back.length then back.getD (index.val + back.length - 8) 0
    else 0

def colon? (text : List Char) : Option (Ip × List Char) := do
  let front := groups 8 true text
  if front.values.length = 8 then return (v6 (withGap front.values []), front.rest)
  if front.endsDotted then none
  let rest ← mark? ':' (← mark? ':' front.rest)
  let back := groups (7 - front.values.length) true rest
  return (v6 (withGap front.values back.values), back.rest)

/-- An address of either family, and the text after it. -/
def read? (text : List Char) : Option (Ip × List Char) :=
  match dotted? text with
  | some ((a, b, c, d), rest) => some (v4 a b c d, rest)
  | none => colon? text

def ofText? (text : String) : Option Ip :=
  match read? text.toList with
  | some (address, []) => some address
  | _ => none

def dottedText (a b c d : UInt8) : String :=
  joined "." ([a, b, c, d].map fun part => decimal part.toNat)

def groupsText (groups : List UInt16) : String :=
  joined ":" (groups.map fun value => String.ofList (Nat.toDigits 16 value.toNat))

def zeros (groups : List UInt16) : Nat :=
  (groups.takeWhile (· = 0)).length

/-- The start and length of the longest run of zero groups, the first one of
equals. -/
def longestGap (groups : List UInt16) : Nat × Nat :=
  (List.range groups.length).foldl (fun best start =>
    let length := zeros (groups.drop start)
    if best.2 < length then (start, length) else best) (0, 0)

def text : Ip → String
  | v4 a b c d => dottedText a b c d
  | v6 groups =>
    match groups.toList with
    | [0, 0, 0, 0, 0, 0xFFFF, high, low] =>
      "::ffff:" ++ dottedText (high >>> 8).toUInt8 high.toUInt8 (low >>> 8).toUInt8 low.toUInt8
    | groups =>
      let (start, length) := longestGap groups
      if 1 < length then
        groupsText (groups.take start) ++ "::" ++ groupsText (groups.drop (start + length))
      else groupsText groups

end Ip

/-- A host and one of its ports. -/
structure Endpoint where
  host : Ip
  /-- the number of the network on which a colon address is meant, if not zero -/
  scope : UInt32
  port : UInt16
  deriving DecidableEq, Repr

namespace Endpoint

/-- A port of a host that is found without a scope. -/
def ofHost (host : Ip) (port : UInt16) : Endpoint :=
  ⟨host, 0, port⟩

/-- Whether the port is kept for the system itself.  Port zero stands for any free
one. -/
def isReserved (endpoint : Endpoint) : Bool :=
  0 < endpoint.port && endpoint.port < 1024

/-- A colon address stands between brackets before its port, with its scope
behind a percent sign. -/
def text (endpoint : Endpoint) : String :=
  let port := ":" ++ decimal endpoint.port.toNat
  match endpoint.host with
  | .v4 .. => endpoint.host.text ++ port
  | .v6 .. =>
    let scope := if endpoint.scope = 0 then "" else "%" ++ decimal endpoint.scope.toNat
    "[" ++ endpoint.host.text ++ scope ++ "]" ++ port

/-- The scope behind a colon address, and the text after it. -/
def scope? (text : List Char) : Option (UInt32 × List Char) :=
  match text with
  | '%' :: text => do
    let (value, rest) ← Ip.number? 10 text.length text
    if value < Nat.pow 2 32 then some (value.toUInt32, rest) else none
  | text => some (0, text)

def port? (text : List Char) : Option UInt16 := do
  let (value, rest) ← Ip.number? 10 text.length (← Ip.mark? ':' text)
  if rest.isEmpty ∧ value < Nat.pow 2 16 then some value.toUInt16 else none

def ofText? (text : String) : Option Endpoint :=
  match text.toList with
  | '[' :: text => do
    let (host, rest) ← Ip.colon? text
    let (scope, rest) ← scope? rest
    return ⟨host, scope, ← port? (← Ip.mark? ']' rest)⟩
  | text => do
    let ((a, b, c, d), rest) ← Ip.dotted? text
    return ofHost (.v4 a b c d) (← port? rest)

end Endpoint

end Muster.Net
