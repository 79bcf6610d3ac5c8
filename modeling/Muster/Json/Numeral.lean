import Muster.Json.Reader
import Muster.Json.Tree

/-!
# Numbers in a JSON text

A numeral is read in two stages: its digits, and then the number they stand
for.  Only as many leading digits as fit a 64-bit count are kept; later ones
move the decimal point if they stand before it and are dropped otherwise.
-/

namespace Muster.Json

open Muster.Decimal

/-- The digits of a number, sign aside. -/
structure Numeral where
  whole : List Nat
  fraction : Option (List Nat)
  exponent : Option Int
  deriving DecidableEq, Repr

namespace Reader

def isDigit (byte : UInt8) : Bool :=
  (letter byte).isDigit

def digitValue (byte : UInt8) : Nat :=
  byte.toNat - '0'.toNat

def digits : Reader (List Nat) := do
  let (taken, rest) := (← get).span isDigit
  set rest
  return taken.map digitValue

/-- Digits of which there must be one.  `atEnd` is the fault when the text
ends first. -/
def someDigits (atEnd : Fault) : Reader (List Nat) := do
  match ← digits with
  | [] => throw (if (← get).isEmpty then atEnd else .badNumber)
  | found => return found

/-- The largest exponent kept apart; beyond it all exponents act alike. -/
def exponentBound : Nat := Nat.pow 2 31

def exponent (atEnd : Fault) : Reader (Option Int) := do
  match ← peek with
  | some 'e' | some 'E' =>
    skip
    let sign ← peek
    if sign = some '+' ∨ sign = some '-' then skip
    let size := (← someDigits atEnd).foldl
      (fun size digit => min (10 * size + digit) exponentBound) 0
    return some (if sign = some '-' then -(size : Int) else size)
  | _ => return none

def numeral (atEnd : Fault) : Reader Numeral := do
  let whole ← someDigits atEnd
  if whole.head? = some 0 ∧ whole.length ≠ 1 then throw .badNumber
  let fraction ←
    if (← peek) = some '.' then
      skip
      some <$> someDigits atEnd
    else pure none
  return { whole, fraction, exponent := ← exponent atEnd }

end Reader

namespace Numeral

def countBound : Nat := Nat.pow 2 64

/-- Appends digits to a count as long as it stays below the bound, and
returns the digits left over. -/
def absorb : Nat → List Nat → Nat × List Nat
  | count, [] => (count, [])
  | count, digit :: digits =>
    if 10 * count + digit < countBound then absorb (10 * count + digit) digits
    else (count, digit :: digits)

def float (negative : Bool) (numeral : Numeral) : Except Fault Number :=
  let (count, unkeptWhole) := absorb 0 numeral.whole
  let fraction := numeral.fraction.getD []
  let (count, unkeptFraction) := absorb count fraction
  let shift : Int :=
    (unkeptWhole.length : Int) - ((fraction.length : Int) - unkeptFraction.length)
      + numeral.exponent.getD 0
  match Magnitude.ofScientific? count shift with
  | some magnitude => .ok (.float ⟨negative, magnitude⟩)
  | none => .error .hugeNumber

/-- The number of a numeral.  Without point and exponent it is an integer if
it fits 64 bits; a negative zero is a float. -/
def number (negative : Bool) (numeral : Numeral) : Except Fault Number :=
  let (count, unkept) := absorb 0 numeral.whole
  if numeral.fraction.isSome ∨ numeral.exponent.isSome ∨ unkept ≠ [] then numeral.float negative
  else if negative then
    if 0 < count ∧ count ≤ Nat.pow 2 63 then .ok (.negative (-(count : Int))) else numeral.float negative
  else .ok (.natural (UInt64.ofNat count))

end Numeral

def Reader.number : Reader Number := do
  let negative := (← peek) = some '-'
  if negative then skip
  (← numeral .endInValue).number negative

/-- Passes over a number, its sign included.  Its size does not matter. -/
def Reader.skipNumber : Reader Unit := do
  if (← peek) = some '-' then skip
  let _ ← numeral .badNumber

end Muster.Json
