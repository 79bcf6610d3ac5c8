import Muster.Json.Reader

/-!
# Strings in a JSON text

The bytes between the quotes are read by a machine with one step per byte.  An
escape by code point is complete once four bytes have been collected; a leading
surrogate must be followed at once by the escape of a trailing one.  Whether
the bytes of the string are UTF-8 is checked when the closing quote is met.

A string that is passed over obeys weaker rules: its escapes need only be well
formed and its bytes are not looked at.
-/

namespace Muster.Json

open Muster.Text

/-- Where the machine stands inside a string. -/
inductive Inside
  /-- between characters -/
  | plain
  /-- after a backslash -/
  | escape
  /-- after `\u` and some bytes, in reverse, following a leading surrogate if
  there is one -/
  | code (lead : Option Nat) (collected : List UInt8)
  /-- after a leading surrogate -/
  | afterLead (lead : Nat)
  /-- after a leading surrogate and a backslash -/
  | afterLeadEscape (lead : Nat)

/-- What one byte does. -/
inductive Turn
  /-- go on from there, with more bytes of text, in order -/
  | go (state : Inside) (bytes : List UInt8)
  /-- the closing quote -/
  | close

namespace Inside

def hexValue? (byte : UInt8) : Option Nat :=
  let c := letter byte
  if c.isDigit then some (c.toNat - '0'.toNat)
  else if 'a' ≤ c ∧ c ≤ 'f' then some (c.toNat - 'a'.toNat + 10)
  else if 'A' ≤ c ∧ c ≤ 'F' then some (c.toNat - 'A'.toNat + 10)
  else none

/-- The number that hexadecimal digits stand for, the last one first. -/
def hexNumber? : List UInt8 → Option Nat
  | [] => some 0
  | byte :: bytes => do return 16 * (← hexNumber? bytes) + (← hexValue? byte)

def isLead (unit : Nat) : Bool := 0xD800 ≤ unit ∧ unit ≤ 0xDBFF

def isTrail (unit : Nat) : Bool := 0xDC00 ≤ unit ∧ unit ≤ 0xDFFF

def codePoint (code : Nat) : List UInt8 :=
  String.utf8EncodeChar (Char.ofNat code)

def paired (lead trail : Nat) : Nat :=
  (lead - 0xD800) * 0x400 + (trail - 0xDC00) + 0x10000

def afterCode (strict : Bool) (lead : Option Nat) (digits : List UInt8) : Except Fault Turn :=
  match hexNumber? digits with
  | none => .error .badEscape
  | some unit =>
    if strict then
      match lead with
      | some lead =>
        if isTrail unit then .ok (.go plain (codePoint (paired lead unit)))
        else .error .loneSurrogate
      | none =>
        if isTrail unit then .error .loneSurrogate
        else if isLead unit then .ok (.go (afterLead unit) [])
        else .ok (.go plain (codePoint unit))
    else .ok (.go plain [])

def shortEscape? : Char → Option UInt8
  | '"' => some 0x22
  | '\\' => some 0x5C
  | '/' => some 0x2F
  | 'b' => some 0x08
  | 'f' => some 0x0C
  | 'n' => some 0x0A
  | 'r' => some 0x0D
  | 't' => some 0x09
  | _ => none

def turn (strict : Bool) (state : Inside) (byte : UInt8) : Except Fault Turn :=
  match state with
  | plain =>
    if letter byte = '"' then .ok .close
    else if letter byte = '\\' then .ok (.go escape [])
    else if byte < 0x20 then .error .controlCharacter
    else .ok (.go plain [byte])
  | escape =>
    if letter byte = 'u' then .ok (.go (code none []) [])
    else match shortEscape? (letter byte) with
      | some character => .ok (.go plain [character])
      | none => .error .badEscape
  | code lead collected =>
    if collected.length = 3 then afterCode strict lead (byte :: collected)
    else .ok (.go (code lead (byte :: collected)) [])
  | afterLead lead =>
    if letter byte = '\\' then .ok (.go (afterLeadEscape lead) []) else .error .endInSurrogate
  | afterLeadEscape lead =>
    if letter byte = 'u' then .ok (.go (code (some lead) []) []) else .error .endInSurrogate

/-- Runs the machine to the closing quote and returns the bytes of the string,
which are collected in reverse, and the bytes after the quote. -/
def runFrom (strict : Bool) :
    Inside → List UInt8 → List UInt8 → Except Fault (List UInt8 × List UInt8)
  | _, _, [] => .error .endInText
  | state, gathered, byte :: rest =>
    match turn strict state byte with
    | .error fault => .error fault
    | .ok .close => .ok (gathered.reverse, rest)
    | .ok (.go state bytes) => runFrom strict state (bytes.reverse ++ gathered) rest

end Inside

namespace Reader

/-- The rest of a string after its opening quote. -/
def textBody : Reader String := fun input => do
  let (bytes, rest) ← Inside.runFrom true .plain [] input
  match ofUtf8? bytes with
  | some text => return (text, rest)
  | none => throw .badUtf8

def text : Reader String := do
  skip
  textBody

/-- Passes over a string, its opening quote next. -/
def skipText : Reader Unit := do
  skip
  fun input => (Inside.runFrom false .plain [] input).map fun (_, rest) => ((), rest)

end Reader

end Muster.Json
