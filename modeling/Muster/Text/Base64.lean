/-!
# Base64

Three bytes are written as four digits of six bits each.  Blanks between digits
mean nothing, and the padding that fills up the last group may be missing.
-/

namespace Muster.Text

def base64Value? (byte : UInt8) : Option Nat :=
  let c := Char.ofUInt8 byte
  if 'A' ≤ c ∧ c ≤ 'Z' then some (c.toNat - 'A'.toNat)
  else if 'a' ≤ c ∧ c ≤ 'z' then some (c.toNat - 'a'.toNat + 26)
  else if c.isDigit then some (c.toNat - '0'.toNat + 52)
  else if c = '+' then some 62
  else if c = '/' then some 63
  else none

/-- A byte that means nothing between digits: a tab, a line feed, a vertical
tab, a form feed, a carriage return or a space. -/
def isBase64Blank (byte : UInt8) : Bool :=
  (9 ≤ byte ∧ byte ≤ 13) ∨ byte = 32

def padding : UInt8 := '='.toUInt8

/-- The bytes of a group of three digits, of which the last bits mean nothing. -/
def threeDigits? (a b c : UInt8) : Option (List UInt8) := do
  let value := (← base64Value? a) * 4096 + (← base64Value? b) * 64 + (← base64Value? c)
  return [(value / 1024).toUInt8, (value / 4).toUInt8]

def twoDigits? (a b : UInt8) : Option (List UInt8) := do
  return [((← base64Value? a) * 4 + (← base64Value? b) / 16).toUInt8]

/-- The bytes that digits without blanks stand for. -/
def ofDigits? : List UInt8 → Option (List UInt8)
  | [] => some []
  | [_] => none
  | [a, b] => twoDigits? a b
  | [a, b, c] => threeDigits? a b c
  | a :: b :: c :: d :: rest =>
    if d = padding ∧ rest.isEmpty then
      if c = padding then twoDigits? a b else threeDigits? a b c
    else do
      let bytes ← threeDigits? a b c
      let last := (← base64Value? c) * 64 + (← base64Value? d)
      return bytes ++ last.toUInt8 :: (← ofDigits? rest)

def ofBase64? (text : List UInt8) : Option (List UInt8) :=
  ofDigits? (text.filter (!isBase64Blank ·))

end Muster.Text
