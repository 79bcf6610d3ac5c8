/-!
# Identities

A member is identified by 128 bits, held as two halves.  The text of an
identity is its 32 hexadecimal digits, the high half first, in groups of 8, 4,
4, 4 and 12 with hyphens between them.  Three more spellings are read: the bare
digits, the hyphenated form in braces, and the hyphenated form after
`urn:uuid:`.  Letter case never matters.
-/

namespace Muster

/-- A 128-bit identity. -/
structure Uuid where
  high : UInt64
  low : UInt64
  deriving DecidableEq, Hashable, Repr, Inhabited

namespace Uuid

/-- Identities are ordered by their high halves and then by their low ones. -/
instance : Ord Uuid where
  compare a b := (compare a.high b.high).then (compare a.low b.low)

/-- The lower-case digit of a value below sixteen. -/
def hexDigit (value : Nat) : Char :=
  Nat.digitChar value

/-- The last `count` hexadecimal digits of `value`. -/
def hexDigits : Nat → Nat → List Char
  | 0, _ => []
  | count + 1, value => hexDigits count (value / 16) ++ [hexDigit (value % 16)]

/-- The value of a hexadecimal digit in either case. -/
def hexValue? (c : Char) : Option Nat :=
  if c.isDigit then some (c.toNat - '0'.toNat)
  else if 'a' ≤ c ∧ c ≤ 'f' then some (c.toNat - 'a'.toNat + 10)
  else if 'A' ≤ c ∧ c ≤ 'F' then some (c.toNat - 'A'.toNat + 10)
  else none

/-- The number that hexadecimal digits stand for. -/
def hexNumber? (digits : List Char) : Option Nat :=
  digits.foldlM (fun value c => (hexValue? c).map (16 * value + ·)) 0

def digits (id : Uuid) : List Char :=
  hexDigits 16 id.high.toNat ++ hexDigits 16 id.low.toNat

/-- Splits digits into the groups of the hyphenated form. -/
def hyphenated (digits : List Char) : List Char :=
  digits.take 8 ++ '-' :: ((digits.drop 8).take 4 ++ '-' :: ((digits.drop 12).take 4 ++
    '-' :: ((digits.drop 16).take 4 ++ '-' :: digits.drop 20)))

def text (id : Uuid) : String :=
  String.ofList (hyphenated id.digits)

def ofDigits? (digits : List Char) : Option Uuid := do
  if digits.length ≠ 32 then none
  let high ← hexNumber? (digits.take 16)
  let low ← hexNumber? (digits.drop 16)
  return ⟨UInt64.ofNat high, UInt64.ofNat low⟩

def unhyphenated? (text : List Char) : Option (List Char) :=
  let digits := text.filter (· ≠ '-')
  if text = hyphenated digits ∧ digits.length = 32 then some digits else none

/-- What may stand before the hyphenated form, in any letter case: neither the scheme nor the
namespace of a URN depends on it, and the program's own parser of identities reads `URN:UUID:`
and `uRn:UuId:` as it reads `urn:uuid:`. -/
def urnHead : List Char := "urn:uuid:".toList

/-- The digits of a text in one of its four spellings. -/
def spelledDigits? (text : List Char) : Option (List Char) :=
  if text.length = 32 then some text
  else if text.head? = some '\x7b' ∧ text.getLast? = some '\x7d' then
    unhyphenated? (text.drop 1).dropLast
  else if (text.take urnHead.length).map Char.toLower = urnHead then
    unhyphenated? (text.drop urnHead.length)
  else unhyphenated? text

def ofText? (text : String) : Option Uuid :=
  (spelledDigits? text.toList).bind ofDigits?

end Uuid

end Muster
