import Muster.Decimal.Binary64

/-!
# The shortest decimal that reads back

Among the decimals that round to a given magnitude, the ones with the fewest
digits are short, and of those the nearest is chosen.  For each digit count
only the two neighbours of the value on the decimal grid need a look: if any
point of the grid lies in the rounding interval, one of these two does.

The text of a value is positional for moderate exponents, always with a
digit after the point, and scientific otherwise.
-/

namespace Muster.Decimal

/-- Digits and the decimal exponent of the first of them. -/
structure Digits where
  digits : List Char
  exponent : Int
  deriving DecidableEq, Repr

namespace Magnitude

/-- The largest `e` with `10 ^ e ≤ num / den`, for a positive quotient. -/
def decimalExponent (num den : Nat) : Int :=
  if den ≤ num then ((Nat.toDigits 10 (num / den)).length : Int) - 1
  else
    let places := (Nat.toDigits 10 (den / num)).length
    if num * Nat.pow 10 (places - 1) = den then 1 - (places : Int) else -(places : Int)

/-- The values that round to `x`, in units of a quarter of its last place:
the lower end, the value and the upper end.  Below a power of two the grid is
twice as fine. -/
def interval (x : Magnitude) : Nat × Nat × Nat :=
  let centre := 4 * x.mantissa
  let below := if x.mantissa = Nat.pow 2 52 ∧ minExponent < x.exponent then 1 else 2
  (centre - below, centre, centre + 2)

/-- The point of the decimal grid `10 ^ place` in the rounding interval of `x`
that is nearest to `x`, if there is one.  The ends belong to the interval when
the mantissa is even, and of two equally near points the even one wins. -/
def gridPoint? (x : Magnitude) (place : Int) : Option Nat :=
  let (low, centre, high) := x.interval
  let quarter : Magnitude := ⟨1, x.exponent - 2⟩
  let (quarterNum, quarterDen) := quarter.ratio
  let unitNum := if place < 0 then quarterDen else Nat.pow 10 place.natAbs * quarterDen
  let scale := quarterNum * (if place < 0 then Nat.pow 10 place.natAbs else 1)
  let inside (c : Nat) : Bool :=
    if x.mantissa % 2 = 0 then low * scale ≤ c * unitNum ∧ c * unitNum ≤ high * scale
    else low * scale < c * unitNum ∧ c * unitNum < high * scale
  let floor := centre * scale / unitNum
  let below := centre * scale - floor * unitNum
  let above := (floor + 1) * unitNum - centre * scale
  match inside floor, inside (floor + 1) with
  | true, true =>
    if below < above ∨ (below = above ∧ floor % 2 = 0) then some floor else some (floor + 1)
  | true, false => some floor
  | false, true => some (floor + 1)
  | false, false => none

/-- The digit counts to try, in order.  Seventeen digits always suffice. -/
def digitCounts : List Nat := List.range' 1 17

/-- The shortest digits of a positive magnitude. -/
def shortest (x : Magnitude) : Digits :=
  let top := decimalExponent x.ratio.1 x.ratio.2
  let place (count : Nat) : Int := top - (count : Int) + 1
  let found := digitCounts.findSome? fun count =>
    (x.gridPoint? (place count)).map fun point => (point, place count)
  let (point, last) := found.getD (0, top)
  let digits := Nat.toDigits 10 point
  { digits := (digits.reverse.dropWhile (· = '0')).reverse
    exponent := last + (digits.length : Int) - 1 }

end Magnitude

/-- How the digits of a value are laid out. -/
structure Layout where
  /-- the least exponent written positionally -/
  leastPositional : Int
  /-- the greatest exponent written positionally -/
  greatestPositional : Int
  /-- the least number of digits of a written exponent -/
  exponentDigits : Nat

namespace Layout

def zeros (count : Nat) : List Char := List.replicate count '0'

def positional (d : Digits) : List Char :=
  if d.exponent < 0 then
    '0' :: '.' :: (zeros (d.exponent.natAbs - 1) ++ d.digits)
  else
    let whole := d.exponent.natAbs + 1
    let padded := d.digits ++ zeros (whole - d.digits.length)
    let fraction := padded.drop whole
    padded.take whole ++ '.' :: (if fraction = [] then ['0'] else fraction)

def scientific (layout : Layout) (d : Digits) : List Char :=
  let exponent := Nat.toDigits 10 d.exponent.natAbs
  let mark := if d.exponent < 0 then '-' else '+'
  let fraction := d.digits.drop 1
  d.digits.take 1 ++ (if fraction = [] then [] else '.' :: fraction) ++
    'e' :: mark :: (zeros (layout.exponentDigits - exponent.length) ++ exponent)

def magnitude (layout : Layout) (x : Magnitude) : List Char :=
  if x.isZero then ['0', '.', '0']
  else
    let d := x.shortest
    if layout.leastPositional ≤ d.exponent ∧ d.exponent ≤ layout.greatestPositional then
      positional d
    else layout.scientific d

end Layout

/-- Values are positional from a hundred-thousandth up to sixteen whole digits,
and an exponent has its sign and as many digits as it needs. -/
def Binary64.layout : Layout := ⟨-5, 15, 1⟩

def Binary64.text (x : Binary64) : String :=
  String.ofList ((if x.negative then ['-'] else []) ++ Binary64.layout.magnitude x.magnitude)

end Muster.Decimal
