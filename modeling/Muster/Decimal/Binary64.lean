/-!
# Rounding to binary floating point

A finite magnitude of the 64-bit binary format is a natural mantissa below
`2 ^ 53` times a power of two.  Everything here is exact arithmetic on
naturals: a quotient is rounded to the nearest magnitude, and of two equally
near ones to the one with the even mantissa.  A quotient beyond the largest
magnitude has no rounding.
-/

namespace Muster.Decimal

/-- The quotient of two naturals, rounded to the nearest natural, a half to
the even neighbour. -/
def roundQuotient (num den : Nat) : Nat :=
  let quotient := num / den
  let twice := 2 * (num % den)
  if den < twice ∨ (twice = den ∧ quotient % 2 = 1) then quotient + 1 else quotient

/-- A finite magnitude `mantissa * 2 ^ exponent`. -/
structure Magnitude where
  mantissa : Nat
  exponent : Int
  deriving DecidableEq, Repr

namespace Magnitude

/-- The exponent shared by the subnormal magnitudes and zero. -/
def minExponent : Int := -1074

def maxExponent : Int := 971

def mantissaBound : Nat := Nat.pow 2 53

def zero : Magnitude := ⟨0, minExponent⟩

def isZero (x : Magnitude) : Bool := x.mantissa = 0

def ratio (x : Magnitude) : Nat × Nat :=
  if x.exponent < 0 then (x.mantissa, Nat.pow 2 x.exponent.natAbs)
  else (x.mantissa * Nat.pow 2 x.exponent.natAbs, 1)

/-- `num / den` measured in units of `2 ^ exponent`, as a quotient. -/
def scaled (num den : Nat) (exponent : Int) : Nat × Nat :=
  if exponent < 0 then (num * Nat.pow 2 exponent.natAbs, den)
  else (num, den * Nat.pow 2 exponent.natAbs)

/-- The exponent at which `num / den` needs a mantissa of full width, or the
least exponent when the value is too small for that. -/
def fittingExponent (num den : Nat) : Int :=
  let guess : Int := (num.log2 : Int) - (den.log2 : Int) - 52
  let (n, d) := scaled num den guess
  max (if n < d * Nat.pow 2 52 then guess - 1 else guess) minExponent

/-- The magnitude nearest to `num / den`, or `none` beyond the range. -/
def ofRatio? (num den : Nat) : Option Magnitude :=
  if num = 0 then some zero else
  let exponent := fittingExponent num den
  let (n, d) := scaled num den exponent
  let mantissa := roundQuotient n d
  let rounded : Magnitude :=
    if mantissa = mantissaBound then ⟨mantissa / 2, exponent + 1⟩ else ⟨mantissa, exponent⟩
  if maxExponent < rounded.exponent then none else some rounded

def mul? (x y : Magnitude) : Option Magnitude :=
  ofRatio? (x.ratio.1 * y.ratio.1) (x.ratio.2 * y.ratio.2)

def div? (x y : Magnitude) : Option Magnitude :=
  ofRatio? (x.ratio.1 * y.ratio.2) (x.ratio.2 * y.ratio.1)

def powerOfTen? (k : Nat) : Option Magnitude :=
  ofRatio? (Nat.pow 10 k) 1

def maxPowerOfTen : Nat := 308

/-- Division by powers of ten in steps of at most `maxPowerOfTen`, each step
rounded on its own.  Two full steps bring every 64-bit count down to zero, so
the steps end before they run out. -/
def divPowerOfTen? : Nat → Magnitude → Nat → Option Magnitude
  | 0, x, _ => some x
  | steps + 1, x, k =>
    if x.isZero then some x
    else if k ≤ maxPowerOfTen then (powerOfTen? k).bind (x.div? ·)
    else
      (powerOfTen? maxPowerOfTen).bind (x.div? ·) |>.bind
        (divPowerOfTen? steps · (k - maxPowerOfTen))

/-- The magnitude of `significand * 10 ^ exponent`: the significand is rounded
first and the scaled value is rounded again.  `none` when it is out of range. -/
def ofScientific? (significand : Nat) (exponent : Int) : Option Magnitude :=
  (ofRatio? significand 1).bind fun x =>
    if x.isZero then some x
    else if exponent < 0 then divPowerOfTen? 4 x exponent.natAbs
    else if exponent.natAbs ≤ maxPowerOfTen then
      (powerOfTen? exponent.natAbs).bind (x.mul? ·)
    else none

end Magnitude

/-- A finite signed value; zero keeps its sign. -/
structure Binary64 where
  negative : Bool
  magnitude : Magnitude
  deriving DecidableEq, Repr

end Muster.Decimal
