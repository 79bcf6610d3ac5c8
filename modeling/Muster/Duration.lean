import Muster.Text.Utf8

/-!
# Durations

Time is counted in whole milliseconds.  A duration is shown in seconds from one
second on, with as many decimals as it needs, and in milliseconds below.
-/

namespace Muster

open Text

/-- A span of time. -/
structure Duration where
  millis : Nat
  deriving DecidableEq, Repr, Inhabited

namespace Duration

def zero : Duration := ⟨0⟩

instance : Add Duration where
  add a b := ⟨a.millis + b.millis⟩

instance : Max Duration where
  max a b := ⟨max a.millis b.millis⟩

/-- The digits behind the point of a number of thousandths, without the zeros
that end them. -/
def decimals (thousandths : Nat) : List Char :=
  let digits := [thousandths / 100, thousandths / 10 % 10, thousandths % 10].map Nat.digitChar
  (digits.reverse.dropWhile (· = '0')).reverse

def text (duration : Duration) : String :=
  if duration.millis = 0 then "0ns"
  else if duration.millis < 1000 then decimal duration.millis ++ "ms"
  else
    let rest := decimals (duration.millis % 1000)
    decimal (duration.millis / 1000) ++
      String.ofList (if rest.isEmpty then [] else '.' :: rest) ++ "s"

end Duration

end Muster
