import Reckoner.Decimal.Basic

namespace Reckoner.Decimal

-- The numbers nearer to one floating point number than to its neighbours, as multiples of
-- 10 ^ exponent. The ends lie in the middle between neighbours, and belong to the number whose
-- mantissa is even.
structure Nearest where
  lower    : Nat
  value    : Nat
  upper    : Nat
  closed   : Bool
  exponent : Int

-- Measured in quarters of the distance to the next number above, the neighbours are four away, except
-- that the one below a power of two is two away.
def nearest (mantissa : Nat) (exponent : Int) : Nearest where
  lower    := (4 * mantissa - below) * quarter.coefficient
  value    := 4 * mantissa * quarter.coefficient
  upper    := (4 * mantissa + 2) * quarter.coefficient
  closed   := mantissa % 2 == 0
  exponent := quarter.exponent
where
  quarter := ofBinary 1 (exponent - 2)
  below   := if mantissa = 1 <<< 52 ∧ -1074 < exponent then 1 else 2

namespace Nearest

def holds (n : Nearest) (x : Nat) : Bool :=
  if n.closed then n.lower ≤ x && x ≤ n.upper else n.lower < x && x < n.upper

-- The multiple of a unit that is nearest to the value, if it reads back. Of two that are equally
-- near it is the greater.
def onGrid (n : Nearest) (unit : Nat) : Option Nat :=
  let below := n.value / unit
  let above := below + 1
  match n.holds (below * unit), n.holds (above * unit) with
  | true,  true  => if n.value - below * unit < above * unit - n.value then below else above
  | true,  false => below
  | false, true  => above
  | false, false => none

def coarsest (n : Nearest) : Nat → Decimal
  | 0     => ⟨n.value, n.exponent⟩
  | k + 1 => match n.onGrid <| Nat.pow 10 (k + 1) with
    | some c => ⟨c, n.exponent + (k + 1)⟩
    | none   => n.coarsest k

end Nearest

def shortest (mantissa : Nat) (exponent : Int) : Decimal :=
  let n := nearest mantissa exponent
  n.coarsest (Nat.toDigits 10 n.value).length

end Reckoner.Decimal
