import Reckoner.Decimal.Basic

namespace Reckoner.Decimal

-- The whole number nearest to a quotient. Half way between two of them it is the even one.
def roundDiv (n d : Nat) : Nat :=
  let q := n / d
  let r := n % d
  if 2 * r < d then q
  else if d < 2 * r then q + 1
  else q + q % 2

def scaled (places mantissa : Nat) : Int → Nat
  | .ofNat e   => (mantissa <<< e) * Nat.pow 10 places
  | .negSucc e => roundDiv (mantissa * Nat.pow 10 places) (1 <<< (e + 1))

-- A number that rounds to zero keeps its sign.
def roundTo (places : Nat) (x : Float) : Float :=
  match x.toModel.unpack with
  | .finite .positive m e _ => magnitude m e
  | .finite .negative m e _ => -magnitude m e
  | _                       => x
where
  magnitude m e := .ofScientific (scaled places m e) true places

end Reckoner.Decimal
