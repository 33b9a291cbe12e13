namespace Reckoner.Numeric

open Float.Model Float.Model.UnpackedFloat

def ofBinary (s : Sign) (mantissa : Nat) (exponent : Int) : Float :=
  .ofModel <| pack <| .round Format.binary64 s mantissa exponent

-- What is left of one magnitude after taking the other away as often as it goes, in units of the
-- smaller of their two exponents. It fits the mantissa, so that nothing is rounded.
def remainder (x y : Float) : Float :=
  match x.toModel.unpack, y.toModel.unpack with
  | .finite s m e _, .finite _ n f _ =>
    let unit := min e f
    ofBinary s ((m <<< (e - unit).toNat) % (n <<< (f - unit).toNat)) unit
  | .finite .., .infinity _ | .zero _, .finite .. | .zero _, .infinity _ => x
  | _, _ => 0 / 0

-- The remainder that belongs to the quotient rounded down: it has the sign of the divisor.
def flooredRemainder (x y : Float) : Float :=
  let r := remainder x y
  if r != 0 && decide (r < 0) != decide (y < 0) then r + y else r

end Reckoner.Numeric
