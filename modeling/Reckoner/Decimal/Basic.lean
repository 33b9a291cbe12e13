namespace Reckoner

-- The number coefficient · 10 ^ exponent.
structure Decimal where
  coefficient : Nat
  exponent    : Int
  deriving DecidableEq

namespace Decimal

-- The number mantissa · 2 ^ exponent. A half is five tenths, so that every such number is a decimal.
def ofBinary (mantissa : Nat) : Int → Decimal
  | .ofNat e   => ⟨mantissa <<< e, 0⟩
  | .negSucc e => ⟨mantissa * Nat.pow 5 (e + 1), .negSucc e⟩

def digits (d : Decimal) : List Char :=
  Nat.toDigits 10 d.coefficient

def leading (d : Decimal) : Int :=
  d.digits.length - 1 + d.exponent

-- The nearest floating point number. Powers of ten that lie beyond all of them, on either side, are
-- told apart by the first digit alone.
def toFloat (d : Decimal) : Float :=
  if d.coefficient = 0 then 0
  else if 310 ≤ d.leading then 1 / 0
  else if d.leading < -330 then 0
  else .ofScientific d.coefficient (d.exponent < 0) d.exponent.natAbs

end Decimal
end Reckoner
