import Reckoner.Operator

namespace Reckoner.Numeric

-- On positive whole numbers it is a factorial, and finite up to 171. On the others it has poles.
def gammaWhole (x : Float) : Float :=
  if x ≤ 0 then 0 / 0
  else if 171 < x then 1 / 0
  else (List.range (x.toUInt64.toNat - 1)).foldl (fun p n => p * .ofNat (n + 1)) 1

def lanczosCoefficients : List Float :=
  [676.5203681218851, -1259.1392167224028, 771.3234287776531, -176.6150291621406, 12.507343278686905,
    -0.13857109526572012, 9.984369578019572e-6, 1.5056327351493116e-7]

-- The approximation of Lanczos with the parameter 7, for arguments above one half.
def gammaLanczos (x : Float) : Float :=
  let x      := x - 1
  let t      := x + 7 + 0.5
  let series := lanczosCoefficients.zipIdx.foldl (fun s (c, i) => s + c / (x + .ofNat i + 1))
    0.9999999999998099
  (2 * Constant.pi.value).sqrt * t.pow (x + 0.5) * (-t).exp * series

def gammaRight (x : Float) : Float :=
  if x == x.floor then gammaWhole x else gammaLanczos x

def gamma (x : Float) : Float :=
  if x != x.floor && x < 0.5 then
    Constant.pi.value / ((Constant.pi.value * x).sin * gammaRight (1 - x))
  else gammaRight x

end Reckoner.Numeric
