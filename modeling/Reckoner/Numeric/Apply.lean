import Reckoner.Fault
import Reckoner.Numeric.Gamma
import Reckoner.Numeric.Pack

namespace Reckoner

def Binary.compute (x y : Float) : Binary → Float
  | add      => x + y
  | subtract => x - y
  | multiply => x * y
  | divide   => x / y
  | modulo   => Numeric.flooredRemainder x y
  | power    => x.pow y

def Unary.compute (x : Float) : Unary → Float
  | negate    => -x
  | factorial => Numeric.gamma (x + 1)

def Func.compute (o : Options) (xs : List Float) : Func → Float
  | modulo      => Numeric.fold Numeric.flooredRemainder xs
  | floorDivide => Numeric.floorDivide xs
  | min         => Numeric.fold Numeric.lesser xs
  | max         => Numeric.fold Numeric.greater xs
  | root        => Numeric.root xs
  | power       => Numeric.power xs
  | log         => Numeric.log xs
  | add         => Numeric.sum xs
  | subtract    => Numeric.fold (· - ·) xs
  | multiply    => Numeric.fold (· * ·) xs
  | divide      => Numeric.fold (· / ·) xs
  | sin         => Numeric.first (Float.sin <| Numeric.angle o ·) xs
  | cos         => Numeric.first (Float.cos <| Numeric.angle o ·) xs
  | tan         => Numeric.first (Float.tan <| Numeric.angle o ·) xs
  | ln          => Numeric.first Float.log xs

namespace Kind

-- The separator has an arity but nothing to compute: it joins its operands.
def compute? (o : Options) : Kind → List Float → Option Float
  | binary op,  [x, y] => op.compute x y
  | unary op,   [x]    => op.compute x
  | function f, xs     => f.compute o xs
  | _,          _      => none

-- Operands that are numbers must not give a result that is none.
def apply (k : Kind) (o : Options) (xs : List Float) : Except Fault Float := do
  let some arity := k.arity | throw <| .unrecognized k.label .nowhere
  unless arity.allows xs.length do throw <| .operandCount k arity xs.length
  let some x := k.compute? o xs | throw <| .unrecognized k.label .nowhere
  if !x.isFinite && xs.all Float.isFinite then throw <| .noFiniteResult k xs
  return x

end Kind
end Reckoner
