import Reckoner.Numeric.Remainder
import Reckoner.Options

namespace Reckoner.Numeric

def nan : Float :=
  0 / 0

def fold (f : Float → Float → Float) : List Float → Float
  | []      => nan
  | x :: xs => xs.foldl f x

def foldOr (single : Float → Float) (f : Float → Float → Float) : List Float → Float
  | [x] => single x
  | xs  => fold f xs

-- The zero that leaves every number as it is when it is added to it is the negative one.
def sum (xs : List Float) : Float :=
  xs.foldl (· + ·) (-0.0)

def lesser (x y : Float) : Float :=
  if x.isNaN || y < x then y else x

def greater (x y : Float) : Float :=
  if x.isNaN || x < y then y else x

def floorDivide : List Float → Float :=
  foldOr Float.floor fun x y => (x / y).floor

def root : List Float → Float :=
  foldOr Float.sqrt fun x n => x.pow (1 / n)

def power : List Float → Float :=
  foldOr (fun x => x * x) Float.pow

def log : List Float → Float :=
  foldOr Float.log10 fun x base => x.log / base.log

def first (f : Float → Float) (xs : List Float) : Float :=
  f <| xs.headD nan

def angle (o : Options) (x : Float) : Float :=
  if o.radians then x else x * 0.017453292519943295

end Reckoner.Numeric
