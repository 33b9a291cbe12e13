import Reckoner.Decimal.Shortest

namespace Reckoner

open Float.Model.UnpackedFloat (Sign)

-- The decisions that one way to write numbers makes: which leading powers of ten are written without
-- an exponent, whether a whole number ends in a point and a zero, whether a positive exponent has a
-- sign, and how many digits an exponent has at least.
structure Layout where
  plainFrom      : Int
  plainBelow     : Int
  wholePoint     : Bool
  exponentSign   : Bool
  exponentDigits : Nat

namespace Layout

def standard : Layout where
  plainFrom      := -4
  plainBelow     := 16
  wholePoint     := true
  exponentSign   := false
  exponentDigits := 1

def plain (l : Layout) (d : Decimal) : List Char :=
  match d.exponent with
  | .ofNat e   => d.digits ++ .replicate e '0' ++ if l.wholePoint then ['.', '0'] else []
  | .negSucc e =>
    let padded := .replicate (e + 2 - d.digits.length) '0' ++ d.digits
    let whole  := padded.length - (e + 1)
    padded.take whole ++ '.' :: padded.drop whole

def exponent (l : Layout) (e : Int) : List Char :=
  let digits := Nat.toDigits 10 e.natAbs
  sign ++ .replicate (l.exponentDigits - digits.length) '0' ++ digits
where
  sign := if e < 0 then ['-'] else if l.exponentSign then ['+'] else []

def scientific (l : Layout) (d : Decimal) : List Char :=
  mantissa d.digits ++ 'e' :: l.exponent d.leading
where
  mantissa
    | first :: second :: rest => first :: '.' :: second :: rest
    | digits                  => digits

def decimal (l : Layout) (d : Decimal) : List Char :=
  if l.plainFrom ≤ d.leading ∧ d.leading < l.plainBelow then l.plain d else l.scientific d

def minus : Sign → List Char
  | .negative => ['-']
  | .positive => []

def text (l : Layout) (x : Float) : String :=
  match x.toModel.unpack with
  | .notANumber     => "NaN"
  | .infinity s     => .ofList <| minus s ++ ['i', 'n', 'f']
  | .zero s         => .ofList <| minus s ++ l.decimal ⟨0, 0⟩
  | .finite s m e _ => .ofList <| minus s ++ l.decimal (.shortest m e)

def listText (l : Layout) (xs : List Float) : String :=
  "[" ++ ", ".intercalate (xs.map l.text) ++ "]"

end Layout
end Reckoner
