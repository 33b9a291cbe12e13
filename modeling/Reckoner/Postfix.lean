import Reckoner.Token

namespace Reckoner

-- An operator that waits is computed before one that comes in, if it holds its operands more tightly,
-- or as tightly and the incoming one does not take the operand between them.
def Kind.yieldsTo (waiting incoming : Kind) : Bool :=
  match waiting.rank, incoming.rank with
  | some p, some q => q < p || (p == q && incoming.associativity == .left)
  | _,      _      => false

-- The tokens put out, in order, and the ones that wait, the latest first.
structure Yard where
  out     : List Token
  waiting : List Token

namespace Yard

def empty : Yard :=
  ⟨[], []⟩

def opens (t : Token) : Bool :=
  t.kind == .opening

def release (y : Yard) (leaves : Token → Bool) : Yard :=
  ⟨y.out ++ y.waiting.takeWhile leaves, y.waiting.dropWhile leaves⟩

def hold (y : Yard) (t : Token) : Yard :=
  { y with waiting := t :: y.waiting }

def step (y : Yard) (t : Token) : Except Fault Yard :=
  match t.kind with
  | .number | .constant _ => .ok { y with out := y.out ++ [t] }
  | .opening | .function _ => .ok <| y.hold t
  | .closing =>
    let y := y.release (!opens ·)
    match y.waiting with
    | []        => .error t.unbalanced
    | _ :: rest => .ok { y with waiting := rest }
  | .separator | .binary _ | .unary _ => .ok <| (y.release (·.kind.yieldsTo t.kind)).hold t
  | .textStart | .textEnd | .anything => .error t.unrecognized

-- Brackets that are never closed close at the end.
def finish (y : Yard) : List Token :=
  y.out ++ y.waiting.filter (!opens ·)

end Yard

namespace Postfix

def ofTokens (ts : List Token) : Except Fault (List Token) :=
  Yard.finish <$> ts.foldlM Yard.step .empty

end Postfix
end Reckoner
