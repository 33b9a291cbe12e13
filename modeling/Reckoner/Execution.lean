import Reckoner.Numeric.Apply
import Reckoner.Token

namespace Reckoner

inductive Operand where
  | number (x : Float)
  | list   (xs : List Float)

namespace Operand

def pack : Operand → List Float
  | number x => [x]
  | list xs  => xs

def join (x y : Operand) : Operand :=
  .list (x.pack ++ y.pack)

end Operand

namespace Execution

def pair (t : Token) : List Operand → Except Fault (Operand × Operand × List Operand)
  | y :: x :: stack => .ok (x, y, stack)
  | stack           => .error <| .operandCount t.kind (.exactly 2) stack.length

def step (o : Options) (stack : List Operand) (t : Token) : Except Fault (List Operand) :=
  match t.kind with
  | .number | .constant _ => do
    let some x := t.value? | throw t.unrecognized
    return .number x :: stack
  | .separator => do
    let (x, y, stack) ← pair t stack
    return x.join y :: stack
  | .binary _ => do
    let (x, y, stack) ← pair t stack
    return .number (← t.kind.apply o (x.pack ++ y.pack)) :: stack
  | .unary _ | .function _ => do
    return .number (← t.kind.apply o (stack.head?.elim [] Operand.pack)) :: stack.tail
  | _ => throw t.unrecognized

-- What is on top is the result, and without anything it is zero.
def result : List Operand → Except Fault Float
  | []             => .ok 0
  | .number x :: _ => .ok x
  | .list xs :: _  => .error <| .separators (.untaken xs) []

def run (o : Options) (ts : List Token) : Except Fault (List Operand) :=
  ts.foldlM (step o) []

end Execution

def execute (o : Options) (ts : List Token) : Except Fault Float :=
  Execution.run o ts >>= Execution.result

end Reckoner
