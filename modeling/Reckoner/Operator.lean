namespace Reckoner

-- How many operands an operation takes. Without an upper bound it takes any number from the least on.
structure Arity where
  least : Nat
  most  : Option Nat
  deriving DecidableEq

namespace Arity

def exactly (n : Nat) : Arity :=
  ⟨n, some n⟩

def atLeast (n : Nat) : Arity :=
  ⟨n, none⟩

def allows (a : Arity) (count : Nat) : Bool :=
  a.least ≤ count && a.most.all (count ≤ ·)

def bounds (a : Arity) : String :=
  toString a.least ++ "-" ++ a.most.elim "inf" toString

def text (a : Arity) : String :=
  if a.most = some a.least then toString a.least else a.bounds

-- What is left to be taken when one operand is given without a separator in front of it.
def separators (a : Arity) : Arity :=
  ⟨a.least - 1, a.most.map (· - 1)⟩

end Arity

inductive Associativity where
  | left
  | right
  deriving DecidableEq

inductive Constant where
  | pi
  | e
  deriving DecidableEq

namespace Constant

def all : List Constant :=
  [pi, e]

def label : Constant → String
  | pi => "Pi"
  | e  => "E"

def value : Constant → Float
  | pi => 3.141592653589793
  | e  => 2.718281828459045

end Constant

inductive Binary where
  | add
  | subtract
  | multiply
  | divide
  | modulo
  | power
  deriving DecidableEq

namespace Binary

def all : List Binary :=
  [add, subtract, multiply, divide, modulo, power]

def label : Binary → String
  | add      => "Add"
  | subtract => "Subtract"
  | multiply => "Multiply"
  | divide   => "Divide"
  | modulo   => "Modulo"
  | power    => "Power"

def symbol : Binary → Char
  | add      => '+'
  | subtract => '-'
  | multiply => '*'
  | divide   => '/'
  | modulo   => '%'
  | power    => '^'

def rank : Binary → Nat
  | add | subtract             => 1
  | multiply | divide | modulo => 2
  | power                      => 3

def associativity : Binary → Associativity
  | power => .right
  | _     => .left

end Binary

inductive Unary where
  | negate
  | factorial
  deriving DecidableEq

namespace Unary

def all : List Unary :=
  [negate, factorial]

def label : Unary → String
  | negate    => "Negate"
  | factorial => "Factorial"

def symbol : Unary → Char
  | negate    => '-'
  | factorial => '!'

def rank : Unary → Nat
  | negate    => 3
  | factorial => 4

def associativity : Unary → Associativity
  | negate    => .right
  | factorial => .left

end Unary

inductive Func where
  | modulo
  | floorDivide
  | min
  | max
  | root
  | power
  | log
  | add
  | subtract
  | multiply
  | divide
  | sin
  | cos
  | tan
  | ln
  deriving DecidableEq

namespace Func

def all : List Func :=
  [modulo, floorDivide, min, max, root, power, log, add, subtract, multiply, divide, sin, cos, tan,
    ln]

def letters : Func → Char × List Char
  | modulo      => ('M', ['O', 'D'])
  | floorDivide => ('F', ['D', 'I', 'V'])
  | min         => ('M', ['I', 'N'])
  | max         => ('M', ['A', 'X'])
  | root        => ('R', ['O', 'O', 'T'])
  | power       => ('P', ['O', 'W'])
  | log         => ('L', ['O', 'G'])
  | add         => ('A', ['D', 'D'])
  | subtract    => ('S', ['U', 'B'])
  | multiply    => ('M', ['U', 'L'])
  | divide      => ('D', ['I', 'V'])
  | sin         => ('S', ['I', 'N'])
  | cos         => ('C', ['O', 'S'])
  | tan         => ('T', ['A', 'N'])
  | ln          => ('L', ['N'])

def name (f : Func) : String :=
  String.ofList (f.letters.1 :: f.letters.2)

def arity : Func → Arity
  | sin | cos | tan | ln => .exactly 1
  | _                    => .atLeast 1

end Func
end Reckoner
