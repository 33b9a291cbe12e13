import Reckoner.Numeric.Apply
import Reckoner.Token

namespace Reckoner

abbrev Token.Of (ks : List Kind) :=
  { t : Token // t.kind ∈ ks }

namespace Kind

def operands : List Kind :=
  number :: constants

def additive : List Kind :=
  [.binary .add, .binary .subtract]

def multiplicative : List Kind :=
  [.binary .multiply, .binary .divide, .binary .modulo]

end Kind

inductive Layer where
  | sum
  | product
  | power
  | factorial
  | atom

mutual

-- Sums and products are read from the left, powers and negations from the right. Every layer holds
-- the tighter ones.
inductive Expr : Layer → Type where
  | operand   (t : Token.Of Kind.operands) : Expr .atom
  | bracketed (o : Token.Of [.opening]) (e : Expr .sum) (c : Token.Of [.closing]) : Expr .atom
  | call      (f : Token.Of Kind.functions) (o : Token.Of [.opening]) (as : Args)
              (c : Token.Of [.closing]) : Expr .atom
  | atom      (e : Expr .atom) : Expr .factorial
  | factorial (e : Expr .factorial) (t : Token.Of [.unary .factorial]) : Expr .factorial
  | base      (e : Expr .factorial) : Expr .power
  | power     (x : Expr .factorial) (t : Token.Of [.binary .power]) (y : Expr .power) : Expr .power
  | negation  (t : Token.Of [.unary .negate]) (e : Expr .power) : Expr .power
  | factor    (e : Expr .power) : Expr .product
  | product   (x : Expr .product) (t : Token.Of Kind.multiplicative) (y : Expr .power) :
              Expr .product
  | term      (e : Expr .product) : Expr .sum
  | sum       (x : Expr .sum) (t : Token.Of Kind.additive) (y : Expr .product) : Expr .sum

inductive Args : Type where
  | one  (e : Expr .sum) : Args
  | more (as : Args) (s : Token.Of [.separator]) (e : Expr .sum) : Args

end

mutual

def Expr.tokens {l : Layer} : Expr l → List Token
  | .operand t       => [t]
  | .bracketed o e c => o :: (e.tokens ++ [c.1])
  | .call f o as c   => f :: o :: (as.tokens ++ [c.1])
  | .atom e          => e.tokens
  | .factorial e t   => e.tokens ++ [t.1]
  | .base e          => e.tokens
  | .power x t y     => x.tokens ++ t.1 :: y.tokens
  | .negation t e    => t :: e.tokens
  | .factor e        => e.tokens
  | .product x t y   => x.tokens ++ t.1 :: y.tokens
  | .term e          => e.tokens
  | .sum x t y       => x.tokens ++ t.1 :: y.tokens

def Args.tokens : Args → List Token
  | .one e       => e.tokens
  | .more as s e => as.tokens ++ s.1 :: e.tokens

end

mutual

-- Operators stand behind their operands, and functions behind their arguments. The separators of a
-- call are nested to the left.
def Expr.postorder {l : Layer} : Expr l → List Token
  | .operand t       => [t]
  | .bracketed _ e _ => e.postorder
  | .call f _ as _   => as.postorder ++ [f.1]
  | .atom e          => e.postorder
  | .factorial e t   => e.postorder ++ [t.1]
  | .base e          => e.postorder
  | .power x t y     => x.postorder ++ y.postorder ++ [t.1]
  | .negation t e    => e.postorder ++ [t.1]
  | .factor e        => e.postorder
  | .product x t y   => x.postorder ++ y.postorder ++ [t.1]
  | .term e          => e.postorder
  | .sum x t y       => x.postorder ++ y.postorder ++ [t.1]

def Args.postorder : Args → List Token
  | .one e       => e.postorder
  | .more as s e => as.postorder ++ e.postorder ++ [s.1]

end

mutual

-- Parts are computed from the left to the right, and the first fault ends the computation.
def Expr.value {l : Layer} (o : Options) : Expr l → Except Fault Float
  | .operand t       => t.1.value?.elim (.error t.1.unrecognized) .ok
  | .bracketed _ e _ => e.value o
  | .call f _ as _   => do f.1.kind.apply o (← as.values o)
  | .atom e          => e.value o
  | .factorial e t   => do t.1.kind.apply o [← e.value o]
  | .base e          => e.value o
  | .power x t y     => do t.1.kind.apply o [← x.value o, ← y.value o]
  | .negation t e    => do t.1.kind.apply o [← e.value o]
  | .factor e        => e.value o
  | .product x t y   => do t.1.kind.apply o [← x.value o, ← y.value o]
  | .term e          => e.value o
  | .sum x t y       => do t.1.kind.apply o [← x.value o, ← y.value o]

def Args.values (o : Options) : Args → Except Fault (List Float)
  | .one e       => do return [← e.value o]
  | .more as _ e => do return (← as.values o) ++ [← e.value o]

end

def Args.count : Args → Nat
  | .one _       => 1
  | .more as _ _ => as.count + 1

mutual

def Expr.Fits {l : Layer} : Expr l → Prop
  | .operand _       => True
  | .bracketed _ e _ => e.Fits
  | .call f _ as _   => (f.1.kind.arity.any (·.allows as.count)) ∧ as.Fit
  | .atom e          => e.Fits
  | .factorial e _   => e.Fits
  | .base e          => e.Fits
  | .power x _ y     => x.Fits ∧ y.Fits
  | .negation _ e    => e.Fits
  | .factor e        => e.Fits
  | .product x _ y   => x.Fits ∧ y.Fits
  | .term e          => e.Fits
  | .sum x _ y       => x.Fits ∧ y.Fits

def Args.Fit : Args → Prop
  | .one e       => e.Fits
  | .more as _ e => as.Fit ∧ e.Fits

end

end Reckoner
