import Reckoner.Operator
import Reckoner.Pattern

namespace Reckoner

inductive Kind where
  | number
  | constant (c : Constant)
  | opening
  | closing
  | textStart
  | textEnd
  | anything
  | separator
  | binary (op : Binary)
  | unary (op : Unary)
  | function (f : Func)
  deriving DecidableEq

namespace Kind

def constants : List Kind :=
  Constant.all.map constant

def functions : List Kind :=
  Func.all.map function

def binaries : List Kind :=
  separator :: Binary.all.map binary

def catalog : List Kind :=
  [number] ++ constants ++ [opening, closing, textStart, textEnd, anything] ++ binaries ++
    Unary.all.map unary ++ functions

def label : Kind → String
  | number     => "Number"
  | constant c => "Constant(" ++ c.label ++ ")"
  | opening    => "OpenBracket"
  | closing    => "CloseBracket"
  | textStart  => "StartAnchor"
  | textEnd    => "EndAnchor"
  | anything   => "AnyChar"
  | separator  => "Separator"
  | binary op  => "BinaryOperator(" ++ op.label ++ ")"
  | unary op   => "UnaryOperator(" ++ op.label ++ ")"
  | function f => "Function(" ++ f.name ++ ")"

def ofLabel? (label : String) : Option Kind :=
  catalog.find? (·.label == label)

def numeral : Pattern :=
  .seq digits <| .seq (.opt <| .seq (.one <| .char '.') digits) <|
    .opt <| .seq (.one <| .char 'e') <| .seq sign digits
where
  digits := .many .digit
  sign   := .alt (.one <| .char '-') (.one <| .char '+')

def pattern : Kind → Pattern
  | number       => numeral
  | constant .pi => .word 'P' ['I']
  | constant .e  => .word 'E' []
  | opening      => .one <| .among ['(', '\x7b', '[']
  | closing      => .one <| .among [')', '\x7d', ']']
  | textStart    => .start
  | textEnd      => .stop
  | anything     => .many .line
  | separator    => .one <| .char ','
  | binary op    => .one <| .char op.symbol
  | unary op     => .one <| .char op.symbol
  | function f   => .word f.letters.1 f.letters.2

def accepts (k : Kind) (text : String) : Bool :=
  k.pattern.accepts text.toList

def rank : Kind → Option Nat
  | separator  => some 0
  | binary op  => some op.rank
  | unary op   => some op.rank
  | function _ => some 5
  | _          => none

def associativity : Kind → Associativity
  | binary op => op.associativity
  | unary op  => op.associativity
  | _         => .left

def arity : Kind → Option Arity
  | separator | binary _ => some (.exactly 2)
  | unary _              => some (.exactly 1)
  | function f           => some f.arity
  | _                    => none

def isOperand : Kind → Bool
  | number | constant _ => true
  | _                   => false

def isOperator (k : Kind) : Bool :=
  k.rank.isSome

def joinsTwo : Kind → Bool
  | separator | binary _ => true
  | _                    => false

def function? : Kind → Option Func
  | function f => some f
  | _          => none

end Kind
end Reckoner
