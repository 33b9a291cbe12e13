import Reckoner.Decimal.Layout
import Reckoner.Kind
import Reckoner.Span
import Reckoner.Text.Quoted

namespace Reckoner

-- How separators are misused: outside of all brackets, in brackets that belong to no function, more or
-- fewer of them than a function takes, or joining operands that no function takes.
inductive Misuse where
  | outsideBrackets
  | outsideFunction
  | count (function : String) (expected : Arity) (got : Nat)
  | untaken (operands : List Float)

def Misuse.message : Misuse → String
  | outsideBrackets => "separators outside bracket group"
  | outsideFunction => "separators outside function body"
  | count function expected got =>
    "invalid number of separators for " ++ function ++ ": expected " ++ expected.bounds ++ ", got " ++
      toString got
  | untaken operands =>
    "argument list " ++ Layout.standard.listText operands ++ " outside function call"

inductive Fault where
  | spelling       (kind : Kind) (text : String)
  | unrecognized   (text : String) (span : Span)
  | unbalanced     (text : String) (span : Span)
  | separators     (misuse : Misuse) (positions : List Nat)
  | operandCount   (operator : Kind) (expected : Arity) (got : Nat)
  | input          (reason : String)
  | emptyRule
  | ruleName       (name : String)
  | noFiniteResult (operator : Kind) (operands : List Float)

def Fault.message : Fault → String
  | spelling kind text =>
    "invalid token value " ++ Text.quoted text ++ " for " ++ kind.label
  | unrecognized text span =>
    "unrecognized token " ++ Text.quoted text ++ " at " ++ span.text
  | unbalanced text span =>
    "unbalanced bracket " ++ Text.quoted text ++ " at " ++ span.text
  | separators misuse positions =>
    "separator error: " ++ misuse.message ++ " (separators at [" ++
      ", ".intercalate (positions.map toString) ++ "])"
  | operandCount operator expected got =>
    operator.label ++ " expects " ++ expected.text ++ " operand(s), got " ++ toString got
  | input reason =>
    "invalid input type: " ++ reason
  | emptyRule =>
    "rule cannot be empty"
  | ruleName name =>
    "invalid rule name " ++ Text.quoted name
  | noFiniteResult operator operands =>
    "calculation failed on " ++ operator.label ++ ": no finite result for operands " ++
      Layout.standard.listText operands

end Reckoner
