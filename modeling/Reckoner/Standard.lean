import Reckoner.Grammar

namespace Reckoner.Standard

def negation : List Kind :=
  [.unary .negate]

def factorial : List Kind :=
  [.unary .factorial]

def operandStart : List Kind :=
  negation ++ [.number, .opening] ++ Kind.constants ++ Kind.functions

def operandEnd : List Kind :=
  factorial ++ [.closing] ++ Kind.binaries ++ [.separator, .textEnd]

def afterOpening : List Kind :=
  [.number] ++ negation ++ [.opening] ++ Kind.constants ++ Kind.functions

def afterNegation : List Kind :=
  [.number] ++ negation ++ [.opening] ++ Kind.functions ++ Kind.constants

def afterFactorial : List Kind :=
  [.separator] ++ factorial ++ [.number] ++ Kind.binaries ++ [.closing, .textEnd]

def rule (identity before after : List Kind) (stated : identity ≠ [] := by decide) : Rule :=
  (Rule.mk identity before after stated).longestFirst

-- A minus with an operator, a separator or an opening bracket in front of it, or nothing at all, is
-- tried as a negation before it is tried as a subtraction.
def rules : List (String × Rule) := [
  ("function",          rule Kind.functions [] [.opening]),
  ("separator",         rule [.separator] [] operandStart),
  ("constant",          rule Kind.constants [] operandEnd),
  ("open_bracket",      rule [.opening] [] afterOpening),
  ("close_bracket",     rule [.closing] [] operandEnd),
  ("number",            rule [.number] [] operandEnd),
  ("ul_operator",       rule negation (Kind.binaries ++ [.opening, .separator]) afterNegation),
  ("ul_start_operator", rule negation [.textStart] afterNegation),
  ("b_operator",        rule Kind.binaries [] operandStart),
  ("ur_operator",       rule factorial [] afterFactorial)]

def ruleNames : List String :=
  rules.map (·.1)

def select (names : List String) : List (String × Rule) :=
  rules.filter (names.contains ·.1)

end Reckoner.Standard
