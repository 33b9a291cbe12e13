import Reckoner.Decimal.Numeral
import Reckoner.Fault

namespace Reckoner

structure Token where
  kind    : Kind
  text    : String
  span    : Span
  spelled : kind.accepts text

namespace Token

def make (kind : Kind) (text : String) (span : Span) : Except Fault Token :=
  if h : kind.accepts text then .ok ⟨kind, text, span, h⟩ else .error <| .spelling kind text

def value? (t : Token) : Option Float :=
  match t.kind with
  | .number     => Decimal.toFloat <$> Decimal.ofNumeral? t.text.toList
  | .constant c => c.value
  | _           => none

def unrecognized (t : Token) : Fault :=
  .unrecognized t.text t.span

def unbalanced (t : Token) : Fault :=
  .unbalanced t.text t.span

def describe (t : Token) : String :=
  t.kind.label ++ "(" ++ Text.quoted t.text ++ " at " ++ t.span.text ++ ")"

end Token
end Reckoner
