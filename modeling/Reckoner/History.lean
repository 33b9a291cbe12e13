import Reckoner.Decimal.Layout

namespace Reckoner

def Layout.saved : Layout where
  plainFrom      := -4
  plainBelow     := 16
  wholePoint     := false
  exponentSign   := true
  exponentDigits := 2

structure Entry where
  expression : String
  result     : String
  deriving DecidableEq

def Entry.of (expression : String) (x : Float) : Entry :=
  ⟨expression, Layout.saved.text x⟩

end Reckoner
