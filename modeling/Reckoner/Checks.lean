import Reckoner.Lexer
import Reckoner.Separators
import Reckoner.Standard

namespace Reckoner

namespace Checks

def recognized (ts : List Token) : Except Fault Unit :=
  match ts.find? (·.kind = .anything) with
  | some t => .error t.unrecognized
  | none   => .ok ()

def standard : List Check := [
  ⟨"group",    recognized⟩,
  ⟨"function", Separators.check⟩]

end Checks

def Lexer.standard : Lexer :=
  ⟨⟨Standard.rules⟩, Checks.standard⟩

end Reckoner
