import Reckoner.Grammar
import Reckoner.Text.Blank
import Reckoner.Token

namespace Reckoner

def Match.kind (m : Match) : Kind :=
  (m.identity.find? (·.accepts m.text)).getD .anything

def Match.token (m : Match) : Except Fault Token :=
  Token.make m.kind m.text m.span

structure Check where
  name : String
  run  : List Token → Except Fault Unit

structure Lexer where
  grammar : Grammar
  checks  : List Check

namespace Lexer

def empty : Lexer :=
  ⟨.empty, []⟩

def addRules (l : Lexer) (rules : List (String × Rule)) : Except Fault Lexer :=
  match l.grammar.extend rules with
  | (.ok _, g)    => .ok { l with grammar := g }
  | (.error f, _) => .error f

def tokenize (l : Lexer) (text : List Char) : Except Fault (List Token) :=
  (l.grammar.find text).mapM Match.token

-- Blanks mean nothing, not even between digits. The first check to fail tells why.
def parse (l : Lexer) (expression : String) : Except Fault (List Token) := do
  let ts ← l.tokenize <| Text.stripped expression.toList
  l.checks.forM (·.run ts)
  return ts

end Lexer

-- A lexer that keeps what its grammar was compiled to, once it was given rules.
structure Prepared extends Lexer where
  matcher : Option (List Char → List Match)

namespace Prepared

def new (checks : List Check) : Prepared :=
  ⟨⟨.empty, checks⟩, none⟩

def of (l : Lexer) : Prepared :=
  ⟨l, some l.grammar.find⟩

def setRules (p : Prepared) (rules : List (String × Rule)) : Except Fault Unit × Prepared :=
  match p.addRules rules with
  | .ok l    => (.ok (), of l)
  | .error f => (.error f, p)

def setChecks (p : Prepared) (checks : List Check) : Prepared :=
  { p with checks }

def parse (p : Prepared) (expression : String) : Except Fault (List Token) := do
  let find := p.matcher.getD p.grammar.find
  let ts ← (find <| Text.stripped expression.toList).mapM Match.token
  p.checks.forM (·.run ts)
  return ts

end Prepared
end Reckoner
