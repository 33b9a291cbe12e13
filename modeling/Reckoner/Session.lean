import Reckoner.Cache
import Reckoner.Checks
import Reckoner.Decimal.Places
import Reckoner.Execution
import Reckoner.History
import Reckoner.Postfix
import Reckoner.Text.Utf8

namespace Reckoner

def Lexer.compile (l : Lexer) (expression : String) : Except Fault (List Token) :=
  l.parse expression >>= Postfix.ofTokens

def Prepared.compile (p : Prepared) (expression : String) : Except Fault (List Token) :=
  p.parse expression >>= Postfix.ofTokens

def answer (o : Options) (ts : List Token) : Except Fault Float :=
  Decimal.roundTo 15 <$> execute o ts

structure Session (σ : Type := Cache) where
  lexer   : Prepared
  history : List Entry
  cache   : Option σ

namespace Session

variable {σ : Type}

def empty : Session σ :=
  ⟨.new [], [], none⟩

def standard : Session :=
  { empty with lexer := .of .standard }

def clearHistory (s : Session σ) : Session σ :=
  { s with history := [] }

def save (s : Session σ) (e : Entry) : Session σ :=
  { s with history := e :: s.history }

def evaluateAll (s : Session σ) (expressions : List String) (o : Options) :
    List (Except Fault Float) :=
  expressions.map fun expression => s.lexer.compile expression >>= answer o

variable [Memory σ]

-- What was converted under other rules or let through by other checks is forgotten.
def setLexer (s : Session σ) (lexer : Prepared) : Session σ :=
  { s with lexer, cache := s.cache.map Memory.clear }

def addRules (s : Session σ) (rules : List (String × Rule)) : Except Fault Unit × Session σ :=
  match s.lexer.setRules rules with
  | (.ok _, p)    => (.ok (), s.setLexer p)
  | (.error f, p) => (.error f, { s with lexer := p })

def setChecks (s : Session σ) (checks : List Check) : Session σ :=
  s.setLexer <| s.lexer.setChecks checks

-- A cache that cannot hold anything is none.
def setCapacity (s : Session σ) (n : Nat) : Session σ :=
  { s with cache := if n = 0 then none else some (Memory.ofCapacity n) }

def remember (s : Session σ) (expression : String) (ts : List Token) : Session σ :=
  { s with cache := s.cache.map (Memory.put · expression ts) }

def lookup (s : Session σ) (expression : String) : Option (List Token) × Session σ :=
  match s.cache with
  | none   => (none, s)
  | some c => (Memory.get c expression).map id ({ s with cache := some · })

def compile (s : Session σ) (expression : String) : Except Fault (List Token) × Session σ :=
  match s.lookup expression with
  | (some ts, s) => (.ok ts, s)
  | (none, s)    => match s.lexer.compile expression with
    | .ok ts   => (.ok ts, s.remember expression ts)
    | .error f => (.error f, s)

def evaluate (s : Session σ) (expression : String) (keep : Bool) (o : Options) :
    Except Fault Float × Session σ :=
  match s.compile expression with
  | (.error f, s) => (.error f, s)
  | (.ok ts, s)   => match answer o ts with
    | .error f => (.error f, s)
    | .ok x    => (.ok x, if keep then s.save <| .of expression x else s)

def evaluateBytes (s : Session σ) (bytes : List UInt8) (keep : Bool) (o : Options) :
    Except Fault Float × Session σ :=
  match Text.Utf8.decode bytes with
  | .ok expression => s.evaluate expression keep o
  | .error flaw    => (.error <| .input <| "expression is not text: " ++ flaw.message, s)

end Session

def evaluate (expression : String) (o : Options) : Except Fault Float :=
  Session.standard.evaluate expression false o |>.1

end Reckoner
