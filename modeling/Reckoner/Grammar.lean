import Reckoner.Rule

namespace Reckoner

structure Grammar where
  rules : List (String × Rule)

structure Match where
  rule     : String
  identity : List Kind
  text     : String
  span     : Span

namespace Grammar

def empty : Grammar :=
  ⟨[]⟩

-- The name of the rule that is tried last, and takes what no other rule does.
def reserved : String :=
  "invalid"

def isName (name : String) : Bool :=
  name != reserved && match name.toList with
    | []     => false
    | c :: s => (c.isAlpha || c == '_') && s.all fun c => c.isAlphanum || c == '_'

def put (name : String) (r : Rule) : List (String × Rule) → List (String × Rule)
  | []          => [(name, r)]
  | rule :: rest => if rule.1 = name then (name, r) :: rest else rule :: put name r rest

def insert (g : Grammar) (name : String) (r : Rule) : Except Fault Grammar :=
  if isName name then .ok ⟨put name r g.rules⟩ else .error <| .ruleName name

-- Inserts rules up to the first one that cannot be inserted.
def extend (g : Grammar) : List (String × Rule) → Except Fault Unit × Grammar
  | []               => (.ok (), g)
  | (name, r) :: rest => match g.insert name r with
    | .ok g    => g.extend rest
    | .error f => (.error f, g)

def names (g : Grammar) : List String :=
  g.rules.map (·.1)

def full (g : Grammar) : List (String × Rule) :=
  g.rules ++ [(reserved, .catchAll)]

def source (g : Grammar) : String :=
  "|".intercalate <| g.full.map fun (name, r) => "(?P<" ++ name ++ ">" ++ r.source ++ ")"

def first? (g : Grammar) (behind ahead : List Char) : Option ((String × Rule) × Nat) :=
  g.full.findSome? fun rule => (rule.2.match? behind ahead).map (rule, ·)

-- Divides the text that lies ahead, from an offset on. A character that no rule takes is passed over.
def divide (g : Grammar) (offset : Nat) (behind ahead : List Char) : List Match :=
  match ahead with
  | []     => []
  | c :: s => match g.first? behind (c :: s) with
    | some ((name, r), n + 1) =>
      let lexeme := c :: s.take n
      let text   := String.ofList lexeme
      let stop   := offset + text.utf8ByteSize
      ⟨name, r.identity, text, ⟨offset, stop⟩⟩ ::
        g.divide stop (lexeme.reverse ++ behind) (s.drop n)
    | _ => g.divide (offset + c.utf8Size) (c :: behind) s
termination_by ahead.length
decreasing_by all_goals simp; try omega

def find (g : Grammar) (text : List Char) : List Match :=
  g.divide 0 [] text

end Grammar
end Reckoner
