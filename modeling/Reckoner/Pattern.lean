import Reckoner.Text.Case

namespace Reckoner

inductive CharSet where
  | char  (c : Char)
  | among (cs : List Char)
  | digit
  | line

namespace CharSet

-- Letters stand for both of their cases. A line is any text without a line break.
def holds : CharSet → Char → Bool
  | char c,   d => Text.sameLetter c d
  | among cs, d => cs.any (Text.sameLetter · d)
  | digit,    d => d.isDigit
  | line,     d => d != '\n'

def escaped (special : List Char) (c : Char) : String :=
  if special.contains c then String.ofList ['\\', c] else String.singleton c

def source : CharSet → String
  | char c   => escaped ['+', '*', '^', '.'] c
  | among cs => "[" ++ String.join (cs.map <| escaped ['[', ']']) ++ "]"
  | digit    => "[0-9]"
  | line     => "."

end CharSet

inductive Pattern where
  | start
  | stop
  | one  (set : CharSet)
  | many (set : CharSet)
  | seq  (p q : Pattern)
  | alt  (p q : Pattern)
  | opt  (p : Pattern)

namespace Pattern

def word : Char → List Char → Pattern
  | c, []      => one (.char c)
  | c, d :: ds => seq (one <| .char c) (word d ds)

def source : Pattern → String
  | start    => "^"
  | stop     => "$"
  | one set  => set.source
  | many set => set.source ++ "+"
  | seq p q  => p.source ++ q.source
  | alt p q  => "(?:" ++ p.source ++ "|" ++ q.source ++ ")"
  | opt p    => "(?:" ++ p.source ++ ")?"

-- The pattern of the same lexemes read from their last character to their first.
def reverse : Pattern → Pattern
  | start    => stop
  | stop     => start
  | one set  => one set
  | many set => many set
  | seq p q  => seq q.reverse p.reverse
  | alt p q  => alt p.reverse q.reverse
  | opt p    => opt p.reverse

-- How far a text has been read: what is left of it, and whether that is still all of it.
structure Cursor where
  rest  : List Char
  fresh : Bool

def Cursor.at (s : List Char) : Cursor :=
  ⟨s, true⟩

def step (set : CharSet) : List Char → List Cursor
  | []     => []
  | c :: s => if set.holds c then [⟨s, false⟩] else []

def run (set : CharSet) (found : List Cursor) : List Char → List Cursor
  | []     => found
  | c :: s => if set.holds c then run set (⟨s, false⟩ :: found) s else found

-- Every way to read a beginning of the text. The ways come in order of preference: repetition and
-- options take what they can before they do without it, and alternatives are tried from the left.
def reads : Pattern → Cursor → List Cursor
  | start,    cur => if cur.fresh then [cur] else []
  | stop,     cur => if cur.rest.isEmpty then [cur] else []
  | one set,  cur => step set cur.rest
  | many set, cur => run set [] cur.rest
  | seq p q,  cur => (p.reads cur).flatMap q.reads
  | alt p q,  cur => p.reads cur ++ q.reads cur
  | opt p,    cur => p.reads cur ++ [cur]

def accepts (p : Pattern) (s : List Char) : Bool :=
  (p.reads <| .at s).any (·.rest.isEmpty)

def opens (p : Pattern) (s : List Char) : Bool :=
  !(p.reads <| .at s).isEmpty

-- Some lexeme ends the text, which is given from its last character to its first.
def closes (p : Pattern) (behind : List Char) : Bool :=
  p.reverse.opens behind

def length? (p : Pattern) (s : List Char) : Option Nat :=
  (p.reads <| .at s).head?.map (s.length - ·.rest.length)

end Pattern
end Reckoner
