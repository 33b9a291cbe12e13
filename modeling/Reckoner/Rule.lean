import Reckoner.Fault

namespace Reckoner

-- The kinds a lexeme may be of, and the kinds one of which must end in front of it and begin behind
-- it. No kinds to stand in front of it or behind it mean that anything may.
structure Rule where
  identity : List Kind
  before   : List Kind
  after    : List Kind
  stated   : identity ≠ []

namespace Rule

def ofKinds (kinds : List Kind) : Except Fault Rule :=
  if h : kinds = [] then .error .emptyRule else .ok ⟨kinds, [], [], h⟩

-- The same rule trying kinds with longer patterns first. Kinds with patterns of one length keep their
-- order.
def longestFirst (r : Rule) : Rule :=
  { r with
    identity := r.identity.mergeSort fun k l => l.pattern.source.length ≤ k.pattern.source.length
    stated   := by simpa [← List.length_eq_zero_iff] using r.stated }

def enclose (r : Rule) (before after : List Kind) : Rule :=
  { r with before, after }

def catchAll : Rule :=
  ⟨[.anything], [], [], by simp⟩

def alternatives (kinds : List Kind) : String :=
  "|".intercalate <| kinds.map (·.pattern.source)

def source (r : Rule) : String :=
  context "(?<=" r.before ++ "(" ++ alternatives r.identity ++ ")" ++ context "(?=" r.after
where
  context opening kinds := if kinds.isEmpty then "" else opening ++ alternatives kinds ++ ")"

-- The text in front is given from its last character to its first.
def fitsBehind (r : Rule) (behind : List Char) : Bool :=
  r.before.isEmpty || r.before.any (·.pattern.closes behind)

def fitsAhead (r : Rule) (ahead : List Char) : Bool :=
  r.after.isEmpty || r.after.any (·.pattern.opens ahead)

def shorter? (r : Rule) (k : Kind) (ahead : List Char) : Nat → Option Nat
  | 0     => none
  | 1     => none
  | n + 2 =>
    if r.fitsAhead (ahead.drop (n + 1)) && k.pattern.accepts (ahead.take (n + 1)) then some (n + 1)
    else r.shorter? k ahead (n + 1)

def length? (r : Rule) (k : Kind) (ahead : List Char) : Option Nat := do
  let n ← k.pattern.length? ahead
  if n = 0 then none
  else if r.fitsAhead (ahead.drop n) then some n
  else r.shorter? k ahead n

def match? (r : Rule) (behind ahead : List Char) : Option Nat :=
  if r.fitsBehind behind then r.identity.findSome? (r.length? · ahead) else none

end Rule
end Reckoner
