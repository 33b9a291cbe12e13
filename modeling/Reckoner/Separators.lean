import Reckoner.Token

namespace Reckoner

-- Tokens are read from the last to the first, so that brackets are entered at their closing end. These
-- are the separators found so far in the brackets entered last, and in those around them.
structure Frames where
  inner : List Nat
  outer : List (List Nat)

namespace Frames

def empty : Frames :=
  ⟨[], []⟩

def enter (f : Frames) : Frames :=
  ⟨[], f.inner :: f.outer⟩

def add (f : Frames) (position : Nat) : Frames :=
  { f with inner := position :: f.inner }

-- An opening bracket without a closing one reaches to the end of the text: it takes the separators
-- that belong to no brackets yet.
def leave (f : Frames) : Frames :=
  ⟨f.outer.headD [], f.outer.tail⟩

def all (f : Frames) : List Nat :=
  f.inner ++ f.outer.flatten

end Frames

namespace Separators

def fault (misuse : Misuse) (positions : List Nat) : Fault :=
  .separators misuse <| positions.mergeSort (· ≤ ·)

def checkOwned (front : Option Token) (positions : List Nat) : Except Fault Unit :=
  match front.bind fun t => t.kind.function?.map (t.text, ·.arity.separators) with
  | some (name, arity) =>
    if arity.allows positions.length then .ok ()
    else .error <| fault (.count name arity positions.length) positions
  | none =>
    if positions.isEmpty then .ok () else .error <| fault .outsideFunction positions

def backwards (f : Frames) : List Token → Except Fault Unit
  | []        => if f.all.isEmpty then .ok () else .error <| fault .outsideBrackets f.all
  | t :: rest => match t.kind with
    | .closing   => backwards f.enter rest
    | .separator => backwards (f.add t.span.start) rest
    | .opening   => do
      checkOwned rest.head? f.inner
      backwards f.leave rest
    | _          => backwards f rest

-- The rightmost misuse is the one that is told.
def check (ts : List Token) : Except Fault Unit :=
  backwards .empty ts.reverse

end Separators
end Reckoner
