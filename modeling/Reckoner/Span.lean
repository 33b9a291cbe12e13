namespace Reckoner

-- Where a part of a text lies: the offsets of its first byte and of the byte behind its last.
structure Span where
  start : Nat
  stop  : Nat
  deriving DecidableEq

namespace Span

def nowhere : Span :=
  ⟨0, 0⟩

def text (s : Span) : String :=
  toString s.start ++ ".." ++ toString s.stop

end Span
end Reckoner
