namespace Reckoner.Text.Utf8

-- What keeps bytes from being a text: a sequence that no character begins with, or a character that
-- the bytes end in the middle of. Both are found at an index.
inductive Flaw where
  | malformed (length index : Nat)
  | cutShort  (index : Nat)
  deriving DecidableEq

def Flaw.message : Flaw → String
  | malformed length index =>
    "invalid utf-8 sequence of " ++ toString length ++ " bytes from index " ++ toString index
  | cutShort index => "incomplete utf-8 byte sequence from index " ++ toString index

structure Pending where
  start : Nat
  value : Nat
  owed  : Nat
  low   : Nat
  high  : Nat

-- The bounds keep out what has a shorter sequence, the surrogates, and all beyond the last character.
def Pending.ofLead? (start b : Nat) : Option Pending :=
  if 0xc2 ≤ b ∧ b ≤ 0xdf then some ⟨start, b % 32, 1, 0x80, 0xbf⟩
  else if b = 0xe0 then some ⟨start, b % 16, 2, 0xa0, 0xbf⟩
  else if b = 0xed then some ⟨start, b % 16, 2, 0x80, 0x9f⟩
  else if 0xe1 ≤ b ∧ b ≤ 0xef then some ⟨start, b % 16, 2, 0x80, 0xbf⟩
  else if b = 0xf0 then some ⟨start, b % 8, 3, 0x90, 0xbf⟩
  else if 0xf1 ≤ b ∧ b ≤ 0xf3 then some ⟨start, b % 8, 3, 0x80, 0xbf⟩
  else if b = 0xf4 then some ⟨start, b % 8, 3, 0x80, 0x8f⟩
  else none

def Pending.push (p : Pending) (b : Nat) : Pending :=
  { p with value := p.value * 64 + b % 64, owed := p.owed - 1, low := 0x80, high := 0xbf }

def decodeFrom (index : Nat) : Option Pending → List UInt8 → Except Flaw (List Char)
  | none,   []      => .ok []
  | some p, []      => .error (.cutShort p.start)
  | none,   b :: bs =>
    if b.toNat < 0x80 then return .ofNat b.toNat :: (← decodeFrom (index + 1) none bs)
    else match Pending.ofLead? index b.toNat with
      | some p => decodeFrom (index + 1) (some p) bs
      | none   => .error (.malformed 1 index)
  | some p, b :: bs =>
    if b.toNat < p.low ∨ p.high < b.toNat then .error (.malformed (index - p.start) p.start)
    else if p.owed = 1 then
      return .ofNat (p.push b.toNat).value :: (← decodeFrom (index + 1) none bs)
    else decodeFrom (index + 1) (some <| p.push b.toNat) bs

def decode (bytes : List UInt8) : Except Flaw String :=
  .ofList <$> decodeFrom 0 none bytes

end Reckoner.Text.Utf8
