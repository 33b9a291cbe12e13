import Reckoner.Decimal.Basic

namespace Reckoner.Decimal

def ofDigits (ds : List Char) : Nat :=
  ds.foldl (fun n d => 10 * n + (d.toNat - '0'.toNat)) 0

def fraction? : List Char → Option (List Char × List Char)
  | '.' :: s => match s.span Char.isDigit with
    | ([], _) => none
    | (ds, r) => some (ds, r)
  | s        => some ([], s)

def exponent? : List Char → Option Int
  | []            => some 0
  | e :: '+' :: s => (magnitude? e s).map fun (n : Nat) => n
  | e :: '-' :: s => (magnitude? e s).map fun (n : Nat) => -n
  | _             => none
where
  magnitude? e s :=
    if (e = 'e' ∨ e = 'E') ∧ s ≠ [] ∧ s.all Char.isDigit then some (ofDigits s) else none

def ofNumeral? (s : List Char) : Option Decimal :=
  match s.span Char.isDigit with
  | ([], _)    => none
  | (whole, r) => do
    let (places, r) ← fraction? r
    let e ← exponent? r
    return ⟨ofDigits (whole ++ places), e - places.length⟩

end Reckoner.Decimal
