import Reckoner.Token

namespace Reckoner

-- What converted expressions can be kept in. To look for one counts as a use of it, and may change
-- what is kept.
class Memory (σ : Type) where
  ofCapacity : Nat → σ
  get        : σ → String → Option (List Token) × σ
  put        : σ → String → List Token → σ
  clear      : σ → σ

structure Cache where
  capacity : Nat
  entries  : List (String × List Token)

namespace Cache

def get? (c : Cache) (key : String) : Option (List Token) :=
  c.entries.lookup key

def put (c : Cache) (key : String) (ts : List Token) : Cache :=
  { c with entries := ((key, ts) :: c.entries.filter (·.1 != key)).take c.capacity }

def get (c : Cache) (key : String) : Option (List Token) × Cache :=
  match c.get? key with
  | some ts => (some ts, c.put key ts)
  | none    => (none, c)

def clear (c : Cache) : Cache :=
  { c with entries := [] }

instance : Memory Cache where
  ofCapacity n := ⟨n, []⟩
  get          := get
  put          := put
  clear        := clear

end Cache
end Reckoner
