import Reckoner.Cache
import Reckoner.Proofs.Entries

namespace Reckoner

namespace Memory

inductive Use where
  | get   (key : String)
  | put   (key : String) (ts : List Token)
  | clear

-- What was put under a key the latest, since the memory was cleared. The latest use comes first.
def latest? (key : String) : List Use → Option (List Token)
  | []                  => none
  | .get _ :: us        => latest? key us
  | .put other ts :: us => if other = key then some ts else latest? key us
  | .clear :: _         => none

section

variable {σ : Type} [Memory σ]

def use (c : σ) : Use → σ
  | .get key    => (Memory.get c key).2
  | .put key ts => Memory.put c key ts
  | .clear      => Memory.clear c

def after (n : Nat) (us : List Use) : σ :=
  us.foldr (fun u c => use c u) (ofCapacity n)

def Used (c : σ) : Prop :=
  ∃ n us, n ≠ 0 ∧ c = after n us

namespace Used

variable {c : σ}

theorem ofCapacity {n : Nat} (h : n ≠ 0) : Used (Memory.ofCapacity n : σ) :=
  ⟨n, [], h, rfl⟩

theorem use (h : Used c) (u : Use) : Used (Memory.use c u) := by
  obtain ⟨n, us, hn, rfl⟩ := h
  exact ⟨n, u :: us, hn, rfl⟩

theorem get (h : Used c) (key : String) : Used (Memory.get c key).2 :=
  h.use (.get key)

theorem put (h : Used c) (key : String) (ts : List Token) : Used (Memory.put c key ts) :=
  h.use (.put key ts)

theorem clear (h : Used c) : Used (Memory.clear c) :=
  h.use .clear

end Used
end

-- For a key, a memory gives what was put under it the latest since it was cleared, or nothing.
class Lawful (σ : Type) [Memory σ] : Prop where
  latest?_of_get {n : Nat} {us : List Use} {key : String} {ts : List Token} : n ≠ 0 →
    (Memory.get (after n us : σ) key).1 = some ts → latest? key us = some ts

-- What is put into a memory is found there. To look for something changes nothing if it is not
-- there, and nothing that can be found if it is.
class Retentive (σ : Type) [Memory σ] : Prop where
  get_put_self {c : σ} {key : String} {ts : List Token} : Used c →
    (Memory.get (Memory.put c key ts) key).1 = some ts
  get_of_none {c : σ} {key : String} : Used c → (Memory.get c key).1 = none →
    (Memory.get c key).2 = c
  get_get {c : σ} {key other : String} : Used c →
    (Memory.get (Memory.get c key).2 other).1 = (Memory.get c other).1

end Memory

namespace Cache

variable {c : Cache} {key : String} {ts : List Token} {entry : String × List Token}

theorem mem_of_get? (h : c.get? key = some ts) : (key, ts) ∈ c.entries := by
  have ⟨before, after, he, _⟩ := List.lookup_eq_some_iff.mp h
  simp [he]

theorem mem_put (h : entry ∈ (c.put key ts).entries) :
    entry = (key, ts) ∨ entry ∈ c.entries ∧ entry.1 ≠ key := by
  cases List.mem_cons.mp <| List.mem_of_mem_take h
  case inl h => exact .inl h
  case inr h => exact .inr <| by simpa using h

theorem get_fst (c : Cache) (key : String) : (c.get key).1 = c.get? key := by
  rw [get]
  split <;> simp_all

theorem get_snd_of_none (h : c.get? key = none) : (c.get key).2 = c := by
  rw [get, h]

theorem latest?_of_mem {n : Nat} {us : List Memory.Use}
    (h : entry ∈ (Memory.after n us : Cache).entries) :
    Memory.latest? entry.1 us = some entry.2 := by
  induction us generalizing entry
  case nil          => contradiction
  case cons u us hi =>
    let c : Cache := Memory.after n us
    cases u
    case get key    =>
      have h : entry ∈ (c.get key).2.entries := h
      rw [get] at h
      split at h
      case h_2         => exact hi h
      case h_1 ts hget =>
        cases mem_put h
        case inl he => exact he ▸ hi (mem_of_get? hget)
        case inr he => exact hi he.left
    case put key ts =>
      cases mem_put (c := c) h
      case inl he => exact he ▸ if_pos rfl
      case inr he => exact (if_neg he.right.symm).trans (hi he.left)
    case clear      => contradiction

instance : Memory.Lawful Cache where
  latest?_of_get _ h := latest?_of_mem <| mem_of_get? <| (get_fst _ _).symm.trans h

structure Bounded (c : Cache) : Prop where
  roomy : c.capacity ≠ 0
  held  : c.entries.length ≤ c.capacity

namespace Bounded

theorem put (h : c.Bounded) (key : String) (ts : List Token) : (c.put key ts).Bounded :=
  ⟨h.roomy, List.length_take_le _ _⟩

theorem get (h : c.Bounded) (key : String) : (c.get key).2.Bounded := by
  rw [Cache.get]
  split
  case h_1 => exact h.put _ _
  case h_2 => exact h

theorem get?_put_self (h : c.Bounded) : (c.put key ts).get? key = some ts := by
  obtain ⟨n, hn⟩ := Nat.exists_eq_succ_of_ne_zero h.roomy
  rw [get?, Cache.put, hn, List.take_succ_cons, Entries.lookup_cons, if_pos rfl]

theorem get?_put_of_get? (h : c.Bounded) (hk : c.get? key = some ts) :
    (c.put key ts).get? = c.get? := by
  have hl : (c.entries.filter (·.1 != key)).length < c.entries.length :=
    List.length_filter_lt_length_iff_exists.mpr ⟨(key, ts), mem_of_get? hk, by simp⟩
  funext other
  rw [get?, Cache.put, List.take_of_length_le (Nat.le_trans hl h.held), Entries.lookup_cons,
    Entries.lookup_filter_ne]
  by_cases ho : other = key
  case pos => rw [if_pos ho, ho, hk]
  case neg => rw [if_neg ho, if_neg ho, get?]

theorem get?_get (h : c.Bounded) (key : String) : (c.get key).2.get? = c.get? := by
  rw [Cache.get]
  split
  case h_1 hk => exact h.get?_put_of_get? hk
  case h_2    => rfl

end Bounded

theorem bounded_of_used (h : Memory.Used c) : c.Bounded := by
  obtain ⟨n, us, hn, rfl⟩ := h
  induction us
  case nil          => exact ⟨hn, Nat.zero_le _⟩
  case cons u us hi =>
    cases u
    case get key    => exact hi.get key
    case put key ts => exact hi.put key ts
    case clear      => exact ⟨hi.roomy, Nat.zero_le _⟩

instance : Memory.Retentive Cache where
  get_put_self h  := (get_fst _ _).trans (bounded_of_used h).get?_put_self
  get_of_none _ h := get_snd_of_none <| (get_fst _ _).symm.trans h
  get_get         := by
    intro c key other h
    have hc : (c.get key).2.get? other = c.get? other := by rw [(bounded_of_used h).get?_get]
    exact (get_fst _ _).trans <| hc.trans (get_fst _ _).symm

end Cache
end Reckoner
