import Reckoner.Postfix
import Reckoner.Proofs.Expression
import Reckoner.Proofs.Outcome

namespace Reckoner

namespace Kind

theorem yieldsTo_iff {k l : Kind} {p q : Nat} (hk : k.rank = some p) (hl : l.rank = some q) :
    k.yieldsTo l ↔ q < p ∨ (p = q ∧ l.associativity = .left) := by
  simp [yieldsTo, hk, hl]

theorem not_yieldsTo_of_rank_none {k : Kind} (h : k.rank = none) (l : Kind) : ¬k.yieldsTo l := by
  simp [yieldsTo, h]

theorem associativity_of_rank_three {k : Kind} (h : k.rank = some 3) :
    k.associativity = .right := by
  cases k <;> simp [rank] at h
  case binary op => cases op <;> simp_all [Binary.rank, associativity, Binary.associativity]
  case unary op  => cases op <;> simp_all [Unary.rank, associativity, Unary.associativity]

end Kind

namespace Yard

theorem step_operator {t : Token} (y : Yard)
    (h : t.kind ∈ Kind.binaries ∨ ∃ op, t.kind = .unary op) :
    y.step t = .ok ((y.release (·.kind.yieldsTo t.kind)).hold t) := by
  rcases h with h | ⟨op, h⟩
  · simp only [Kind.binaries, List.mem_cons, List.mem_map] at h
    rcases h with h | ⟨op, _, h⟩
    · simp [step, h]
    · simp [step, ← h]
  · simp [step, h]

theorem release_eq_self {leaves : Token → Bool} {y : Yard} (h : ∀ t ∈ y.waiting.head?, ¬leaves t) :
    y.release leaves = y := by
  obtain ⟨out, waiting⟩ := y
  cases waiting <;> simp_all [release]

theorem release_append {leaves : Token → Bool} {out held rest : List Token}
    (hl : ∀ t ∈ held, leaves t) (hs : ∀ t ∈ rest.head?, ¬leaves t) :
    release ⟨out, held ++ rest⟩ leaves = ⟨out ++ held, rest⟩ := by
  have hr : rest.takeWhile leaves = [] ∧ rest.dropWhile leaves = rest := by
    cases rest <;> simp_all
  simp [release, List.takeWhile_append_of_pos hl, List.dropWhile_append_of_pos hl, hr]

-- Nothing that waits is put out when an operator of a rank, or a tighter one, comes in.
def Firm (n : Nat) (waiting : List Token) : Prop :=
  ∀ t ∈ waiting.head?, ∀ k : Kind, ∀ r ∈ k.rank, n ≤ r → ¬t.kind.yieldsTo k

-- All that waits are operators of a rank, or tighter ones.
def Tight (n : Nat) (held : List Token) : Prop :=
  ∀ t ∈ held, ∃ r ∈ t.kind.rank, n ≤ r

namespace Firm

theorem nil (n : Nat) : Firm n [] := by
  simp [Firm]

theorem mono {n m : Nat} {w : List Token} (h : n ≤ m) (f : Firm n w) : Firm m w :=
  fun t ht k r hr hm => f t ht k r hr (Nat.le_trans h hm)

theorem opening {t : Token} (h : t.kind = .opening) (n : Nat) (w : List Token) :
    Firm n (t :: w) := by
  simp only [Firm, List.head?_cons, Option.mem_some_iff, forall_eq']
  exact fun k _ _ _ => Kind.not_yieldsTo_of_rank_none (by simp [h, Kind.rank]) k

theorem looser {t : Token} {n m : Nat} (h : t.kind.rank = some m) (hm : m < n) (w : List Token) :
    Firm n (t :: w) := by
  simp only [Firm, List.head?_cons, Option.mem_some_iff, forall_eq']
  intro k r hr hn
  simp only [Kind.yieldsTo_iff h hr, not_or, not_and]
  omega

theorem three {t : Token} (h : t.kind.rank = some 3) (w : List Token) : Firm 3 (t :: w) := by
  simp only [Firm, List.head?_cons, Option.mem_some_iff, forall_eq']
  intro k r hr hn
  rw [Kind.yieldsTo_iff h hr]
  rintro (hlt | ⟨he, ha⟩)
  · omega
  · rw [Kind.associativity_of_rank_three (he ▸ hr)] at ha
    contradiction

end Firm

namespace Tight

theorem nil (n : Nat) : Tight n [] := by
  simp [Tight]

theorem single {t : Token} {n r : Nat} (h : t.kind.rank = some r) (hn : n ≤ r) : Tight n [t] := by
  simp [Tight, h, hn]

theorem mono {n m : Nat} {w : List Token} (h : n ≤ m) (t : Tight m w) : Tight n w := by
  intro s hs
  have ⟨r, hr, hm⟩ := t s hs
  exact ⟨r, hr, Nat.le_trans h hm⟩

theorem append {n : Nat} {v w : List Token} (hv : Tight n v) (hw : Tight n w) :
    Tight n (v ++ w) := by
  intro s hs
  cases List.mem_append.mp hs
  case inl h => exact hv s h
  case inr h => exact hw s h

theorem not_opens {n : Nat} {w : List Token} (h : Tight n w) : ∀ t ∈ w, !opens t := by
  intro t ht
  have ⟨r, hr, _⟩ := h t ht
  cases hk : t.kind <;> simp_all [opens, Kind.rank]

end Tight

-- The tokens of a part of an expression are converted wherever what waits stays during the whole
-- part. Of what they are converted to, the last tokens may still wait, and are as tight as the
-- part.
def Settles (n : Nat) (ts post : List Token) : Prop :=
  ∃ out held, post = out ++ held ∧ Tight n held ∧ ∀ y : Yard, Firm n y.waiting →
    ts.foldlM step y = .ok ⟨y.out ++ out, held ++ y.waiting⟩

namespace Settles

variable {n m p r : Nat} {xs ys px py : List Token} {t : Token}

theorem mono (h : n ≤ m) : Settles m xs px → Settles n xs px
  | ⟨out, held, hp, tight, fold⟩ =>
    ⟨out, held, hp, tight.mono h, fun y f => fold y (f.mono h)⟩

theorem operand (h : t.kind ∈ Kind.operands) : Settles n [t] [t] := by
  refine ⟨[t], [], rfl, .nil n, fun y _ => ?_⟩
  simp only [Kind.operands, Kind.constants, List.mem_cons, List.mem_map] at h
  rcases h with h | ⟨c, _, h⟩
  · simp [step, h]
  · simp [step, ← h]

-- An operator between two parts. What the first part leaves waiting is put out by the operator, and
-- the operator waits during the second part.
theorem between (hx : Settles m xs px) (hy : Settles p ys py) (ht : t.kind ∈ Kind.binaries)
    (hr : t.kind.rank = some r) (hn : n ≤ r) (hm : n ≤ m) (hp : n ≤ p)
    (leaves : ∀ k : Kind, ∀ q ∈ k.rank, m ≤ q → k.yieldsTo t.kind)
    (stays : ∀ w, Firm p (t :: w)) : Settles n (xs ++ t :: ys) (px ++ py ++ [t]) := by
  obtain ⟨ox, hx, rfl, tx, fx⟩ := hx
  obtain ⟨oy, hy, rfl, ty, fy⟩ := hy
  refine ⟨ox ++ hx ++ oy, hy ++ [t], by simp, (ty.mono hp).append (.single hr hn), fun y f => ?_⟩
  have out : ∀ s ∈ hx, s.kind.yieldsTo t.kind := by
    intro s hs
    have ⟨q, hq, hle⟩ := tx s hs
    exact leaves _ q hq hle
  have rest : ∀ s ∈ y.waiting.head?, ¬s.kind.yieldsTo t.kind :=
    fun s hs => f s hs t.kind r hr hn
  rw [List.foldlM_append, fx y (f.mono hm), Except.ok_bind, List.foldlM_cons,
    step_operator _ (.inl ht), Except.ok_bind, release_append out rest, fy _ (stays _)]
  simp [hold]

theorem front (hx : Settles m xs px) (ht : ∃ op, t.kind = .unary op) (hr : t.kind.rank = some r)
    (hn : n ≤ r) (hm : n ≤ m) (stays : ∀ w, Firm m (t :: w)) :
    Settles n (t :: xs) (px ++ [t]) := by
  obtain ⟨ox, hx, rfl, tx, fx⟩ := hx
  refine ⟨ox, hx ++ [t], by simp, (tx.mono hm).append (.single hr hn), fun y f => ?_⟩
  have rest : ∀ s ∈ y.waiting.head?, ¬s.kind.yieldsTo t.kind :=
    fun s hs => f s hs t.kind r hr hn
  rw [List.foldlM_cons, step_operator _ (.inr ht), Except.ok_bind, release_eq_self rest,
    fx _ (stays _)]
  simp [hold]

theorem behind (hx : Settles m xs px) (ht : ∃ op, t.kind = .unary op) (hr : t.kind.rank = some r)
    (hn : n ≤ r) (hm : n ≤ m)
    (leaves : ∀ k : Kind, ∀ q ∈ k.rank, m ≤ q → k.yieldsTo t.kind) :
    Settles n (xs ++ [t]) (px ++ [t]) := by
  obtain ⟨ox, hx, rfl, tx, fx⟩ := hx
  refine ⟨ox ++ hx, [t], by simp, .single hr hn, fun y f => ?_⟩
  have out : ∀ s ∈ hx, s.kind.yieldsTo t.kind := by
    intro s hs
    have ⟨q, hq, hle⟩ := tx s hs
    exact leaves _ q hq hle
  have rest : ∀ s ∈ y.waiting.head?, ¬s.kind.yieldsTo t.kind :=
    fun s hs => f s hs t.kind r hr hn
  rw [List.foldlM_append, fx y (f.mono hm), Except.ok_bind, List.foldlM_cons,
    step_operator _ (.inr ht), Except.ok_bind, release_append out rest]
  simp [hold]

theorem fold_bracketed {o c : Token} (hx : Settles n xs px) (ho : o.kind = .opening)
    (hc : c.kind = .closing) (y : Yard) :
    (o :: (xs ++ [c])).foldlM step y = .ok ⟨y.out ++ px, y.waiting⟩ := by
  obtain ⟨out, held, rfl, tight, fold⟩ := hx
  have enter : y.step o = .ok (y.hold o) := by simp [step, ho]
  have stop : ∀ t ∈ (y.hold o).waiting.head?, ¬(!opens t) := by simp [hold, opens, ho]
  have leave : step ⟨y.out ++ out, held ++ (y.hold o).waiting⟩ c =
      .ok ⟨y.out ++ out ++ held, y.waiting⟩ := by
    simp only [step, hc, release_append tight.not_opens stop]
    rfl
  rw [List.foldlM_cons, enter, Except.ok_bind, List.foldlM_append,
    fold (y.hold o) (.opening ho n _), Except.ok_bind, List.foldlM_cons]
  simp only [hold] at leave
  simp [hold, leave]

theorem bracketed {o c : Token} (hx : Settles n xs px) (ho : o.kind = .opening)
    (hc : c.kind = .closing) : Settles m (o :: (xs ++ [c])) px :=
  ⟨px, [], by simp, .nil m, fun y _ => hx.fold_bracketed ho hc y⟩

theorem call {f o c : Token} (hx : Settles n xs px) (hf : f.kind ∈ Kind.functions)
    (ho : o.kind = .opening) (hc : c.kind = .closing) (hm : m ≤ 5) :
    Settles m (f :: o :: (xs ++ [c])) (px ++ [f]) := by
  obtain ⟨g, _, hg⟩ := List.mem_map.mp hf
  refine ⟨px, [f], rfl, .single (by simp [← hg, Kind.rank]) hm, fun y _ => ?_⟩
  have enter : y.step f = .ok (y.hold f) := by simp [step, ← hg]
  rw [List.foldlM_cons, enter, Except.ok_bind, hx.fold_bracketed ho hc]
  simp [hold]

end Settles
end Yard

def Layer.rank : Layer → Nat
  | sum       => 1
  | product   => 2
  | power     => 3
  | factorial => 4
  | atom      => 5

open Yard (Settles)

theorem Kind.yieldsTo_of_left {k l : Kind} {p q : Nat} (hk : k.rank = some p) (hl : l.rank = some q)
    (h : q ≤ p) (ha : l.associativity = .left) : k.yieldsTo l := by
  rw [Kind.yieldsTo_iff hk hl]
  rcases Nat.lt_or_eq_of_le h with h | h
  · exact .inl h
  · exact .inr ⟨h.symm, ha⟩

mutual

theorem Expr.settles {l : Layer} : (e : Expr l) → Settles l.rank e.tokens e.postorder
  | .operand t       => .operand t.2
  | .bracketed o e c => e.settles.bracketed (by simpa using o.2) (by simpa using c.2)
  | .call f o as c   =>
    as.settles.call f.2 (by simpa using o.2) (by simpa using c.2) (Nat.le_refl 5)
  | .atom e          => e.settles.mono (by decide)
  | .factorial e t   => by
    have ht : t.1.kind = .unary .factorial := by simpa using t.2
    have hr : t.1.kind.rank = some 4 := by simp [ht, Kind.rank, Unary.rank]
    exact e.settles.behind ⟨_, ht⟩ hr (Nat.le_refl 4) (Nat.le_refl 4) fun k q hk hq =>
      Kind.yieldsTo_of_left hk hr hq (by simp [ht, Kind.associativity, Unary.associativity])
  | .base e          => e.settles.mono (by decide)
  | .power x t y     => by
    have ht : t.1.kind = .binary .power := by simpa using t.2
    have hr : t.1.kind.rank = some 3 := by simp [ht, Kind.rank, Binary.rank]
    refine x.settles.between y.settles (by simp [ht, Kind.binaries, Binary.all]) hr (Nat.le_refl 3)
      (by decide) (Nat.le_refl 3) (fun k q hk hq => ?_) (.three hr)
    exact (Kind.yieldsTo_iff hk hr).mpr (.inl hq)
  | .negation t e    => by
    have ht : t.1.kind = .unary .negate := by simpa using t.2
    have hr : t.1.kind.rank = some 3 := by simp [ht, Kind.rank, Unary.rank]
    exact e.settles.front ⟨_, ht⟩ hr (Nat.le_refl 3) (Nat.le_refl 3) (.three hr)
  | .factor e        => e.settles.mono (by decide)
  | .product x t y   => by
    obtain ⟨t, ht⟩ := t
    have hb : t.kind ∈ Kind.binaries ∧ t.kind.rank = some 2 ∧ t.kind.associativity = .left := by
      simp only [Kind.multiplicative, List.mem_cons, List.not_mem_nil, or_false] at ht
      rcases ht with h | h | h <;> rw [h] <;> decide
    exact x.settles.between y.settles hb.1 hb.2.1 (Nat.le_refl 2) (Nat.le_refl 2) (by decide)
      (fun k q hk hq => Kind.yieldsTo_of_left hk hb.2.1 hq hb.2.2) (.looser hb.2.1 (by decide))
  | .term e          => e.settles.mono (by decide)
  | .sum x t y       => by
    obtain ⟨t, ht⟩ := t
    have hb : t.kind ∈ Kind.binaries ∧ t.kind.rank = some 1 ∧ t.kind.associativity = .left := by
      simp only [Kind.additive, List.mem_cons, List.not_mem_nil, or_false] at ht
      rcases ht with h | h <;> rw [h] <;> decide
    exact x.settles.between y.settles hb.1 hb.2.1 (Nat.le_refl 1) (Nat.le_refl 1) (by decide)
      (fun k q hk hq => Kind.yieldsTo_of_left hk hb.2.1 hq hb.2.2) (.looser hb.2.1 (by decide))

theorem Args.settles : (as : Args) → Settles 0 as.tokens as.postorder
  | .one e       => e.settles.mono (by decide)
  | .more as s e => by
    have hs : s.1.kind = .separator := by simpa using s.2
    have hr : s.1.kind.rank = some 0 := by simp [hs, Kind.rank]
    refine as.settles.between e.settles (by simp [hs, Kind.binaries]) hr (Nat.le_refl 0)
      (Nat.le_refl 0) (by decide) (fun k q hk hq => ?_) (.looser hr (by decide))
    exact Kind.yieldsTo_of_left hk hr hq (by simp [hs, Kind.associativity])

end

theorem Expr.ofTokens_tokens {l : Layer} (e : Expr l) :
    Postfix.ofTokens e.tokens = .ok e.postorder := by
  obtain ⟨out, held, hp, tight, fold⟩ := e.settles
  have kept : held.filter (!Yard.opens ·) = held := List.filter_eq_self.mpr tight.not_opens
  rw [Postfix.ofTokens, fold .empty (.nil _), hp]
  simp [Yard.finish, Yard.empty, kept]

end Reckoner
