import Reckoner.Execution
import Reckoner.Proofs.Conversion

namespace Reckoner

def Operand.ofValues : List Float → Operand
  | [x] => .number x
  | xs  => .list xs

namespace Operand

@[simp]
theorem pack_ofValues (xs : List Float) : (ofValues xs).pack = xs := by
  cases xs
  case nil       => rfl
  case cons _ xs => cases xs <;> rfl

theorem join_ofValues {xs : List Float} (h : xs ≠ []) (y : Float) :
    (ofValues xs).join (.number y) = ofValues (xs ++ [y]) := by
  have hl : xs ++ [y] = xs.head h :: (xs.tail ++ [y]) := by
    rw [← List.cons_append, List.cons_head_tail]
  rw [join, pack_ofValues, hl]
  cases ht : xs.tail ++ [y]
  case nil  => simp at ht
  case cons => simp [pack, ht, hl, ofValues]

end Operand

theorem Token.value?_of_numeral {t : Token} {d : Decimal} (hk : t.kind = .number)
    (hd : Decimal.ofNumeral? t.text.toList = some d) : t.value? = some d.toFloat := by
  simp only [value?, hk, hd, Option.map_eq_map, Option.map_some]

namespace Execution

variable {o : Options} {t : Token} {stack : List Operand}

theorem pair_eq_ok {x y : Operand} {rest : List Operand} (h : pair t stack = .ok (x, y, rest)) :
    stack = y :: x :: rest := by
  cases stack
  case nil          => contradiction
  case cons z stack =>
    cases stack
    case nil  => contradiction
    case cons => cases h; rfl

theorem step_operand (h : t.kind ∈ Kind.operands) :
    step o stack t = (.number · :: stack) <$> t.value?.elim (.error t.unrecognized) .ok := by
  simp only [Kind.operands, Kind.constants, List.mem_cons, List.mem_map] at h
  rcases h with h | ⟨c, _, h⟩
  · cases hv : t.value? <;> simp [step, h, hv]
  · cases hv : t.value? <;> simp [step, ← h, hv]

theorem step_numeral {d : Decimal} (hk : t.kind = .number)
    (hd : Decimal.ofNumeral? t.text.toList = some d) :
    step o stack t = .ok (.number d.toFloat :: stack) := by
  rw [step_operand (hk ▸ List.mem_cons_self), Token.value?_of_numeral hk hd]
  rfl

theorem step_binary {op : Binary} (h : t.kind = .binary op) (x y : Float) :
    step o (.number y :: .number x :: stack) t =
      (.number · :: stack) <$> t.kind.apply o [x, y] := by
  cases hv : t.kind.apply o [x, y] <;> simp_all [step, pair, Operand.pack]

theorem step_unary {op : Unary} (h : t.kind = .unary op) (x : Float) :
    step o (.number x :: stack) t = (.number · :: stack) <$> t.kind.apply o [x] := by
  cases hv : t.kind.apply o [x] <;> simp_all [step, Operand.pack]

theorem step_function (h : t.kind ∈ Kind.functions) (x : Operand) :
    step o (x :: stack) t = (.number · :: stack) <$> t.kind.apply o x.pack := by
  obtain ⟨f, _, h⟩ := List.mem_map.mp h
  cases hv : t.kind.apply o x.pack <;> simp [step, ← h] <;> simp [h, hv]

theorem step_separator (h : t.kind = .separator) (x y : Operand) :
    step o (y :: x :: stack) t = .ok (x.join y :: stack) := by
  simp [step, h, pair]

-- Tokens that leave one operand more on the stack: the one that a computation comes to, if it comes
-- to one.
def Leaves (o : Options) (ts : List Token) (x : Except Fault Operand) : Prop :=
  ∀ stack, ts.foldlM (step o) stack = (· :: stack) <$> x

namespace Leaves

variable {ps qs : List Token} {x y : Except Fault Float}

theorem operand (h : t.kind ∈ Kind.operands) :
    Leaves o [t] (.number <$> t.value?.elim (.error t.unrecognized) .ok) := by
  intro stack
  rw [List.foldlM_cons, step_operand h]
  cases t.value? <;> simp

theorem binary {op : Binary} (hx : Leaves o ps (.number <$> x)) (hy : Leaves o qs (.number <$> y))
    (h : t.kind = .binary op) :
    Leaves o (ps ++ qs ++ [t]) (.number <$> do t.kind.apply o [← x, ← y]) := by
  intro stack
  rw [List.foldlM_append, List.foldlM_append, hx]
  cases x
  case error f => simp
  case ok x    =>
    rw [Except.map_ok, Except.map_ok, Except.ok_bind, hy]
    cases y
    case error f => simp
    case ok y    => simp [step_binary h]

theorem unary {op : Unary} (hx : Leaves o ps (.number <$> x)) (h : t.kind = .unary op) :
    Leaves o (ps ++ [t]) (.number <$> do t.kind.apply o [← x]) := by
  intro stack
  rw [List.foldlM_append, hx]
  cases x
  case error f => simp
  case ok x    => simp [step_unary h]

theorem call {xs : Except Fault (List Float)} (hx : Leaves o ps (.ofValues <$> xs))
    (h : t.kind ∈ Kind.functions) :
    Leaves o (ps ++ [t]) (.number <$> do t.kind.apply o (← xs)) := by
  intro stack
  rw [List.foldlM_append, hx]
  cases xs
  case error f => simp
  case ok xs   => simp [step_function h]

theorem more {xs : Except Fault (List Float)} (hx : Leaves o ps (.ofValues <$> xs))
    (hn : ∀ vs, xs = .ok vs → vs ≠ []) (hy : Leaves o qs (.number <$> y))
    (h : t.kind = .separator) :
    Leaves o (ps ++ qs ++ [t]) (.ofValues <$> do return (← xs) ++ [← y]) := by
  intro stack
  rw [List.foldlM_append, List.foldlM_append, hx]
  cases xs
  case error f => simp
  case ok xs   =>
    rw [Except.map_ok, Except.map_ok, Except.ok_bind, hy]
    cases y
    case error f => simp
    case ok y    => simp [step_separator h, Operand.join_ofValues (hn xs rfl)]

end Leaves
end Execution

theorem Args.values_ne_nil {o : Options} {vs : List Float} :
    (as : Args) → as.values o = .ok vs → vs ≠ []
  | .one e, h => by
    obtain ⟨x, _, rfl⟩ := Except.map_eq_ok.mp (by simpa [values] using h)
    simp
  | .more as s e, h => by
    simp only [values, Except.bind_eq_ok] at h
    obtain ⟨xs, _, y, _, h⟩ := h
    cases h
    simp

open Execution (Leaves)

mutual

theorem Expr.leaves {l : Layer} (o : Options) :
    (e : Expr l) → Leaves o e.postorder (.number <$> e.value o)
  | .operand t       => .operand t.2
  | .bracketed _ e _ => e.leaves o
  | .call f _ as _   => (as.leaves o).call f.2
  | .atom e          => e.leaves o
  | .factorial e t   => (e.leaves o).unary (by simpa using t.2)
  | .base e          => e.leaves o
  | .power x t y     => (x.leaves o).binary (y.leaves o) (by simpa using t.2)
  | .negation t e    => (e.leaves o).unary (by simpa using t.2)
  | .factor e        => e.leaves o
  | .product x t y   => by
    have ⟨op, h⟩ : ∃ op, t.1.kind = .binary op := by
      have h := t.2
      simp only [Kind.multiplicative, List.mem_cons, List.not_mem_nil, or_false] at h
      rcases h with h | h | h <;> exact ⟨_, h⟩
    exact (x.leaves o).binary (y.leaves o) h
  | .term e          => e.leaves o
  | .sum x t y       => by
    have ⟨op, h⟩ : ∃ op, t.1.kind = .binary op := by
      have h := t.2
      simp only [Kind.additive, List.mem_cons, List.not_mem_nil, or_false] at h
      rcases h with h | h <;> exact ⟨_, h⟩
    exact (x.leaves o).binary (y.leaves o) h

theorem Args.leaves (o : Options) :
    (as : Args) → Leaves o as.postorder (.ofValues <$> as.values o)
  | .one e       => by
    have h := e.leaves o
    rw [Args.values, Args.postorder]
    cases hv : e.value o <;> simpa [hv, Operand.ofValues] using h
  | .more as s e => (as.leaves o).more (fun _ => as.values_ne_nil) (e.leaves o) (by simpa using s.2)

end

theorem Expr.run_postorder {l : Layer} (e : Expr l) (o : Options) :
    Execution.run o e.postorder = ([.number ·]) <$> e.value o := by
  rw [Execution.run, e.leaves o]
  cases e.value o <;> rfl

-- The tokens of an expression are converted to its postorder, which computes what the expression
-- comes to, or ends in the first fault on the way.
theorem Expr.ofTokens_and_execute (e : Expr .sum) (o : Options) :
    Postfix.ofTokens e.tokens = .ok e.postorder ∧ execute o e.postorder = e.value o := by
  refine ⟨e.ofTokens_tokens, ?_⟩
  rw [execute, e.run_postorder]
  cases e.value o <;> rfl

end Reckoner
