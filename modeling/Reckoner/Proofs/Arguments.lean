import Mathlib.Data.List.Basic
import Reckoner.Proofs.Computation
import Reckoner.Proofs.Derivation
import Reckoner.Proofs.Numerals

namespace Reckoner

-- A computation that ends in a value, or in the fault that there is no finite one.
def Finishes {α : Type} (x : Except Fault α) : Prop :=
  (∃ v, x = .ok v) ∨ ∃ k xs, x = .error (.noFiniteResult k xs)

section

variable {α β : Type} {x : Except Fault α} {f : α → Except Fault β} {t : Token} {k : Kind}
  {o : Options} {xs : List Float} {ks : List Kind}

theorem Finishes.bind (hx : Finishes x) (hf : ∀ v, x = .ok v → Finishes (f v)) :
    Finishes (x >>= f) := by
  rcases hx with ⟨v, rfl⟩ | ⟨k, xs, rfl⟩
  · exact hf v rfl
  · exact .inr ⟨k, xs, rfl⟩

theorem Token.value?_isSome (h : t.kind ∈ Kind.operands) : t.value?.isSome := by
  rw [value?]
  cases List.mem_cons.mp h
  case inl h =>
    have hw := t.spelled
    rw [h] at hw ⊢
    simpa using Decimal.ofNumeral?_isSome <| (Pattern.accepts_iff (by decide)).mp hw
  case inr h =>
    obtain ⟨c, _, hc⟩ := List.mem_map.mp h
    simp [← hc]

theorem Arity.eq_of_allows {n m : Nat} (h : (exactly n).allows m) : m = n := by
  have ⟨hl, hm⟩ := (Bool.and_eq_true _ _).mp h
  exact Nat.le_antisymm (of_decide_eq_true hm) (of_decide_eq_true hl)

theorem Kind.compute?_isSome {a : Arity} (hs : k ≠ .separator) (ha : k.arity = some a)
    (h : a.allows xs.length) : (k.compute? o xs).isSome := by
  cases k <;> simp only [arity, reduceCtorEq, Option.some.injEq, ne_eq, not_true] at ha hs <;>
    subst ha
  case binary op  =>
    obtain ⟨x, y, hx⟩ := List.length_eq_two.mp (Arity.eq_of_allows h)
    subst hx
    rfl
  case unary op   =>
    obtain ⟨x, hx⟩ := List.length_eq_one_iff.mp (Arity.eq_of_allows h)
    subst hx
    rfl
  case function f => rfl

theorem Kind.apply_finishes (hs : k ≠ .separator) (h : k.arity.any (·.allows xs.length)) :
    Finishes (k.apply o xs) := by
  have ⟨a, ha, hl⟩ := (Option.any_eq_true _ _).mp h
  have ⟨x, hx⟩ := Option.isSome_iff_exists.mp (compute?_isSome (o := o) hs ha hl)
  have hv : k.apply o xs = if !x.isFinite && xs.all Float.isFinite
      then .error (.noFiniteResult k xs) else .ok x := by
    simp [apply, ha, hl, hx]
  rw [hv]
  split
  · exact .inr ⟨k, xs, rfl⟩
  · exact .inl ⟨x, rfl⟩

theorem Token.Of.apply_finishes (t : Token.Of ks) (n : Nat) (hn : xs.length = n)
    (h : ∀ k ∈ ks, k ≠ .separator ∧ k.arity.any (·.allows n)) :
    Finishes (t.1.kind.apply o xs) :=
  have ⟨hs, ha⟩ := h t.1.kind t.2
  Kind.apply_finishes hs (hn ▸ ha)

end

theorem Args.length_values {o : Options} {vs : List Float} : (as : Args) → as.values o = .ok vs →
    vs.length = as.count
  | .one e, h       => by
    obtain ⟨x, _, rfl⟩ := Except.map_eq_ok.mp (by simpa [values] using h)
    rfl
  | .more as s e, h => by
    simp only [values, Except.bind_eq_ok] at h
    obtain ⟨xs, hx, y, _, h⟩ := h
    cases h
    rw [List.length_append, as.length_values hx]
    rfl

mutual

-- An expression in which functions have as many arguments as they take has nothing else wrong.
theorem Expr.value_finishes {l : Layer} (o : Options) : (e : Expr l) → e.Fits → Finishes (e.value o)
  | .operand t, _        => by
    have ⟨x, hx⟩ := Option.isSome_iff_exists.mp (Token.value?_isSome t.2)
    exact .inl ⟨x, by rw [Expr.value, hx]; rfl⟩
  | .bracketed _ e _, h  => e.value_finishes o h
  | .call f _ as _, h    =>
    (as.values_finishes o h.2).bind fun vs hv => by
      have hs := (by decide : ∀ k ∈ Kind.functions, k ≠ .separator) f.1.kind f.2
      exact Kind.apply_finishes hs (as.length_values hv ▸ h.1)
  | .atom e, h           => e.value_finishes o h
  | .factorial e t, h    =>
    (e.value_finishes o h).bind fun _ _ => t.apply_finishes 1 rfl (by decide)
  | .base e, h           => e.value_finishes o h
  | .power x t y, h      =>
    (x.value_finishes o h.1).bind fun _ _ => (y.value_finishes o h.2).bind fun _ _ =>
      t.apply_finishes 2 rfl (by decide)
  | .negation t e, h     =>
    (e.value_finishes o h).bind fun _ _ => t.apply_finishes 1 rfl (by decide)
  | .factor e, h         => e.value_finishes o h
  | .product x t y, h    =>
    (x.value_finishes o h.1).bind fun _ _ => (y.value_finishes o h.2).bind fun _ _ =>
      t.apply_finishes 2 rfl (by decide)
  | .term e, h           => e.value_finishes o h
  | .sum x t y, h        =>
    (x.value_finishes o h.1).bind fun _ _ => (y.value_finishes o h.2).bind fun _ _ =>
      t.apply_finishes 2 rfl (by decide)

theorem Args.values_finishes (o : Options) : (as : Args) → as.Fit → Finishes (as.values o)
  | .one e, h       => (e.value_finishes o h).bind fun x _ => .inl ⟨[x], rfl⟩
  | .more as _ e, h =>
    (as.values_finishes o h.1).bind fun xs _ => (e.value_finishes o h.2).bind fun x _ =>
      .inl ⟨xs ++ [x], rfl⟩

end

-- The check of separators lets an expression through if all functions have as many arguments as they
-- take, and then its computation ends in a number or without a finite result.
theorem Separators.check_tokens_and_execute (e : Expr .sum) :
    (check e.tokens = .ok () ↔ e.Fits) ∧
    (check e.tokens = .ok () → ∀ o, ∃ out, Postfix.ofTokens e.tokens = .ok out ∧
      ((∃ x, execute o out = .ok x) ∨ ∃ k xs, execute o out = .error (.noFiniteResult k xs))) := by
  refine ⟨check_tokens e, fun h o => ⟨e.postorder, e.ofTokens_tokens, ?_⟩⟩
  rw [execute, e.run_postorder]
  cases e.value_finishes o ((check_tokens e).mp h)
  case inl hv =>
    obtain ⟨x, hx⟩ := hv
    exact .inl ⟨x, by rw [hx]; rfl⟩
  case inr hv =>
    obtain ⟨k, xs, hx⟩ := hv
    exact .inr ⟨k, xs, by rw [hx]; rfl⟩

theorem Separators.check_tokens_and_execute_call :
    let f : Token.Of Kind.functions := ⟨⟨.function .max, "max", ⟨0, 3⟩, by decide⟩, by decide⟩
    let o : Token.Of [.opening]     := ⟨⟨.opening, "[", ⟨3, 4⟩, by decide⟩, by decide⟩
    let n : Token.Of Kind.operands  := ⟨⟨.number, "1", ⟨4, 5⟩, by decide⟩, by decide⟩
    let s : Token.Of [.separator]   := ⟨⟨.separator, ",", ⟨5, 6⟩, by decide⟩, by decide⟩
    let b : Token.Of [.opening]     := ⟨⟨.opening, "(", ⟨6, 7⟩, by decide⟩, by decide⟩
    let m : Token.Of Kind.operands  := ⟨⟨.constant .pi, "pi", ⟨7, 9⟩, by decide⟩, by decide⟩
    let c : Token.Of [.closing]     := ⟨⟨.closing, ")", ⟨9, 10⟩, by decide⟩, by decide⟩
    let s' : Token.Of [.separator]  := ⟨⟨.separator, ",", ⟨10, 11⟩, by decide⟩, by decide⟩
    let k : Token.Of Kind.operands  := ⟨⟨.number, "2e+3", ⟨11, 15⟩, by decide⟩, by decide⟩
    let d : Token.Of [.closing]     := ⟨⟨.closing, "]", ⟨15, 16⟩, by decide⟩, by decide⟩
    let ts : List Token := [f, o, n, s, b, m, c, s', k, d]
    check ts = .ok () ∧ ∀ o, ∃ out, Postfix.ofTokens ts = .ok out ∧
      ((∃ x, execute o out = .ok x) ∨ ∃ k xs, execute o out = .error (.noFiniteResult k xs)) := by
  intro f o n s b m c s' k d ts
  let atom (e : Expr .atom) : Expr .sum := .term <| .factor <| .base <| .atom e
  let e : Expr .sum := atom <| .call f o
    (.more (.more (.one <| atom <| .operand n) s <| atom <| .bracketed b (atom <| .operand m) c) s' <|
      atom <| .operand k) d
  have h : check e.tokens = .ok () := rfl
  exact ⟨h, (check_tokens_and_execute e).right h⟩

end Reckoner
