import Reckoner.Proofs.Arguments

namespace Reckoner

def Overflowed {α : Type} (x : Except Fault α) : Prop :=
  ∃ k xs, x = .error (.noFiniteResult k xs)

namespace Overflowed

variable {α β : Type} {x : Except Fault α}

theorem bind {f : α → Except Fault β} :
    Overflowed (x >>= f) ↔ Overflowed x ∨ ∃ a, x = .ok a ∧ Overflowed (f a) := by
  cases x <;> simp [Overflowed]

theorem map {f : α → β} : Overflowed (f <$> x) ↔ Overflowed x := by
  cases x <;> simp [Overflowed]

end Overflowed

namespace Kind

def computes : Kind → Bool
  | binary _ | unary _ | function _ => true
  | _                               => false

section

variable (compute : Kind → List Float → Option Float)

def applyRaw (k : Kind) (xs : List Float) : Except Fault Float := do
  let some arity := k.arity | throw <| .unrecognized k.label .nowhere
  unless arity.allows xs.length do throw <| .operandCount k arity xs.length
  let some x := compute k xs | throw <| .unrecognized k.label .nowhere
  return x

def checkFinite (k : Kind) (xs : List Float) (x : Float) : Except Fault Float :=
  if !x.isFinite && xs.all Float.isFinite then .error <| .noFiniteResult k xs else .ok x

def applyChecked (k : Kind) (xs : List Float) : Except Fault Float :=
  k.applyRaw compute xs >>= k.checkFinite xs

end

theorem apply_eq (k : Kind) (o : Options) (xs : List Float) :
    k.apply o xs = k.applyChecked (compute? o) xs := by
  rw [apply, applyChecked, applyRaw]
  cases k.arity
  case none   => rfl
  case some a =>
    cases ha : a.allows xs.length
    case false => simp [ha]
    case true  => cases hx : k.compute? o xs <;> simp [ha, checkFinite]

variable {compute : Kind → List Float → Option Float} {k : Kind} {xs : List Float}

theorem not_overflowed_applyRaw : ¬Overflowed (k.applyRaw compute xs) := by
  rw [applyRaw]
  cases k.arity
  case none   => simp [Overflowed]
  case some a =>
    cases ha : a.allows xs.length <;> cases compute k xs <;> simp [ha, Overflowed]

theorem applyRaw_eq_ok {x : Float} (h : k.applyRaw compute xs = .ok x) : compute k xs = some x := by
  rw [applyRaw] at h
  cases ha : k.arity
  case none   => simp [ha] at h
  case some a =>
    cases hl : a.allows xs.length <;> cases hx : compute k xs <;> simp_all

theorem applyChecked_eq_noFiniteResult {l : Kind} {ys : List Float}
    (h : k.applyChecked compute xs = .error (.noFiniteResult l ys)) :
    k = l ∧ xs = ys ∧ (∀ y ∈ xs, y.isFinite) ∧ ∃ x, compute k xs = some x ∧ ¬x.isFinite := by
  rcases Except.bind_eq_error.mp h with hr | ⟨x, hx, hc⟩
  case inl => exact absurd ⟨l, ys, hr⟩ not_overflowed_applyRaw
  case inr =>
    rw [checkFinite] at hc
    split at hc
    case isTrue hf =>
      rw [Bool.and_eq_true, Bool.not_eq_true', List.all_eq_true] at hf
      cases hc
      exact ⟨rfl, rfl, hf.right, x, applyRaw_eq_ok hx, by simp [hf.left]⟩
    case isFalse => contradiction

end Kind

namespace Execution

def taken (t : Token) (stack : List Operand) : Except Fault (List Float × List Operand) :=
  match t.kind with
  | .binary _ => do
    let (x, y, rest) ← pair t stack
    return (x.pack ++ y.pack, rest)
  | _ => .ok (stack.head?.elim [] Operand.pack, stack.tail)

def stepBy (apply : Kind → List Float → Except Fault Float) (stack : List Operand) (t : Token) :
    Except Fault (List Operand) :=
  if t.kind.isOperand then (.number · :: stack) <$> t.value?.elim (.error t.unrecognized) .ok
  else if t.kind = .separator then do
    let (x, y, rest) ← pair t stack
    return x.join y :: rest
  else if t.kind.computes then do
    let (xs, rest) ← taken t stack
    return .number (← apply t.kind xs) :: rest
  else .error t.unrecognized

theorem step_eq (o : Options) : step o = stepBy (·.apply o) := by
  funext stack t
  rw [step, stepBy, taken]
  cases hk : t.kind
  case number | constant => cases t.value? <;> simp [Kind.isOperand]
  case separator         => rfl
  case binary op         => cases pair t stack <;> simp [Kind.isOperand, Kind.computes]
  case unary | function  => simp [Kind.isOperand, Kind.computes]
  all_goals simp [Kind.isOperand, Kind.computes]

theorem step_eq_checked (o : Options) : step o = stepBy (Kind.applyChecked (Kind.compute? o)) :=
  (step_eq o).trans <| congrArg stepBy <| funext₂ fun k xs => k.apply_eq o xs

variable {apply : Kind → List Float → Except Fault Float} {t : Token} {ts : List Token}
  {stack stack' rest : List Operand} {xs : List Float}

theorem stepBy_operand (h : t.kind.isOperand) :
    ∃ x ∈ t.value?, ∀ apply stack, stepBy apply stack t = .ok (.number x :: stack) := by
  have hk := (by decide : ∀ k : Kind, k.isOperand → k ∈ Kind.operands) t.kind h
  have ⟨x, hx⟩ := Option.isSome_iff_exists.mp (Token.value?_isSome hk)
  exact ⟨x, hx, fun apply stack => by rw [stepBy, if_pos h, hx]; rfl⟩

theorem stepBy_separator (h : t.kind = .separator) :
    stepBy apply stack t = (fun (x, y, rest) => x.join y :: rest) <$> pair t stack := by
  rw [stepBy, if_neg (by simp [h, Kind.isOperand]), if_pos h]
  cases pair t stack <;> rfl

theorem stepBy_computes (h : t.kind.computes) : stepBy apply stack t =
    taken t stack >>= fun (xs, rest) => (.number · :: rest) <$> apply t.kind xs := by
  have ⟨ho, hs⟩ := (by decide : ∀ k : Kind, k.computes → ¬k.isOperand ∧ k ≠ .separator) t.kind h
  rw [stepBy, if_neg ho, if_neg hs, if_pos h]
  cases taken t stack
  case error f => rfl
  case ok p    => cases apply t.kind p.1 <;> rfl

theorem stepBy_other (ho : ¬t.kind.isOperand) (hs : t.kind ≠ .separator) (hc : ¬t.kind.computes) :
    stepBy apply stack t = .error t.unrecognized := by
  rw [stepBy, if_neg ho, if_neg hs, if_neg hc]

theorem exists_of_taken (h : taken t stack = .ok (xs, rest)) :
    ∃ vs, stack = vs ++ rest ∧ xs = vs.reverse.flatMap Operand.pack := by
  rw [taken] at h
  split at h
  case h_1 =>
    have ⟨⟨x, y, s⟩, hp, h⟩ := Except.bind_eq_ok.mp h
    cases h
    exact ⟨[y, x], pair_eq_ok hp, by simp⟩
  case h_2 =>
    cases h
    cases stack
    case nil       => exact ⟨[], rfl, rfl⟩
    case cons v vs => exact ⟨[v], rfl, by simp⟩

theorem not_overflowed_pair : ¬Overflowed (pair t stack) := by
  cases stack
  case nil          => simp [Overflowed, pair]
  case cons y stack => cases stack <;> simp [Overflowed, pair]

theorem not_overflowed_taken : ¬Overflowed (taken t stack) := by
  rw [taken]
  split
  case h_1 =>
    rw [Overflowed.bind]
    rintro (h | ⟨_, _, _, _, h⟩)
    · exact not_overflowed_pair h
    · contradiction
  case h_2 => simp [Overflowed]

theorem not_overflowed_result : ¬Overflowed (result stack) := by
  cases stack
  case nil         => simp [Overflowed, result]
  case cons v rest => cases v <;> simp [Overflowed, result]

theorem apply_of_stepBy {k : Kind} (h : stepBy apply stack t = .error (.noFiniteResult k xs)) :
    ∃ ys, apply t.kind ys = .error (.noFiniteResult k xs) := by
  by_cases ho : t.kind.isOperand
  case pos =>
    have ⟨x, _, he⟩ := stepBy_operand ho
    cases (he apply stack).symm.trans h
  case neg =>
  by_cases hp : t.kind = .separator
  case pos =>
    rw [stepBy_separator hp] at h
    exact absurd (Overflowed.map.mp ⟨k, xs, h⟩) not_overflowed_pair
  case neg =>
  by_cases hc : t.kind.computes
  case pos =>
    rw [stepBy_computes hc] at h
    rcases Except.bind_eq_error.mp h with ht | ⟨⟨ys, rest⟩, _, h⟩
    case inl => exact absurd ⟨k, xs, ht⟩ not_overflowed_taken
    case inr =>
      refine ⟨ys, ?_⟩
      cases ha : apply t.kind ys <;> simp_all
  case neg =>
    rw [stepBy_other ho hp hc] at h
    cases h

theorem forall_of_stepBy {P : Operand → Prop} (h : stepBy apply stack t = .ok stack')
    (operand : ∀ x ∈ t.value?, P (.number x)) (join : ∀ x y, P x → P y → P (x.join y))
    (result : ∀ (vs : List Operand) x, (∀ v ∈ vs, P v) →
      apply t.kind (vs.flatMap Operand.pack) = .ok x → P (.number x))
    (hs : ∀ v ∈ stack, P v) : ∀ v ∈ stack', P v := by
  by_cases ho : t.kind.isOperand
  case pos =>
    have ⟨x, hx, he⟩ := stepBy_operand ho
    cases (he apply stack).symm.trans h
    exact List.forall_mem_cons.mpr ⟨operand x hx, hs⟩
  case neg =>
  by_cases hp : t.kind = .separator
  case pos =>
    rw [stepBy_separator hp] at h
    have ⟨⟨x, y, rest⟩, he, h⟩ := Except.map_eq_ok.mp h
    rw [pair_eq_ok he, List.forall_mem_cons, List.forall_mem_cons] at hs
    exact h ▸ List.forall_mem_cons.mpr ⟨join x y hs.right.left hs.left, hs.right.right⟩
  case neg =>
  by_cases hc : t.kind.computes
  case pos =>
    rw [stepBy_computes hc] at h
    have ⟨⟨xs, rest⟩, ht, h⟩ := Except.bind_eq_ok.mp h
    have ⟨x, hx, h⟩ := Except.map_eq_ok.mp h
    have ⟨vs, hv, hxs⟩ := exists_of_taken ht
    rw [hv, List.forall_mem_append] at hs
    have hr := result vs.reverse x (by simpa using hs.left) (hxs ▸ hx)
    exact h ▸ List.forall_mem_cons.mpr ⟨hr, hs.right⟩
  case neg =>
    rw [stepBy_other ho hp hc] at h
    contradiction

end Execution
end Reckoner
