import Reckoner.Proofs.Machine

namespace Reckoner

inductive Shape where
  | number
  | list (count : Nat)

def Operand.shape : Operand → Shape
  | number _ => .number
  | list xs  => .list xs.length

-- A fault with zeros in the place of all operands.
def Fault.blank : Fault → Fault
  | separators (.untaken xs) positions => separators (.untaken <| .replicate xs.length 0) positions
  | f                                  => f

namespace Shape

def count : Shape → Nat
  | number => 1
  | list n => n

def pair (t : Token) : List Shape → Except Fault (Shape × Shape × List Shape)
  | y :: x :: stack => .ok (x, y, stack)
  | stack           => .error <| .operandCount t.kind (.exactly 2) stack.length

def reduce (t : Token) (arity : Arity) (count : Nat) (stack : List Shape) :
    Except Fault (List Shape) :=
  if arity.allows count then .ok (number :: stack)
  else .error <| .operandCount t.kind arity count

def step (stack : List Shape) (t : Token) : Except Fault (List Shape) :=
  match t.kind with
  | .number | .constant _ => .ok (number :: stack)
  | .separator => do
    let (x, y, stack) ← pair t stack
    return list (x.count + y.count) :: stack
  | .binary _ => do
    let (x, y, stack) ← pair t stack
    reduce t (.exactly 2) (x.count + y.count) stack
  | .unary _    => reduce t (.exactly 1) (stack.head?.elim 0 count) stack.tail
  | .function f => reduce t f.arity (stack.head?.elim 0 count) stack.tail
  | _           => .error t.unrecognized

def result : List Shape → Except Fault Unit
  | list n :: _ => .error <| .separators (.untaken <| .replicate n 0) []
  | _           => .ok ()

def outline {α β : Type} (f : α → β) : Except Fault α → Except Fault β
  | .ok a    => .ok (f a)
  | .error e => .error e.blank

variable {o : Options} {t : Token} {stack : List Operand} {xs : List Float}
  {shapes : List Shape}

@[simp]
theorem count_shape (x : Operand) : x.shape.count = x.pack.length := by
  cases x <;> rfl

theorem pair_shape (t : Token) (stack : List Operand) :
    outline (fun (x, y, rest) => (x.shape, y.shape, rest.map Operand.shape)) (Execution.pair t stack) =
      pair t (stack.map Operand.shape) := by
  cases stack
  case nil          => rfl
  case cons y stack => cases stack <;> rfl

theorem result_shape (stack : List Operand) :
    outline (fun _ => ()) (Execution.result stack) = result (stack.map Operand.shape) := by
  cases stack
  case nil      => rfl
  case cons v _ => cases v <;> rfl

theorem reduce_shape {a : Arity} (hs : t.kind ≠ .separator) (ha : t.kind.arity = some a) :
    Overflowed ((Operand.number · :: stack) <$> t.kind.apply o xs) ∧
        reduce t a xs.length (stack.map Operand.shape) = .ok (number :: stack.map Operand.shape) ∨
      outline (List.map Operand.shape) ((Operand.number · :: stack) <$> t.kind.apply o xs) =
        reduce t a xs.length (stack.map Operand.shape) := by
  rw [reduce]
  by_cases hl : a.allows xs.length
  case pos =>
    rcases Kind.apply_finishes (o := o) hs (by rw [ha]; exact hl) with ⟨x, hx⟩ | ⟨k, ys, hx⟩
    · rw [hx, if_pos hl]
      exact .inr rfl
    · exact .inl ⟨Overflowed.map.mpr ⟨k, ys, hx⟩, if_pos hl⟩
  case neg =>
    have hx : t.kind.apply o xs = .error (.operandCount t.kind a xs.length) := by
      simp [Kind.apply, ha, hl]
    rw [hx, if_neg hl]
    exact .inr rfl

theorem step_of_taken {a : Arity} (hc : t.kind.computes) (ha : t.kind.arity = some a) :
    step (stack.map Operand.shape) t = outline id (Execution.taken t stack) >>=
      fun (xs, rest) => reduce t a xs.length (rest.map Operand.shape) := by
  rw [step, Execution.taken]
  cases hk : t.kind <;> rw [hk] at hc ha <;> cases ha
  case separator       => contradiction
  case binary op       =>
    rw [← pair_shape]
    cases Execution.pair t stack
    case error => rfl
    case ok p  => simp [outline]
  case unary | function => cases stack <;> simp [outline]

theorem step_of_operand (h : t.kind.isOperand) : step shapes t = .ok (number :: shapes) := by
  rw [step]
  cases hk : t.kind <;> simp_all [Kind.isOperand]

theorem step_of_separator (h : t.kind = .separator) : step (stack.map Operand.shape) t =
    outline (fun (x, y, rest) => list (x.pack.length + y.pack.length) :: rest.map Operand.shape)
      (Execution.pair t stack) := by
  rw [step, h, ← pair_shape]
  cases Execution.pair t stack <;> simp [outline]

theorem step_of_other (ho : ¬t.kind.isOperand) (hs : t.kind ≠ .separator) (hc : ¬t.kind.computes) :
    step shapes t = .error t.unrecognized := by
  rw [step]
  cases hk : t.kind <;> simp_all [Kind.isOperand, Kind.computes]

-- A step does to the shape of the stack what it does to the stack, or fails where the shape goes on.
theorem step_shape (o : Options) (stack : List Operand) (t : Token) :
    Overflowed (Execution.step o stack t) ∧
        (∃ shapes, step (stack.map Operand.shape) t = .ok shapes) ∨
      outline (List.map Operand.shape) (Execution.step o stack t) =
        step (stack.map Operand.shape) t := by
  rw [Execution.step_eq]
  by_cases ho : t.kind.isOperand
  case pos =>
    obtain ⟨x, _, he⟩ := Execution.stepBy_operand ho
    rw [he, step_of_operand ho]
    exact .inr rfl
  case neg =>
  by_cases hp : t.kind = .separator
  case pos =>
    rw [Execution.stepBy_separator hp, step_of_separator hp]
    cases Execution.pair t stack
    case error => exact .inr rfl
    case ok p  => exact .inr <| by simp [outline, Operand.join, Operand.shape]
  case neg =>
  by_cases hc : t.kind.computes
  case pos =>
    obtain ⟨a, ha⟩ := Option.isSome_iff_exists.mp <|
      (by decide : ∀ k : Kind, k.computes → k.arity.isSome) t.kind hc
    rw [Execution.stepBy_computes hc, step_of_taken hc ha]
    cases Execution.taken t stack
    case error => exact .inr rfl
    case ok p  => exact (reduce_shape hp ha).imp_left fun h => ⟨h.left, _, h.right⟩
  case neg =>
    rw [Execution.stepBy_other ho hp hc, step_of_other ho hp hc]
    exact .inr rfl

theorem course_shape (o : Options) (stack : List Operand) (ts : List Token) :
    let run   := Except.course (Execution.step o) Execution.result stack ts
    let shape := Except.course step result (stack.map Operand.shape) ts
    Overflowed run.2 ∧ run.1 < shape.1 ∨ run.1 = shape.1 ∧ outline (fun _ => ()) run.2 = shape.2 := by
  induction ts generalizing stack
  case nil          => exact .inr ⟨rfl, result_shape stack⟩
  case cons t ts hi =>
    intro run shape
    have ht := step_shape o stack t
    cases hs : Execution.step o stack t
    case error f =>
      rw [hs] at ht
      have hr : run = (0, .error f) := Except.course_cons_error hs
      rcases ht with ⟨⟨k, xs, he⟩, shapes, hh⟩ | he
      case inl =>
        cases he
        have hh : shape = _ := Except.course_cons_ok hh
        exact .inl ⟨⟨k, xs, congrArg Prod.snd hr⟩, by rw [hr, hh]; exact Nat.succ_pos _⟩
      case inr =>
        have hh : shape = (0, .error f.blank) := Except.course_cons_error he.symm
        exact .inr <| by rw [hr, hh]; exact ⟨rfl, rfl⟩
    case ok mid  =>
      rw [hs] at ht
      have hr : run = _ := Except.course_cons_ok hs
      rcases ht with ⟨⟨k, xs, he⟩, _⟩ | he
      case inl => contradiction
      case inr =>
        have hh : shape = _ := Except.course_cons_ok he.symm
        rw [hr, hh]
        rcases hi mid with ⟨ho, hn⟩ | ⟨hn, he⟩
        case inl => exact .inl ⟨ho, Nat.succ_le_succ hn⟩
        case inr => exact .inr ⟨congrArg (· + 1) hn, he⟩

-- Lists have at least two operands, so that the number of operands tells a list from a number.
def NumberOrMany (x : Shape) : Prop :=
  x = number ∨ 2 ≤ x.count

theorem NumberOrMany.count_pos {x : Shape} : x.NumberOrMany → 1 ≤ x.count
  | .inl h => h ▸ Nat.le_refl 1
  | .inr h => Nat.le_of_succ_le h

theorem NumberOrMany.count_eq_one_iff {x : Shape} : x.NumberOrMany → (x.count = 1 ↔ x = number)
  | .inl h => iff_of_true (h ▸ rfl) h
  | .inr h => iff_of_false (fun hc => by omega) fun hx => by simp [hx, count] at h

theorem numberOrMany_of_run {ts : List Token} (h : Execution.run o ts = .ok stack) :
    ∀ v ∈ stack, v.shape.NumberOrMany := by
  let Kept (stack : List Operand) := ∀ v ∈ stack, v.shape.NumberOrMany
  refine Except.foldlM_keeps (P := Kept) (fun t _ b c hb hs => ?_) (List.forall_mem_nil _) h
  rw [Execution.step_eq] at hs
  refine Execution.forall_of_stepBy hs (fun _ _ => .inl rfl) (fun x y hx hy => .inr ?_)
    (fun _ _ _ _ => .inl rfl) hb
  have hx := hx.count_pos
  have hy := hy.count_pos
  rw [count_shape] at hx hy
  rw [count_shape, Operand.join, Operand.pack, List.length_append]
  exact Nat.add_le_add hx hy

theorem token_of_overflow {ts : List Token} {k : Kind} :
    let run := Except.course (Execution.step o) Execution.result stack ts
    run.2 = .error (.noFiniteResult k xs) → ∃ t ∈ ts[run.1]?, t.kind = k ∧
      (∀ x ∈ xs, x.isFinite) ∧ ∃ x, k.compute? o xs = some x ∧ ¬x.isFinite := by
  intro run h
  rcases Except.course_snd_eq_error h with ⟨t, mid, ht, hs⟩ | ⟨mid, hr⟩
  case inl =>
    rw [Execution.step_eq_checked] at hs
    obtain ⟨ys, ha⟩ := Execution.apply_of_stepBy hs
    obtain ⟨hk, rfl, hf, hx⟩ := Kind.applyChecked_eq_noFiniteResult ha
    exact ⟨t, ht, hk, hf, hk ▸ hx⟩
  case inr => exact absurd ⟨k, xs, hr⟩ Execution.not_overflowed_result

-- Of any tokens, a computation ends for want of a finite result, at an operator that has none and
-- before its shape ends, or with the token and in the way that its shape tells.
theorem execute_ends (o : Options) (ts : List Token) :
    let run   := Except.course (Execution.step o) Execution.result [] ts
    let shape := Except.course step result [] ts
    execute o ts = run.2 ∧
    (Overflowed run.2 ∧ run.1 < shape.1 ∨
      run.1 = shape.1 ∧ outline (fun _ => ()) run.2 = shape.2) ∧
    (∀ k xs, run.2 = .error (.noFiniteResult k xs) → ∃ t ∈ ts[run.1]?, t.kind = k ∧
      (∀ x ∈ xs, x.isFinite) ∧ ∃ x, k.compute? o xs = some x ∧ ¬x.isFinite) ∧
    ∀ n stack, Execution.run o (ts.take n) = .ok stack →
      ∀ v ∈ stack, v.shape.count = 1 ↔ v.shape = .number := by
  intro run shape
  exact ⟨Except.course_snd.symm, course_shape o [] ts, fun _ _ => token_of_overflow,
    fun _ _ h v hv => (numberOrMany_of_run h v hv).count_eq_one_iff⟩

theorem execute_ends_list :
    let p : Token := ⟨.constant .pi, "pi", ⟨0, 2⟩, by decide⟩
    let e : Token := ⟨.constant .e, "e", ⟨3, 4⟩, by decide⟩
    let s : Token := ⟨.separator, ",", ⟨2, 3⟩, by decide⟩
    let a : Token := ⟨.binary .add, "+", ⟨4, 5⟩, by decide⟩
    let v : Operand := .list [Constant.pi.value, Constant.e.value]
    Execution.run .empty ([p, e, s, p, a].take 3) = .ok [v] ∧ (v.shape.count = 1 ↔ v.shape = .number) ∧
    execute .empty [p, e, s, p, a] = .error (.operandCount (.binary .add) (.exactly 2) 3) := by
  intro p e s a v
  have hr : Execution.run .empty ([p, e, s, p, a].take 3) = .ok [v] := rfl
  have ⟨_, _, _, h⟩ := execute_ends .empty [p, e, s, p, a]
  exact ⟨hr, h 3 [v] hr v List.mem_cons_self, rfl⟩

end Shape
end Reckoner
