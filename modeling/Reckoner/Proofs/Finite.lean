import Reckoner.Proofs.Machine

namespace Reckoner

theorem Constant.isFinite_value (c : Constant) : c.value.isFinite := by
  cases c <;> decide +kernel

def Operand.Finite (v : Operand) : Prop :=
  ∀ x ∈ v.pack, x.isFinite

def Token.Finite (t : Token) : Prop :=
  t.kind = .number → ∀ x ∈ t.value?, x.isFinite

theorem Token.Finite.value? {t : Token} (h : t.Finite) : ∀ x ∈ t.value?, x.isFinite := by
  intro x hx
  cases hk : t.kind
  case number     => exact h hk x hx
  case constant c =>
    have hv : t.value? = some c.value := by simp only [Token.value?, hk]
    cases hv.symm.trans hx
    exact c.isFinite_value
  all_goals simp [Token.value?, hk] at hx

namespace Kind

variable {compute : Kind → List Float → Option Float} {k : Kind} {xs : List Float} {x : Float}

theorem checkFinite_eq (hs : ∀ x ∈ xs, x.isFinite) :
    k.checkFinite xs x = if x.isFinite then .ok x else .error (.noFiniteResult k xs) := by
  have ha : xs.all Float.isFinite := List.all_eq_true.mpr hs
  cases hx : x.isFinite <;> simp [checkFinite, hx, ha]

theorem isFinite_of_applyChecked (hs : ∀ x ∈ xs, x.isFinite)
    (h : k.applyChecked compute xs = .ok x) : x.isFinite := by
  have ⟨y, _, h⟩ := Except.bind_eq_ok.mp h
  rw [checkFinite_eq hs] at h
  split at h
  case isTrue hy => cases h; exact hy
  case isFalse   => contradiction

end Kind

namespace Execution

variable (compute : Kind → List Float → Option Float)

-- An operator with as many operands as it takes, for which there is no finite result.
def Overflows (stack : List Operand) (t : Token) (xs : List Float) : Prop :=
  t.kind.computes ∧ ∃ rest x, taken t stack = .ok (xs, rest) ∧
    t.kind.applyRaw compute xs = .ok x ∧ ¬x.isFinite

-- The same of the operator at some place, when all results up to it are taken as they are.
def OverflowsAt (stack : List Operand) (ts : List Token) (n : Nat) (k : Kind) (xs : List Float) :
    Prop :=
  ∃ mid t, (ts.take n).foldlM (stepBy (Kind.applyRaw compute)) stack = .ok mid ∧
    ts[n]? = some t ∧ t.kind = k ∧ Overflows compute mid t xs

def OverflowsFirst (stack : List Operand) (ts : List Token) (n : Nat) (k : Kind) (xs : List Float) :
    Prop :=
  OverflowsAt compute stack ts n k xs ∧ ∀ m < n, ∀ l ys, ¬OverflowsAt compute stack ts m l ys

variable {compute} {t : Token} {ts : List Token} {stack mid : List Operand} {n : Nat} {k : Kind}
  {xs : List Float}

theorem finite_of_taken {rest : List Operand} (hf : ∀ v ∈ stack, v.Finite)
    (h : taken t stack = .ok (xs, rest)) : ∀ x ∈ xs, x.isFinite := by
  have ⟨vs, hv, hxs⟩ := exists_of_taken h
  rw [hv, List.forall_mem_append] at hf
  intro x hx
  rw [hxs, List.mem_flatMap] at hx
  have ⟨v, hm, hx⟩ := hx
  exact hf.left v (List.mem_reverse.mp hm) x hx

theorem finite_of_stepBy (ht : t.Finite) (hf : ∀ v ∈ stack, v.Finite)
    (h : stepBy (Kind.applyChecked compute) stack t = .ok mid) : ∀ v ∈ mid, v.Finite := by
  have number (x : Float) (hx : x.isFinite) : (Operand.number x).Finite := by
    simpa [Operand.Finite, Operand.pack] using hx
  refine forall_of_stepBy h (fun x hx => number x (ht.value? x hx)) (fun x y hx hy => ?join)
    (fun vs x hv hx => number x <| Kind.isFinite_of_applyChecked ?operands hx) hf
  case join     => exact List.forall_mem_append.mpr ⟨hx, hy⟩
  case operands =>
    intro z hz
    obtain ⟨v, hm, hz⟩ := List.mem_flatMap.mp hz
    exact hv v hm z hz

-- On a stack of finite numbers, a step fails for want of a finite result where there is none, and
-- otherwise is what it would be if every result was taken.
theorem stepBy_checked (compute : Kind → List Float → Option Float) (t : Token)
    (hf : ∀ v ∈ stack, v.Finite) :
    (∃ xs, Overflows compute stack t xs ∧
      stepBy (Kind.applyChecked compute) stack t = .error (.noFiniteResult t.kind xs)) ∨
    (∀ xs, ¬Overflows compute stack t xs) ∧
      stepBy (Kind.applyChecked compute) stack t = stepBy (Kind.applyRaw compute) stack t := by
  by_cases hc : t.kind.computes
  case neg => exact .inr ⟨fun _ h => hc h.left, by simp [stepBy, hc]⟩
  case pos =>
    simp only [stepBy_computes hc, Overflows, hc, true_and]
    cases ht : taken t stack
    case error f => exact .inr ⟨by simp, rfl⟩
    case ok p    =>
      obtain ⟨xs, rest⟩ := p
      have hxs := finite_of_taken hf ht
      simp only [Except.ok_bind, Kind.applyChecked]
      cases hx : t.kind.applyRaw compute xs
      case error f => exact .inr ⟨by simp [hx], rfl⟩
      case ok x    =>
        rw [Except.ok_bind, Kind.checkFinite_eq hxs]
        by_cases hfin : x.isFinite
        case pos => exact .inr ⟨by simp [hx, hfin], by rw [if_pos hfin]⟩
        case neg => exact .inl ⟨xs, ⟨rest, x, rfl, hx, hfin⟩, by rw [if_neg hfin]; rfl⟩

theorem not_overflowed_raw : ¬Overflowed (stepBy (Kind.applyRaw compute) stack t) := by
  rintro ⟨k, xs, h⟩
  have ⟨ys, hy⟩ := apply_of_stepBy h
  exact Kind.not_overflowed_applyRaw ⟨k, xs, hy⟩

theorem finite_of_result {x : Float} (hf : ∀ v ∈ stack, v.Finite) (h : result stack = .ok x) :
    x.isFinite := by
  cases stack
  case nil         =>
    cases h
    decide +kernel
  case cons v rest =>
    cases v
    case number y => cases h; exact hf _ List.mem_cons_self _ List.mem_cons_self
    case list     => contradiction

theorem Overflows.unique {ys : List Float} (hx : Overflows compute stack t xs)
    (hy : Overflows compute stack t ys) : xs = ys := by
  have ⟨_, _, _, hx, _⟩ := hx
  have ⟨_, _, _, hy, _⟩ := hy
  cases hx.symm.trans hy
  rfl

theorem overflowsAt_zero : OverflowsAt compute stack (t :: ts) 0 k xs ↔
    t.kind = k ∧ Overflows compute stack t xs := by
  simp [OverflowsAt]

theorem overflowsAt_succ (h : stepBy (Kind.applyRaw compute) stack t = .ok mid) :
    OverflowsAt compute stack (t :: ts) (n + 1) k xs ↔ OverflowsAt compute mid ts n k xs := by
  simp [OverflowsAt, h]

theorem not_overflowsAt_zero (h : ∀ ys, ¬Overflows compute stack t ys) :
    ¬OverflowsAt compute stack (t :: ts) 0 k xs :=
  fun ho => h xs (overflowsAt_zero.mp ho).right

theorem overflowsFirst_of_overflows {ys : List Float} (h : Overflows compute stack t ys) :
    OverflowsFirst compute stack (t :: ts) n k xs ↔ n = 0 ∧ k = t.kind ∧ xs = ys := by
  have h₀ : OverflowsAt compute stack (t :: ts) 0 t.kind ys := overflowsAt_zero.mpr ⟨rfl, h⟩
  constructor
  case mp =>
    rintro ⟨ho, hm⟩
    cases n
    case succ n => exact absurd h₀ (hm 0 n.succ_pos t.kind ys)
    case zero   =>
      have ⟨hk, hx⟩ := overflowsAt_zero.mp ho
      exact ⟨rfl, hk.symm, hx.unique h⟩
  case mpr =>
    rintro ⟨rfl, rfl, rfl⟩
    exact ⟨h₀, nofun⟩

theorem not_overflowsFirst_of_error {f : Fault} (h : ∀ ys, ¬Overflows compute stack t ys)
    (hs : stepBy (Kind.applyRaw compute) stack t = .error f) :
    ¬OverflowsFirst compute stack (t :: ts) n k xs := by
  rintro ⟨ho, -⟩
  cases n
  case zero   => exact not_overflowsAt_zero h ho
  case succ n => simp [OverflowsAt, hs] at ho

theorem overflowsFirst_of_ok (h : ∀ ys, ¬Overflows compute stack t ys)
    (hs : stepBy (Kind.applyRaw compute) stack t = .ok mid) :
    OverflowsFirst compute stack (t :: ts) n k xs ↔
      ∃ m, n = m + 1 ∧ OverflowsFirst compute mid ts m k xs := by
  cases n
  case zero   => simp [OverflowsFirst, not_overflowsAt_zero h]
  case succ n =>
    simp only [OverflowsFirst, overflowsAt_succ hs, Nat.forall_lt_succ_left, not_overflowsAt_zero h,
      not_false_eq_true, implies_true, true_and, Nat.add_right_cancel_iff, exists_eq_left']

theorem course_checked (ht : ∀ t ∈ ts, t.Finite) (hf : ∀ v ∈ stack, v.Finite) :
    Except.course (stepBy (Kind.applyChecked compute)) result stack ts =
        (n, .error (.noFiniteResult k xs)) ↔ OverflowsFirst compute stack ts n k xs := by
  induction ts generalizing stack n
  case nil          =>
    refine iff_of_false (fun h => ?_) fun ⟨⟨_, _, _, ht, _⟩, _⟩ => by simp at ht
    exact not_overflowed_result ⟨k, xs, congrArg Prod.snd h⟩
  case cons t ts hi =>
    have ⟨h₁, ht⟩ := List.forall_mem_cons.mp ht
    rcases stepBy_checked compute t hf with ⟨ys, ho, he⟩ | ⟨hn, he⟩
    case inl =>
      rw [Except.course_cons_error he, overflowsFirst_of_overflows ho]
      simp [Prod.ext_iff, eq_comm]
    case inr =>
      cases hs : stepBy (Kind.applyRaw compute) stack t
      case error f =>
        rw [Except.course_cons_error (he.trans hs)]
        refine iff_of_false (fun h => ?_) (not_overflowsFirst_of_error hn hs)
        cases h
        exact not_overflowed_raw ⟨k, xs, hs⟩
      case ok mid  =>
        rw [Except.course_cons_ok (he.trans hs), overflowsFirst_of_ok hn hs]
        simp only [← hi ht (finite_of_stepBy h₁ hf (he.trans hs)), Prod.ext_iff, Prod.map, id_eq]
        constructor
        case mp =>
          rintro ⟨hn, he⟩
          exact ⟨_, hn.symm, rfl, he⟩
        case mpr =>
          rintro ⟨m, rfl, rfl, he⟩
          exact ⟨rfl, he⟩

theorem finite_of_run (ht : ∀ t ∈ ts, t.Finite)
    (h : ts.foldlM (stepBy (Kind.applyChecked compute)) [] = .ok stack) : ∀ v ∈ stack, v.Finite := by
  let AllFinite (stack : List Operand) := ∀ v ∈ stack, v.Finite
  exact Except.foldlM_keeps (P := AllFinite) (fun t hm _ _ => finite_of_stepBy (ht t hm))
    (List.forall_mem_nil _) h

-- Whatever operators and functions come to: of tokens whose numerals are finite, every number on the
-- stack is finite after every step, and so is the result. A computation ends for want of a finite
-- result at the first operator that has as many operands as it takes and no finite result for them,
-- if it gets there. What is computed with any options is one case of this.
theorem finite_of_finite (compute : Kind → List Float → Option Float) (ts : List Token)
    (h : ∀ t ∈ ts, t.kind = .number → ∀ x ∈ t.value?, x.isFinite) :
    let step := stepBy (Kind.applyChecked compute)
    let run  := Except.course step result [] ts
    (∀ n stack, (ts.take n).foldlM step [] = .ok stack → ∀ v ∈ stack, ∀ x ∈ v.pack, x.isFinite) ∧
    (∀ x, run.2 = .ok x → x.isFinite) ∧
    (∀ n k xs, run = (n, .error (.noFiniteResult k xs)) ↔
      OverflowsAt compute [] ts n k xs ∧ ∀ m < n, ∀ l ys, ¬OverflowsAt compute [] ts m l ys) ∧
    ∀ o, Execution.step o = stepBy (Kind.applyChecked (Kind.compute? o)) ∧
      execute o ts = (Except.course (Execution.step o) result [] ts).2 := by
  intro step run
  refine ⟨fun n stack hs => ?stack, fun x hx => ?result, fun n k xs => ?first,
    fun o => ⟨step_eq_checked o, Except.course_snd.symm⟩⟩
  case stack  => exact finite_of_run (fun t hm => h t (List.mem_of_mem_take hm)) hs
  case result =>
    have ⟨stack, hs, hr⟩ := Except.bind_eq_ok.mp (Except.course_snd.symm.trans hx)
    exact finite_of_result (finite_of_run h hs) hr
  case first  => exact course_checked h (List.forall_mem_nil _)

theorem finite_of_finite_quotient :
    let n : Token := ⟨.constant .pi, "pi", ⟨0, 2⟩, by decide⟩
    let z : Token := ⟨.number, "0", ⟨3, 4⟩, by decide⟩
    let d : Token := ⟨.binary .divide, "/", ⟨2, 3⟩, by decide⟩
    (∀ t ∈ [n, z, d], t.kind = .number → ∀ x ∈ t.value?, x.isFinite) ∧
    Except.course (step .empty) result [] [n, z, d] =
      (2, .error (.noFiniteResult (.binary .divide) [Constant.pi.value, 0])) := by
  intro n z d
  have hz : z.value? = some 0 := Token.value?_of_numeral (d := ⟨0, 0⟩) rfl (by decide)
  have hf : ∀ t ∈ [n, z, d], t.kind = .number → ∀ x ∈ t.value?, x.isFinite := by
    have h0 : (0 : Float).isFinite := by decide +kernel
    simp [n, d, hz, h0]
  have ⟨_, _, first, same⟩ := finite_of_finite (Kind.compute? .empty) [n, z, d] hf
  have hr : [n, z].foldlM (stepBy (Kind.applyRaw (Kind.compute? .empty))) [] =
      .ok [.number 0, .number Constant.pi.value] := by
    have ⟨x, hx, he⟩ := stepBy_operand (t := z) rfl
    cases hz.symm.trans hx
    have hn (apply) : stepBy apply [] n = .ok [.number Constant.pi.value] := rfl
    simp [hn, he]
  refine ⟨hf, ?_⟩
  rw [(same .empty).left, first]
  refine ⟨⟨[.number 0, .number Constant.pi.value], d, hr, rfl, rfl, rfl, [], Constant.pi.value / 0, rfl,
    rfl, by decide +kernel⟩, ?_⟩
  rintro m hm l ys ⟨_, t, _, ht, _, hc, _⟩
  match m, hm with
  | 0, _ | 1, _ =>
    cases ht
    contradiction

end Execution
end Reckoner
