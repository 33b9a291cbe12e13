import Reckoner.Proofs.Arrangement
import Reckoner.Proofs.Computation
import Reckoner.Proofs.Sentences
import Reckoner.Proofs.Transparency

namespace Reckoner

open Standard

namespace Kind

theorem apply_nil_ne_ok {k : Kind} {o : Options} {x : Float} : k.apply o [] ≠ .ok x := by
  have ha := (by decide : ∀ k : Kind, ∀ a ∈ k.arity, a.allows 0 = false) k
  cases hk : k.arity
  case none   => simp [apply, hk]
  case some a => simp [apply, hk, ha a hk]

end Kind

namespace Execution

variable {o : Options} {t : Token} {stack stack' : List Operand} {ts : List Token}

theorem step_length (h : step o stack t = .ok stack') : stack' ≠ [] ∧
    stack'.length + (if t.kind.joinsTwo then 1 else 0) =
      stack.length + (if t.kind.isOperand then 1 else 0) := by
  have apply (h : (do return Operand.number (← t.kind.apply o (stack.head?.elim [] Operand.pack)) ::
      stack.tail) = .ok stack') : stack' ≠ [] ∧ stack'.length = stack.length := by
    obtain ⟨x, hx, h⟩ := Except.bind_eq_ok.mp h
    cases h
    cases stack
    case nil  => exact absurd hx Kind.apply_nil_ne_ok
    case cons => simp
  rw [step] at h
  split at h
  case h_1 hk | h_2 hk =>
    cases hv : t.value? <;> rw [hv] at h
    case none   => contradiction
    case some x => cases h; simp [hk, Kind.joinsTwo, Kind.isOperand]
  case h_3 hk =>
    obtain ⟨⟨x, y, rest⟩, hp, h⟩ := Except.bind_eq_ok.mp h
    cases h
    simp [pair_eq_ok hp, hk, Kind.joinsTwo, Kind.isOperand]
  case h_4 hk =>
    obtain ⟨⟨x, y, rest⟩, hp, h⟩ := Except.bind_eq_ok.mp h
    obtain ⟨z, _, h⟩ := Except.bind_eq_ok.mp h
    cases h
    simp [pair_eq_ok hp, hk, Kind.joinsTwo, Kind.isOperand]
  case h_5 hk | h_6 hk => simpa [hk, Kind.joinsTwo, Kind.isOperand] using apply h
  case h_7 => contradiction

theorem foldlM_length (h : ts.foldlM (step o) stack = .ok stack') :
    stack'.length + ts.countP (·.kind.joinsTwo) = stack.length + ts.countP (·.kind.isOperand) ∧
      (stack' = [] → ts = []) := by
  induction ts generalizing stack
  case nil          => cases h; simp
  case cons t ts hi =>
    rw [List.foldlM_cons] at h
    have ⟨mid, hm, h⟩ := Except.bind_eq_ok.mp h
    have ⟨hn, hs⟩ := step_length hm
    have ⟨hl, he⟩ := hi h
    rw [List.countP_cons, List.countP_cons]
    refine ⟨by omega, fun hs => ?_⟩
    cases he hs
    cases h
    contradiction

end Execution

section

variable {front : Option Kind} {t : Token} {ts : List Token}

-- Behind a token, operands and what joins them alternate, but for operands directly behind a
-- factorial.
theorem operands_of_ordered (h : Ordered front (t :: ts)) :
    ts.countP (·.kind.isOperand) = ts.countP (·.kind.joinsTwo) + juxtapositions (t :: ts) +
      (if t.kind.awaits = .operand then 1 else 0) := by
  induction ts generalizing front t
  case nil =>
    simp [Kind.awaits_of_textEnd t.kind h.right.right, juxtapositions]
  case cons u ts hi =>
    have hu := (by decide : ∀ k l : Kind, l ∈ follow (some k) → l.lead ≠ .none →
      (if l.isOperand then 1 else 0) + (if l.awaits = .operand then 1 else 0) =
        (if l.joinsTwo then 1 else 0) + (if k = .unary .factorial ∧ l = .number then 1 else 0) +
          (if k.awaits = .operand then 1 else 0)) t.kind u.kind h.right.right.left
      h.right.right.right.left
    have hi := hi h.right.right
    rw [List.countP_cons, List.countP_cons, juxtapositions]
    omega

theorem operands_of_compiles {out : List Token} (ho : Ordered none (t :: ts))
    (hs : Separators.check (t :: ts) = .ok ()) (hp : Postfix.ofTokens (t :: ts) = .ok out) :
    (t :: ts).countP (·.kind.isOperand) +
        (if t.kind.lead = .operator ∨ t.kind.lead = .bang then 1 else 0) =
      (t :: ts).countP (·.kind.joinsTwo) + juxtapositions (t :: ts) + 1 := by
  have hk := (by decide : ∀ k ∈ follow none,
    k ∈ operandStart ∨ k.lead = .operator ∨ k.lead = .bang →
      (if k.isOperand then 1 else 0) + (if k.awaits = .operand then 1 else 0) +
          (if k.lead = .operator ∨ k.lead = .bang then 1 else 0) =
        (if k.joinsTwo then 1 else 0) + 1) t.kind ho.left (head_of_compiles ho hs hp)
  have hts := operands_of_ordered ho
  rw [List.countP_cons, List.countP_cons]
  omega

theorem countP_of_ofTokens {out : List Token} (h : Postfix.ofTokens ts = .ok out) {p : Token → Bool}
    (hp : ∀ t, p t → !t.isBracket) : out.countP p = ts.countP p := by
  rw [(Postfix.perm_of_ofTokens h).countP_eq, List.countP_filter]
  exact List.countP_congr fun t _ => by simpa using hp t

end

-- Whether a text begins with a sign that begins no expression.
def Text.leading : List Char → Nat
  | c :: _ => if c ∈ Lead.trailing then 1 else 0
  | []     => 0

theorem leading_spelling {t : Token} {ts : List Token} (h : Ordered none (t :: ts)) :
    Text.leading (spelling (t :: ts)) =
      if t.kind.lead = .operator ∨ t.kind.lead = .bang then 1 else 0 := by
  have ⟨c, s, hs, hc⟩ := exists_cons_of_ordered h
  rw [hs, Text.leading]
  simp only [← Lead.of_trailing_iff, hc]

theorem spelling_ne_nil {t : Token} {ts : List Token} (h : Ordered none (t :: ts)) :
    spelling (t :: ts) ≠ [] := by
  have ⟨c, s, hs, _⟩ := exists_cons_of_ordered h
  exact hs ▸ List.cons_ne_nil c s

theorem leading_eq_zero_of_nil {t : Token} {ts : List Token}
    (hp : Postfix.ofTokens (t :: ts) = .ok []) :
    ¬(t.kind.lead = .operator ∨ t.kind.lead = .bang) := by
  have hb : t.isBracket := by
    have hn := (Postfix.perm_of_ofTokens hp).symm.eq_nil
    simpa using List.filter_eq_nil_iff.mp hn t List.mem_cons_self
  simp only [Token.isBracket, Bool.or_eq_true, decide_eq_true_eq] at hb
  cases hb
  case inl hb => simp [hb, Kind.lead]
  case inr hb => simp [hb, Kind.lead]

theorem Session.compile_of_evaluate {expression : String} {keep : Bool} {o : Options} {x : Float}
    (h : (Session.standard.evaluate expression keep o).1 = .ok x) :
    ∃ ts, Lexer.standard.compile expression = .ok ts ∧ ∃ stack, Execution.run o ts = .ok stack := by
  rw [evaluate_standard] at h
  have ⟨ts, hc, ha⟩ := Except.bind_eq_ok.mp h
  have ⟨y, hy, _⟩ := Except.map_eq_ok.mp ha
  have ⟨stack, hr, _⟩ := Except.bind_eq_ok.mp hy
  exact ⟨ts, hc, stack, hr⟩

-- Of a text that is evaluated, as many operands are left on the stack below the result as there are
-- numerals directly behind a factorial, but for one that an operator in front of the text takes.
theorem Session.evaluate_residue {expression : String} {keep : Bool} {o : Options} {x : Float}
    (h : (Session.standard.evaluate expression keep o).1 = .ok x) :
    ∃ ts stack, Lexer.standard.compile expression = .ok ts ∧ Execution.run o ts = .ok stack ∧
      let s := Text.stripped expression.toList
      (stack = [] ↔ s = []) ∧
      (s ≠ [] → stack.length + Text.leading s = Text.juxtaposed s + 1) ∧
      (stack.length = 1 ↔ s ≠ [] ∧ Text.juxtaposed s = Text.leading s) := by
  obtain ⟨out, hc, stack, hr⟩ := compile_of_evaluate h
  obtain ⟨ts, hts, hp⟩ := Except.bind_eq_ok.mp hc
  obtain ⟨⟨ho, hd, hw⟩, hs⟩ := Lexer.parse_iff.mp hts
  obtain ⟨hl, he⟩ := Execution.foldlM_length hr
  refine ⟨out, stack, hc, hr, ?_⟩
  rw [← hw]
  cases ts
  case nil =>
    cases hp
    cases hr
    simp [spelling]
  case cons t ts =>
    have hn := spelling_ne_nil ho
    rw [countP_of_ofTokens hp (by simp [Token.isBracket]; grind [Kind.joinsTwo]),
      countP_of_ofTokens hp (by simp [Token.isBracket]; grind [Kind.isOperand])] at hl
    have hc := operands_of_compiles ho hs hp
    rw [← leading_spelling ho, ← juxtaposed_spelling ho] at hc
    have hlength : stack.length + Text.leading (spelling (t :: ts)) =
        Text.juxtaposed (spelling (t :: ts)) + 1 := by
      simp only [List.length_nil] at hl
      omega
    have hstack : stack ≠ [] := by
      intro hs
      rw [leading_spelling ho, hs, if_neg (leading_eq_zero_of_nil (he hs ▸ hp))] at hlength
      simp at hlength
    refine ⟨iff_of_false hstack hn, fun _ => hlength, fun h1 => ⟨hn, by omega⟩, ?_⟩
    rintro ⟨_, he⟩
    omega

namespace Stray

-- A numeral directly behind a factorial. It is beyond all floating point numbers, so that the
-- factorial may have any result.
def expression : String :=
  "3! 1e+999"

def three : Token :=
  ⟨.number, "3", ⟨0, 1⟩, by decide⟩

def bang : Token :=
  ⟨.unary .factorial, "!", ⟨1, 2⟩, by decide⟩

def huge : Token :=
  ⟨.number, "1e+999", ⟨2, 8⟩, by decide⟩

theorem compile_expression : Lexer.standard.compile expression = .ok [three, huge, bang] := by
  have ho : Ordered none [three, bang, huge] :=
    ⟨by decide, by decide, by decide, by decide, by decide, by decide, (by decide : _ ∈ operandEnd)⟩
  have hd : Laid 0 [three, bang, huge] := ⟨by decide, by decide, by decide, trivial⟩
  have hw : spelling [three, bang, huge] = Text.stripped expression.toList := by decide
  exact Except.bind_eq_ok.mpr ⟨_, Lexer.parse_iff.mpr ⟨⟨ho, hd, hw⟩, rfl⟩, rfl⟩

theorem apply_bang (o : Options) : ∃ x, bang.kind.apply o [Decimal.toFloat ⟨1, 999⟩] = .ok x := by
  have hf : (Decimal.toFloat ⟨1, 999⟩).isFinite = false := by decide +kernel
  exact ⟨_, by
    simp [Kind.apply, bang, Kind.arity, Arity.allows, Arity.exactly, Kind.compute?, hf]
    rfl⟩

theorem run_expression (o : Options) :
    ∃ x y, Execution.run o [three, huge, bang] = .ok [.number x, .number y] := by
  have ⟨x, hx⟩ := apply_bang o
  refine ⟨x, Decimal.toFloat ⟨3, 0⟩, ?_⟩
  have h₁ : Execution.step o [] three = .ok [.number (Decimal.toFloat ⟨3, 0⟩)] :=
    Execution.step_numeral rfl (by decide)
  have h₂ (stack) : Execution.step o stack huge =
      .ok (.number (Decimal.toFloat ⟨1, 999⟩) :: stack) :=
    Execution.step_numeral rfl (by decide)
  have h₃ (stack) : Execution.step o (.number (Decimal.toFloat ⟨1, 999⟩) :: stack) bang =
      .ok (.number x :: stack) := by
    rw [Execution.step_unary rfl, hx]
    rfl
  simp [Execution.run, h₁, h₂, h₃]

theorem evaluate_expression (o : Options) :
    ∃ x, (Session.standard.evaluate expression false o).1 = .ok x := by
  have ⟨x, y, hr⟩ := run_expression o
  have ha : answer o [three, huge, bang] = .ok (Decimal.roundTo 15 x) := by
    rw [answer, execute, hr]
    rfl
  exact ⟨Decimal.roundTo 15 x, by
    rw [Session.evaluate_standard, compile_expression, Except.ok_bind, ha]⟩

end Stray

-- The result of a text is not all that is left on the stack.
theorem Session.evaluate_stray : ¬∀ (expression : String) (keep : Bool) (o : Options) (x : Float),
    (Session.standard.evaluate expression keep o).1 = .ok x →
    ∃ ts stack, Lexer.standard.compile expression = .ok ts ∧ Execution.run o ts = .ok stack ∧
      (stack = [] ∨ stack.length = 1) ∧ (stack = [] ↔ Text.stripped expression.toList = []) := by
  intro h
  have ⟨x, hx⟩ := Stray.evaluate_expression .empty
  have ⟨ts, stack, hc, hr, hs⟩ := h _ _ _ x hx
  have ⟨y, z, hy⟩ := Stray.run_expression .empty
  cases Stray.compile_expression.symm.trans hc
  cases hy.symm.trans hr
  simp at hs

theorem Session.evaluate_residue_stray :
    (∃ x, (Session.standard.evaluate Stray.expression false .empty).1 = .ok x) ∧
    ∃ stack, Execution.run .empty [Stray.three, Stray.huge, Stray.bang] = .ok stack ∧
      stack.length = 2 := by
  have ⟨x, hx⟩ := Stray.evaluate_expression .empty
  have ⟨ts, stack, hc, hr, _, hl, _⟩ := Session.evaluate_residue hx
  cases Stray.compile_expression.symm.trans hc
  have hn := hl (by decide)
  have hs : Text.leading (Text.stripped Stray.expression.toList) = 0 := by decide
  have hj : Text.juxtaposed (Text.stripped Stray.expression.toList) = 1 := by decide
  exact ⟨⟨x, hx⟩, stack, hr, by omega⟩

end Reckoner
