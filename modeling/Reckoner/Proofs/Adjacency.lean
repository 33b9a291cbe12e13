import Reckoner.Standard
import Reckoner.Proofs.Matching

namespace Reckoner.Standard

-- The kinds that may come behind a kind, or first. A text may end where its end may come. A minus
-- is a negation where an operand may begin.
def follow : Option Kind → List Kind
  | none                                         =>
    (operandStart ++ operandEnd).filter (· ≠ .binary .subtract)
  | some (.function _)                           => [.opening]
  | some .separator | some (.binary _)           => operandStart
  | some .opening                                => afterOpening
  | some (.unary .negate)                        => afterNegation
  | some (.unary .factorial)                     => afterFactorial
  | some .number | some (.constant _)
  | some .closing                                => operandEnd
  | some .textStart | some .textEnd
  | some .anything                               => []

def beforeNegation : List Kind :=
  Kind.binaries ++ [.opening, .separator]

section

variable {ids before after : List Kind} {stated : ids ≠ []} {k : Kind}

theorem mem_identity : k ∈ (rule ids before after stated).identity ↔ k ∈ ids :=
  List.mem_mergeSort

theorem rule_before : (rule ids before after stated).before = before :=
  rfl

theorem rule_after : (rule ids before after stated).after = after :=
  rfl

end

theorem after_eq : ∀ r ∈ rules, ∀ k ∈ r.2.identity,
    r.2.after = follow (some k) ∧ k.lead ≠ .none := by
  simp only [rules, List.forall_mem_cons, mem_identity, rule_after, List.not_mem_nil,
    false_imp_iff, implies_true, and_true]
  and_intros <;> decide

theorem exists_rule : ∀ k : Kind, k.lead ≠ .none → k ≠ .unary .negate →
    ∃ r ∈ rules, k ∈ r.2.identity ∧ r.2.before = [] := by
  simp only [rules, List.mem_cons, exists_eq_or_imp, mem_identity, rule_before]
  decide

theorem before_of_negate : ∀ r ∈ rules, .unary .negate ∈ r.2.identity →
    r.2.before = [.textStart] ∨ r.2.before = beforeNegation := by
  simp only [rules, List.forall_mem_cons, mem_identity, rule_before, List.not_mem_nil,
    false_imp_iff, implies_true, and_true]
  and_intros <;> decide

theorem exists_negation {before : List Kind} (h : before = [.textStart] ∨ before = beforeNegation) :
    ∃ r ∈ rules, .unary .negate ∈ r.2.identity ∧ r.2.before = before := by
  simp only [rules, List.mem_cons, exists_eq_or_imp, mem_identity, rule_before]
  cases h <;> (subst before; simp [negation, beforeNegation])

-- No minus is tried as a subtraction before it is tried as a negation.
theorem negation_first : rules.Pairwise fun r r' =>
    ¬(.binary .subtract ∈ r.2.identity ∧ .unary .negate ∈ r'.2.identity) := by
  simp only [rules, List.pairwise_cons, List.forall_mem_cons, mem_identity, List.not_mem_nil,
    false_imp_iff, implies_true, and_true, List.Pairwise.nil]
  and_intros <;> decide

theorem not_subtract_of_negate : ∀ r ∈ rules, .unary .negate ∈ r.2.identity →
    .binary .subtract ∉ r.2.identity := by
  simp only [rules, List.forall_mem_cons, mem_identity, List.not_mem_nil, false_imp_iff,
    implies_true, and_true]
  and_intros <;> decide

section

variable {front : Option Kind} {k l : Kind}

theorem mem_follow (h : k.lead ∈ (follow front).map Kind.lead) (hn : k.lead ≠ .none)
    (hm : k.lead ≠ .minus) : k ∈ follow front := by
  cases front
  case none   => revert k; decide
  case some l => revert l k; decide

theorem lead_mem_follow_none :
    ∀ k : Kind, k.lead ≠ .none → k.lead ∈ (follow none).map Kind.lead := by
  decide

theorem minus_mem_follow (hk : k.lead = .minus) (h : k ∈ follow front) :
    k = .unary .negate ∧ .unary .negate ∈ follow front ∨
      k = .binary .subtract ∧ .unary .negate ∉ follow front := by
  cases front
  case none   => revert k; decide
  case some l => revert l k; decide

theorem subtract_mem_follow (h : .minus ∈ (follow front).map Kind.lead)
    (hn : .unary .negate ∉ follow front) : .binary .subtract ∈ follow front := by
  cases front
  case none   => revert h hn; decide
  case some l => revert l; decide

theorem negate_mem_follow_iff : ∀ k : Kind, .unary .negate ∈ follow (some k) ↔
    k.lead ∈ beforeNegation.map Kind.lead := by
  decide

end

end Reckoner.Standard
