import Reckoner.Proofs.Division

namespace Reckoner

namespace Text

def juxtaposed : List Char → Nat
  | c :: d :: s => (if c = '!' ∧ d.isDigit then 1 else 0) + juxtaposed (d :: s)
  | _           => 0

variable {s w : List Char} {c : Char}

theorem juxtaposed_cons (h : c ≠ '!') : juxtaposed (c :: s) = juxtaposed s := by
  cases s <;> simp [juxtaposed, h]

theorem juxtaposed_append (h : '!' ∉ w) : juxtaposed (w ++ s) = juxtaposed s := by
  induction w
  case nil         => rfl
  case cons c w hi =>
    rw [List.mem_cons, not_or] at h
    rw [List.cons_append, juxtaposed_cons (Ne.symm h.left), hi h.right]

theorem juxtaposed_eq_zero_iff : juxtaposed s = 0 ↔ ∀ d, d.isDigit → ¬['!', d] <:+: s := by
  induction s
  case nil         => simp [juxtaposed]
  case cons c s hi =>
    cases s
    case nil      => simp [juxtaposed, List.infix_cons_iff]
    case cons e s =>
      rw [juxtaposed, Nat.add_eq_zero_iff, hi]
      simp only [List.infix_cons_iff (a := c), List.cons_prefix_cons, not_or]
      grind

end Text

namespace Lead

variable {c : Char}

theorem of_eq_digit_iff : Lead.of c = .digit ↔ c.isDigit := by
  refine ⟨fun h => ?_, Kind.lead_of_isDigit⟩
  unfold Lead.of at h
  split at h
  case isTrue hd => exact hd
  case isFalse   => split at h <;> (try split at h) <;> contradiction

def trailing : List Char :=
  ['+', '*', '/', '%', '^', '!']

theorem of_trailing_iff : Lead.of c = .operator ∨ Lead.of c = .bang ↔ c ∈ trailing := by
  constructor
  case mp =>
    intro h
    unfold Lead.of at h
    split at h
    case isTrue  => simp at h
    case isFalse =>
      split at h
      case isTrue  => simp at h
      case isFalse => split at h <;> first | decide | (simp at h)
  case mpr =>
    exact fun h => of_decide_eq_true <| List.all_eq_true.mp
      (by decide : trailing.all fun c => Lead.of c = .operator ∨ Lead.of c = .bang) c h

end Lead

def juxtapositions : List Token → Nat
  | t :: u :: ts =>
    (if t.kind = .unary .factorial ∧ u.kind = .number then 1 else 0) + juxtapositions (u :: ts)
  | _            => 0

section

variable {front : Option Kind} {t : Token} {ts : List Token}

theorem not_mem_text_of_ne (ho : Ordered front (t :: ts)) (ht : t.kind ≠ .unary .factorial) :
    '!' ∉ t.text.toList := by
  have hm := (by decide : ∀ k : Kind, k.lead ≠ .none → k ≠ .unary .factorial →
    k.pattern.mentions '!' = false) t.kind ho.right.left ht
  intro hc
  rw [Pattern.mentions_of_spells (t.spells ho.right.left) hc] at hm
  contradiction

theorem juxtaposed_spelling (ho : Ordered front ts) :
    Text.juxtaposed (spelling ts) = juxtapositions ts := by
  induction ts generalizing front
  case nil          => rfl
  case cons t ts hi =>
    rw [spelling_cons]
    by_cases ht : t.kind = .unary .factorial
    case neg =>
      rw [Text.juxtaposed_append (not_mem_text_of_ne ho ht), hi ho.right.right]
      cases ts <;> simp [juxtapositions, ht]
    case pos =>
      have hs := t.spells ho.right.left
      rw [ht] at hs
      have hw : t.text.toList = ['!'] := (Kind.spells_sign_iff (by decide) (by decide)).mp hs
      rw [hw, List.singleton_append]
      cases ts
      case nil       => rfl
      case cons u ts =>
        have ⟨c, s, hc, hl⟩ := exists_cons_of_ordered ho.right.right
        have hd : c.isDigit ↔ u.kind = .number := by
          rw [← Lead.of_eq_digit_iff, hl]
          exact ⟨Kind.eq_number_of_lead u.kind, fun h => h ▸ rfl⟩
        have hs := hi ho.right.right
        rw [hc] at hs ⊢
        simp [Text.juxtaposed, juxtapositions, ht, hd, hs]

end

end Reckoner
