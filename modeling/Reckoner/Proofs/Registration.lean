import Mathlib.Data.List.Nodup
import Reckoner.Proofs.Division
import Reckoner.Proofs.Selection

namespace Reckoner

open Standard

namespace Standard

theorem name_of_negate : ∀ r ∈ rules, .unary .negate ∈ r.2.identity →
    r.1 = "ul_operator" ∨ r.1 = "ul_start_operator" := by
  simp only [rules, List.forall_mem_cons, mem_identity, List.not_mem_nil, false_imp_iff,
    implies_true, and_true]
  and_intros <;> decide

theorem name_of_subtract : ∀ r ∈ rules, .binary .subtract ∈ r.2.identity → r.1 = "b_operator" := by
  simp only [rules, List.forall_mem_cons, mem_identity, List.not_mem_nil, false_imp_iff,
    implies_true, and_true]
  and_intros <;> decide

theorem eq_of_name {r r' : String × Rule} (hr : r ∈ rules) (hr' : r' ∈ rules) (h : r.1 = r'.1) :
    r = r' :=
  List.inj_on_of_nodup_map (by decide : ruleNames.Nodup) hr hr' h

end Standard

namespace Rule.TakesAs

variable {rule rule' : String × Rule} {k k' : Kind} {ahead : List Char} {n n' : Nat}

theorem bounds {r : Rule} (h : r.TakesAs k ahead n) : 0 < n ∧ n ≤ ahead.length :=
  have ⟨_, _, _, _, hk⟩ := h
  have ⟨hp, hb, _, _⟩ := length?_eq_some (unanchored_of_length? hk) hk
  ⟨hp, hb⟩

theorem lexeme {f : Option Kind} (h : rule.2.TakesAs k ahead n) (hr : rule ∈ rules)
    (hf : k ∈ follow f) : Lexeme f k (ahead.take n) (ahead.drop n) := by
  have ⟨ha, hl⟩ := after_eq rule hr k h.mem_identity
  have ⟨_, _, _, _, hk⟩ := h
  have ⟨_, _, hw, hb⟩ := length?_eq_some (unanchored_of_length? hk) hk
  have he := (by decide : ∀ k : Kind, k.lead ≠ .none → (follow (some k)).isEmpty = false) k hl
  rw [fitsAhead, ha, he, Bool.false_or] at hb
  exact ⟨hf, hl, hw, hb⟩

theorem unique (h : rule.2.TakesAs k ahead n) (h' : rule'.2.TakesAs k' ahead n') (hr : rule ∈ rules)
    (hr' : rule' ∈ rules) : k = k' ∧ n = n' ∨ k = .unary .negate ∧ k' = .binary .subtract ∨
      k = .binary .subtract ∧ k' = .unary .negate := by
  have hl := (after_eq rule hr k h.mem_identity).right
  have hl' := (after_eq rule' hr' k' h'.mem_identity).right
  have he : ahead.take n ++ ahead.drop n = ahead.take n' ++ ahead.drop n' := by
    rw [List.take_append_drop, List.take_append_drop]
  have same {f : Option Kind} (hf : k ∈ follow f) (hf' : k' ∈ follow f) : k = k' ∧ n = n' := by
    have ⟨hk, hw⟩ := (h.lexeme hr hf).unique (h'.lexeme hr' hf') he
    refine ⟨hk, ?_⟩
    rw [← List.length_take_of_le h.bounds.right, hw, List.length_take_of_le h'.bounds.right]
  -- Every kind may come first, but for a subtraction.
  have first := (by decide : ∀ k : Kind, k.lead ≠ .none → k ∈ follow none ∨ k = .binary .subtract)
  have negate := (by decide : ∀ k ∈ follow none, k.lead = .minus → k = .unary .negate)
  rcases first k hl with hf | hs <;> rcases first k' hl' with hf' | hs'
  case inl.inl => exact .inl (same hf hf')
  case inr.inr =>
    exact .inl (same (f := some .number) (hs ▸ by decide) (hs' ▸ by decide))
  case inl.inr =>
    subst hs'
    have hm := (h.lexeme hr hf).lead_eq (h'.lexeme (f := some .number) hr' (by decide)) he
    exact .inr (.inl ⟨negate k hf hm, rfl⟩)
  case inr.inl =>
    subst hs
    have hm := (h'.lexeme hr' hf').lead_eq (h.lexeme (f := some .number) hr (by decide)) he.symm
    exact .inr (.inr ⟨rfl, negate k' hf' hm⟩)

end Rule.TakesAs

namespace Grammar

-- Standard rules in any order, as long as both rules of negation come in front of the rule of
-- subtraction if that is among them.
structure Admissible (g : Grammar) : Prop where
  standard : g.rules ⊆ Standard.rules
  negation : "b_operator" ∈ g.names →
    ["ul_operator", "ul_start_operator"] ⊆ g.names.takeWhile (· ≠ "b_operator")

section

variable {g h : Grammar} {rule : String × Rule} {offset n : Nat} {behind ahead w s : List Char}
  {t : Token}

theorem mem_of_mem_takeWhile {name other : String} {before after : List String}
    (h : name ∈ (before ++ other :: after).takeWhile (· ≠ other)) : name ∈ before := by
  rw [List.takeWhile_append] at h
  split at h
  case isTrue  => simpa using h
  case isFalse => exact (List.takeWhile_sublist _).subset h

theorem Admissible.negation_eq_none (hg : g.Admissible)
    (hf : g.first? behind ahead = some (rule, n)) (hs : .binary .subtract ∈ rule.2.identity) :
    ∀ r ∈ Standard.rules, .unary .negate ∈ r.2.identity → r.2.match? behind ahead = none := by
  intro r hr hn
  rcases cases_of_first? hf with ⟨before, after, hrules, _, hb⟩ | ⟨rfl, _⟩
  case inr => exact absurd hs (by decide)
  case inl =>
    have hname := name_of_subtract rule (hg.standard (by simp [hrules])) hs
    have hnames : g.names = before.map (·.1) ++ "b_operator" :: after.map (·.1) := by
      rw [names, hrules, List.map_append, List.map_cons, hname]
    have hn := hg.negation (by simp [hnames]) <|
      by simpa using name_of_negate r hr hn
    rw [hnames] at hn
    have hm : r.1 ∈ before.map (·.1) := mem_of_mem_takeWhile hn
    have ⟨r', hr', he⟩ := List.mem_map.mp hm
    have hs' : r' ∈ Standard.rules := hg.standard <| hrules ▸ List.mem_append_left _ hr'
    exact eq_of_name hs' hr he ▸ hb r' hr'

theorem first?_extends (hg : g.Admissible) (hh : h.Admissible) (hs : g.rules ⊆ h.rules)
    (hf : g.first? behind ahead = some (rule, n)) (hr : rule ∈ g.rules) :
    ∃ rule' k, h.first? behind ahead = some (rule', n) ∧ rule.2.TakesAs k ahead n ∧
      rule'.2.TakesAs k ahead n := by
  have ⟨_, _, _, hm, _⟩ := first?_eq_some hf
  have ⟨rule', hr', n', hf'⟩ := first?_of_match? (hs hr) (Option.isSome_of_eq_some hm)
  have ⟨_, _, _, hm', _⟩ := first?_eq_some hf'
  have ⟨_, k, hk⟩ := Rule.match?_eq_some_iff.mp hm
  have ⟨_, k', hk'⟩ := Rule.match?_eq_some_iff.mp hm'
  rcases hk.unique hk' (hg.standard hr) (hh.standard hr') with ⟨rfl, rfl⟩ | ⟨rfl, rfl⟩ | ⟨rfl, rfl⟩
  case inl     => exact ⟨rule', k, hf', hk, hk'⟩
  case inr.inl =>
    have hn := hh.negation_eq_none hf' hk'.mem_identity rule (hg.standard hr) hk.mem_identity
    exact absurd (hn.symm.trans hm) nofun
  case inr.inr =>
    have hn := hg.negation_eq_none hf hk.mem_identity rule' (hh.standard hr') hk'.mem_identity
    exact absurd (hn.symm.trans hm') nofun

theorem token_extends (hg : g.Admissible) (hh : h.Admissible) (hs : g.rules ⊆ h.rules)
    (hf : g.first? behind (w ++ s) = some (rule, w.length))
    (ht : (Match.of rule offset w).token = .ok t) (hr : t.kind ≠ .anything ∨ h.rules ⊆ g.rules) :
    ∃ rule', h.first? behind (w ++ s) = some (rule', w.length) ∧
      (Match.of rule' offset w).token = .ok t := by
  rcases cases_of_first? hf with ⟨before, after, hrules, _, _⟩ | ⟨rfl, hn⟩
  case inl =>
    have ⟨rule', k, hf', hk, hk'⟩ := first?_extends hg hh hs hf (by simp [hrules])
    have hw : (w ++ s).take w.length = w := List.take_left
    rw [← hw] at ht
    have ht' : (Match.of rule' offset _).token = .ok t := hk.token_eq_ok hk' ht
    exact ⟨rule', hf', hw ▸ ht'⟩
  case inr =>
    rcases hr with hr | hr
    case inl =>
      have ⟨hk, _, _⟩ := Token.make_eq_ok.mp ht
      have hm : (Match.of (reserved, .catchAll) offset w).kind ∈ [.anything] :=
        Match.kind_mem (hk ▸ hr)
      exact absurd (hk.trans <| List.mem_singleton.mp hm) hr
    case inr =>
      rw [first?_of_forall_none hn] at hf
      exact ⟨_, (first?_of_forall_none fun r h => hn r (hr h)).trans hf, ht⟩

end

-- More standard rules do not change how a text is read in which everything was recognized, and their
-- order does not change how any text is read.
theorem tokenize_extends {g h : Grammar} (hg : g.Admissible) (hh : h.Admissible)
    (hs : g.rules ⊆ h.rules) (s : List Char) (checks checks' : List Check) :
    ∃ ts, (Lexer.mk g checks).tokenize s = .ok ts ∧
      ((∀ t ∈ ts, t.kind ≠ .anything) ∨ h.rules ⊆ g.rules →
        (Lexer.mk h checks').tokenize s = .ok ts) := by
  have hd := g.divides 0 [] s
  have ⟨ts, hts, _⟩ := hd.exists_tokens
  refine ⟨ts, hts, fun hr => hd.tokens_of_first? hts fun _ _ _ _ _ t ht _ hf htoken => ?_⟩
  exact token_extends hg hh hs hf htoken <| hr.imp_left (· t ht)

theorem tokenize_extends_operators :
    let g : Grammar := ⟨Standard.rules.drop 6 ++ Standard.rules.take 6⟩
    let f : Token := ⟨.function .max, "max", ⟨0, 3⟩, by decide⟩
    let o : Token := ⟨.opening, "(", ⟨3, 4⟩, by decide⟩
    let a : Token := ⟨.number, "1", ⟨4, 5⟩, by decide⟩
    let s : Token := ⟨.separator, ",", ⟨5, 6⟩, by decide⟩
    let n : Token := ⟨.unary .negate, "-", ⟨6, 7⟩, by decide⟩
    let b : Token := ⟨.number, "2", ⟨7, 8⟩, by decide⟩
    let c : Token := ⟨.closing, ")", ⟨8, 9⟩, by decide⟩
    Lexer.standard.grammar.Admissible ∧ g.Admissible ∧ Standard.rules ⊆ g.rules ∧
    Lexer.standard.tokenize "max(1,-2)".toList = .ok [f, o, a, s, n, b, c] ∧
    (Lexer.mk g []).tokenize "max(1,-2)".toList = .ok [f, o, a, s, n, b, c] := by
  intro g f o a s n b c
  have hp : g.rules.Perm Standard.rules := by
    have hp : g.rules.Perm (Standard.rules.take 6 ++ Standard.rules.drop 6) := List.perm_append_comm
    rwa [List.take_append_drop] at hp
  have hg : g.Admissible := ⟨hp.subset, by decide⟩
  have hs : Lexer.standard.grammar.Admissible := ⟨List.Subset.refl _, by decide⟩
  have ho : Ordered none [f, o, a, s, n, b, c] := by simp only [Ordered]; decide
  have hl : Laid 0 [f, o, a, s, n, b, c] :=
    ⟨by decide, by decide, by decide, by decide, by decide, by decide, by decide, trivial⟩
  have hw : spelling [f, o, a, s, n, b, c] = "max(1,-2)".toList := by decide
  have ⟨ht, hk⟩ := (Lexer.tokenize_iff (by decide)).mpr ⟨ho, hl, hw⟩
  have ⟨ts, hts, hgs⟩ := tokenize_extends hs hg hp.symm.subset "max(1,-2)".toList Checks.standard []
  cases ht.symm.trans hts
  exact ⟨hs, hg, hp.symm.subset, ht, hgs (.inl hk)⟩

end Grammar

end Reckoner
