import Reckoner.Proofs.Division

namespace Reckoner

open Standard

-- Whether an operand is to come, behind a kind or at the beginning of a text.
def awaitsOperand : Option Kind → Bool
  | none | some .opening | some .separator | some (.binary _) | some (.unary .negate) => true
  | _                                                                                 => false

section

variable {front : Option Kind} {k : Kind} {t u : Token} {ts before after : List Token}
  {ms : List Match}

theorem awaitsOperand_iff : awaitsOperand front ↔ .unary .negate ∈ follow front := by
  cases front
  case none   => decide
  case some k => revert k; decide

theorem sign_eq (hk : k.lead = .minus) (h : k ∈ follow front) :
    k = if awaitsOperand front then .unary .negate else .binary .subtract := by
  cases minus_mem_follow hk h
  case inl hn => rw [if_pos (awaitsOperand_iff.mpr hn.right), hn.left]
  case inr hs => rw [if_neg (hs.right <| awaitsOperand_iff.mp ·), hs.left]

theorem Token.lead_of_minus (h : t.kind.lead ≠ .none) (ht : t.text = "-") : t.kind.lead = .minus := by
  have ⟨c, w, hw, hc⟩ := Kind.exists_cons_of_spells h (t.spells h)
  rw [ht] at hw
  cases hw
  exact hc.symm

namespace Linked

variable (h : Linked front ms ts)

include h

theorem mem_follow (hts : ts = before ++ t :: after) (hk : t.kind ≠ .anything) :
    t.kind ∈ follow ((before.getLast?.map (·.kind)).or front) ∧ t.kind.lead ≠ .none := by
  induction h generalizing before
  case done => simp at hts
  case stray hs =>
    cases before
    case nil      => exact absurd ((List.cons.inj hts).left ▸ hs) hk
    case cons _ b => simp at hts
  case next hf hn _ _ _ _ hi =>
    cases before
    case nil =>
      obtain ⟨rfl, _⟩ := List.cons.inj hts
      exact ⟨hf, hn⟩
    case cons v before =>
      obtain ⟨rfl, he⟩ := List.cons.inj hts
      have hm := hi he
      rw [List.getLast?_cons]
      cases hb : before.getLast? <;> (rw [hb] at hm; exact hm)

theorem mem_after (hts : ts = before ++ t :: u :: after) (hk : u.kind ≠ .anything) :
    ∃ m r, ms[before.length]? = some m ∧ m.token = .ok t ∧ (m.rule, r) ∈ rules ∧
      u.kind ∈ r.after := by
  induction h generalizing before
  case done => simp at hts
  case stray => cases before <;> simp at hts
  case next m _ r _ _ _ _ hm hr ha hl hi =>
    cases before
    case nil =>
      obtain ⟨rfl, he⟩ := List.cons.inj hts
      have ⟨hf, _⟩ := hl.mem_follow (show _ = [] ++ u :: after from he) hk
      exact ⟨m, r, rfl, hm, hr, ha ▸ hf⟩
    case cons v before =>
      exact hi (List.cons.inj hts).right

end Linked

end

-- The place of every minus in a text tells which operator it is, and the rule that took a token
-- tells of which kinds the next token may be.
theorem Lexer.tokenize_standard_signs (expression : String) :
    ∃ ts, Lexer.standard.tokenize (Text.stripped expression.toList) = .ok ts ∧
      (∀ before t after, ts = before ++ t :: after → t.text = "-" → t.kind ≠ .anything →
        t.kind = if awaitsOperand (before.getLast?.map (·.kind)) then .unary .negate
          else .binary .subtract) ∧
      ∀ before t u after, ts = before ++ t :: u :: after → u.kind ≠ .anything →
        ∃ m r, (Lexer.standard.grammar.find <| Text.stripped expression.toList)[before.length]? =
          some m ∧ m.token = .ok t ∧ (m.rule, r) ∈ rules ∧ u.kind ∈ r.after := by
  have hd := Lexer.standard.grammar.divides 0 [] (Text.stripped expression.toList)
  have ⟨ts, hts, _⟩ := hd.exists_tokens
  have hl := linked_of_divides hd .start Text.not_mem_stripped hts
  refine ⟨ts, hts, fun before t after h ht hk => ?_, fun _ _ _ _ h hk => hl.mem_after h hk⟩
  have ⟨hf, hn⟩ := hl.mem_follow h hk
  rw [Option.or_none] at hf
  exact sign_eq (Token.lead_of_minus hn ht) hf

theorem Lexer.tokenize_standard_signs_difference :
    let n : Token := ⟨.number, "2", ⟨0, 1⟩, by decide⟩
    let s : Token := ⟨.binary .subtract, "-", ⟨1, 2⟩, by decide⟩
    let m : Token := ⟨.unary .negate, "-", ⟨2, 3⟩, by decide⟩
    let k : Token := ⟨.number, "3", ⟨3, 4⟩, by decide⟩
    Lexer.standard.tokenize (Text.stripped "2 - -3".toList) = .ok [n, s, m, k] ∧
    s.kind = (if awaitsOperand (some .number) then .unary .negate else .binary .subtract) ∧
    m.kind = (if awaitsOperand (some (.binary .subtract)) then .unary .negate
      else .binary .subtract) ∧
    ∃ f r, (Lexer.standard.grammar.find <| Text.stripped "2 - -3".toList)[1]? = some f ∧
      f.token = .ok s ∧ (f.rule, r) ∈ rules ∧ .unary .negate ∈ r.after := by
  intro n s m k
  have ho : Ordered none [n, s, m, k] := by simp only [Ordered]; decide
  have hd : Laid 0 [n, s, m, k] := ⟨by decide, by decide, by decide, by decide, trivial⟩
  have hw : spelling [n, s, m, k] = Text.stripped "2 - -3".toList := by decide
  have ⟨ht, _⟩ := (Lexer.tokenize_iff Text.not_mem_stripped).mpr ⟨ho, hd, hw⟩
  have ⟨ts, hts, hm, ha⟩ := tokenize_standard_signs "2 - -3"
  cases ht.symm.trans hts
  exact ⟨ht, hm [n] s [m, k] rfl rfl (by decide), hm [n, s] m [k] rfl rfl (by decide),
    ha [n] s m [k] rfl (by decide)⟩

end Reckoner
