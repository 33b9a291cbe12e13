import Reckoner.Lexer
import Reckoner.Proofs.Adjacency

namespace Reckoner

open Standard

def Kind.Precedes (k : Kind) (rest : List Char) : Prop :=
  (follow (some k)).any (·.pattern.opens rest)

inductive Between : Option Kind → List Char → List Char → Prop
  | start {ahead} : Between none [] ahead
  | after {k w behind ahead} : k.lead ≠ .none → k.pattern.Spells w → k.Precedes ahead →
                               Between (some k) (w.reverse ++ behind) ahead

-- A lexeme of a kind that may come at a place, so that the rest of the text may come behind it.
structure Lexeme (front : Option Kind) (k : Kind) (w rest : List Char) : Prop where
  follows  : k ∈ follow front
  lead     : k.lead ≠ .none
  spells   : k.pattern.Spells w
  precedes : k.Precedes rest

section

variable {front : Option Kind} {k k' : Kind} {behind ahead w w' rest rest' : List Char} {c : Char}
  {rule : String × Rule} {n : Nat} {g : Grammar}

namespace Kind.Precedes

theorem cases (h : k.Precedes rest) : rest = [] ∧ .textEnd ∈ follow (some k) ∨
    ∃ c s, rest = c :: s ∧ Lead.of c ∈ (follow (some k)).map Kind.lead ∧ Lead.of c ≠ .none := by
  obtain ⟨l, hl, ho⟩ := List.any_eq_true.mp h
  by_cases hn : l.lead = .none
  · have he : l = .textEnd :=
      (by decide : ∀ k : Kind, ∀ l ∈ follow (some k), l.lead = .none → l = .textEnd) k l hl hn
    subst he
    refine .inl ⟨?_, hl⟩
    simpa [Pattern.opens, Kind.pattern, Pattern.reads, Pattern.Cursor.at] using ho
  · obtain ⟨w, s, hw, hs⟩ := (Pattern.opens_iff (Kind.unanchored_of_lead l hn)).mp ho
    obtain ⟨c, u, hc, hd⟩ := Kind.exists_cons_of_spells hn hw
    subst hc
    exact .inr ⟨c, u ++ s, hs, hd ▸ List.mem_map_of_mem hl, hd ▸ hn⟩

theorem head (h : k.Precedes rest) (hc : c ∈ rest.head?) :
    Lead.of c ∈ (follow (some k)).map Kind.lead ∧ Lead.of c ≠ .none := by
  cases h.cases
  case inl h => simp [h.left] at hc
  case inr h =>
    have ⟨d, s, hs, hd⟩ := h
    subst hs
    cases hc
    exact hd

end Kind.Precedes

namespace Between

theorem lead_mem_follow (hb : Between front behind (c :: rest)) (hc : Lead.of c = k.lead)
    (hk : k.lead ≠ .none) : k.lead ∈ (follow front).map Kind.lead := by
  cases hb
  case start       => exact lead_mem_follow_none k hk
  case after _ _ h => exact hc ▸ (h.head rfl).left

theorem negation_iff (hb : Between front behind ahead) :
    (∃ r ∈ rules, .unary .negate ∈ r.2.identity ∧ r.2.fitsBehind behind) ↔
      .unary .negate ∈ follow front := by
  constructor
  case mp =>
    rintro ⟨r, hr, hn, hf⟩
    cases hb
    case start => decide
    case after k w behind hk hw _ =>
      obtain ⟨u, c, hw, hkc⟩ := Kind.exists_concat_of_spells hk hw
      subst hw
      cases before_of_negate r hr hn
      case inl h =>
        simp [Rule.fitsBehind, h, Pattern.closes, Pattern.opens, Kind.pattern, Pattern.reverse,
          Pattern.reads, Pattern.Cursor.at] at hf
      case inr h =>
        simp only [Rule.fitsBehind, h] at hf
        obtain ⟨l, hl, hc⟩ := List.any_eq_true.mp hf
        have hn := (by decide : ∀ l ∈ beforeNegation, l.lead ≠ .none) l hl
        obtain ⟨v, s, hv, hs⟩ := (Pattern.closes_iff (Kind.unanchored_of_lead l hn)).mp hc
        obtain ⟨v, d, hv, hld⟩ := Kind.exists_concat_of_spells hn hv
        subst hv
        have hcd : c = d := by simpa using congrArg (·.head?) hs
        subst hcd
        rw [negate_mem_follow_iff, ← hkc, hld]
        exact List.mem_map_of_mem hl
  case mpr =>
    intro h
    cases hb
    case start =>
      obtain ⟨r, hr, hn, hb⟩ := exists_negation (.inl rfl)
      exact ⟨r, hr, hn, by rw [Rule.fitsBehind, hb]; rfl⟩
    case after k w behind hk hw _ =>
      obtain ⟨r, hr, hn, hb⟩ := exists_negation (.inr rfl)
      refine ⟨r, hr, hn, ?_⟩
      -- A minus in front reads as a subtraction, whatever it is.
      obtain ⟨l, hl, hp⟩ : ∃ l ∈ beforeNegation, l.pattern = k.pattern := by
        have hk := (by decide : ∀ k : Kind, .unary .negate ∈ follow (some k) →
          k ∈ beforeNegation ∨ k = .unary .negate) k h
        cases hk
        case inl hk => exact ⟨k, hk, rfl⟩
        case inr hk => exact ⟨.binary .subtract, by decide, hk ▸ rfl⟩
      have hu := hp ▸ Kind.unanchored_of_lead k hk
      rw [Rule.fitsBehind, hb, List.any_eq_true.mpr, Bool.or_true]
      exact ⟨l, hl, (Pattern.closes_iff hu).mpr ⟨w, behind, hp ▸ hw, rfl⟩⟩

end Between

namespace Lexeme

theorem between (h : Lexeme front k w rest) : Between (some k) (w.reverse ++ behind) rest :=
  .after h.lead h.spells h.precedes

theorem length? (h : Lexeme front k w rest) : k.pattern.length? (w ++ rest) = some w.length := by
  by_cases hk : k = .number
  · subst hk
    have hr : ∀ c ∈ rest.head?, ¬c.isDigit ∧ c ≠ '.' ∧ ¬Text.sameLetter 'e' c := by
      intro c hc
      have ⟨hl, hn⟩ := h.precedes.head hc
      refine ⟨fun hd => ?_, fun he => hn (he ▸ by decide), fun he => ?_⟩
      · exact absurd (Kind.lead_of_isDigit hd ▸ hl) (by decide)
      · have he := Text.isLetter_of_sameLetter he (by decide)
        exact absurd (Kind.lead_of_isLetter he ▸ hl) (by decide)
    exact (Kind.prefers_numeral h.spells hr).elim fun _ hf => hf.length?
  · have hs := (by decide : ∀ k : Kind, k.lead ≠ .none → k ≠ .number → k.pattern.single) k h.lead hk
    exact (Pattern.Prefers.of_single hs h.spells).length?

theorem word_eq (h : Lexeme front k w rest) (hk : k.lead = .letter) :
    w = (w ++ rest).takeWhile Text.isLetter := by
  have hr : rest.takeWhile Text.isLetter = [] := by
    cases rest
    case nil      => rfl
    case cons c s =>
      refine List.takeWhile_cons_of_neg fun hc => ?_
      have hl := Kind.lead_of_isLetter hc ▸ (h.precedes.head rfl).left
      exact (by decide : ∀ k : Kind, k.lead = .letter →
        .letter ∉ (follow (some k)).map Kind.lead) k hk hl
  rw [List.takeWhile_append_of_pos (Kind.isLetter_of_spells hk h.spells), hr, List.append_nil]

theorem lead_eq {front' : Option Kind} (h : Lexeme front k w rest) (h' : Lexeme front' k' w' rest')
    (he : w ++ rest = w' ++ rest') : k.lead = k'.lead := by
  have ⟨c, u, hw, hc⟩ := Kind.exists_cons_of_spells h.lead h.spells
  have ⟨c', u', hw', hc'⟩ := Kind.exists_cons_of_spells h'.lead h'.spells
  have hcc : c = c' := by simpa [hw, hw'] using congrArg (·.head?) he
  rw [← hc, hcc, hc']

theorem kind_unique (h : Lexeme front k w rest) (h' : Lexeme front k' w' rest')
    (he : w ++ rest = w' ++ rest') : k = k' := by
  have ⟨c, u, hw, _⟩ := Kind.exists_cons_of_spells h.lead h.spells
  have hl : k.lead = k'.lead := h.lead_eq h' he
  have of_word (hm : k.lead ≠ .minus) (he : w = w') : k = k' :=
    Kind.eq_of_spells h.lead h'.lead hm (hw ▸ h.spells) (hw ▸ he ▸ h'.spells)
  by_cases hd : k.lead = .digit
  · rw [Kind.eq_number_of_lead k hd, Kind.eq_number_of_lead k' (hl ▸ hd)]
  by_cases hw : k.lead = .letter
  · refine of_word (by rw [hw]; decide) ?_
    rw [h.word_eq hw, h'.word_eq (hl ▸ hw), he]
  by_cases hm : k.lead = .minus
  · have hf := minus_mem_follow hm h.follows
    have hf' := minus_mem_follow (hl ▸ hm) h'.follows
    grind
  · refine of_word hm <| (List.append_inj he ?_).left
    rw [Kind.length_of_spells hd hw h.lead h.spells,
      Kind.length_of_spells (hl ▸ hd) (hl ▸ hw) h'.lead h'.spells]

-- There is one way to go on at a place.
theorem unique (h : Lexeme front k w rest) (h' : Lexeme front k' w' rest')
    (he : w ++ rest = w' ++ rest') : k = k' ∧ w = w' := by
  have hk := h.kind_unique h' he
  subst hk
  have hn : w.length = w'.length := Option.some.inj <| by rw [← h.length?, he, h'.length?]
  exact ⟨rfl, (List.append_inj he hn).left⟩

theorem exists_match? (hb : Between front behind (w ++ rest)) (h : Lexeme front k w rest) :
    ∃ r ∈ rules, k ∈ r.2.identity ∧ (r.2.match? behind (w ++ rest)).isSome := by
  have ⟨r, hr, hk, hf⟩ : ∃ r ∈ rules, k ∈ r.2.identity ∧ r.2.fitsBehind behind := by
    by_cases hn : k = .unary .negate
    · exact hn ▸ hb.negation_iff.mpr (hn ▸ h.follows)
    · have ⟨r, hr, hk, hb⟩ := exists_rule k h.lead hn
      exact ⟨r, hr, hk, by rw [Rule.fitsBehind, hb]; rfl⟩
  have ha : r.2.fitsAhead rest := by
    rw [Rule.fitsAhead, (after_eq r hr k hk).left, show _ = true from h.precedes, Bool.or_true]
  exact ⟨r, hr, hk, Rule.match?_isSome hf hk <|
    Rule.length?_of_fitsAhead h.length? (Kind.ne_nil_of_spells h.lead h.spells) ha⟩

end Lexeme

theorem negation_eq_none (h : (Grammar.mk rules).first? behind ahead = some (rule, n))
    (hs : .binary .subtract ∈ rule.2.identity) :
    ∀ r ∈ rules, .unary .negate ∈ r.2.identity → r.2.match? behind ahead = none := by
  intro r hr hn
  have ⟨before, after, hg, _, hb⟩ := Grammar.first?_eq_some h
  have hp := List.pairwise_append.mpr
    ⟨negation_first, List.pairwise_singleton _ (Grammar.reserved, Rule.catchAll), by
      rintro _ _ _ hc ⟨_, hn⟩
      rw [List.mem_singleton.mp hc] at hn
      contradiction⟩
  have hm : r ∈ before ++ rule :: after := hg ▸ List.mem_append_left _ hr
  rw [show rules ++ _ = _ from hg] at hp
  simp only [List.mem_append, List.mem_cons] at hm
  rcases hm with hm | hm | hm
  · exact hb r hm
  · subst hm
    exact absurd hs (not_subtract_of_negate r hr hn)
  · have hp := (List.pairwise_cons.mp (List.pairwise_append.mp hp).right.left).left
    exact absurd ⟨hs, hn⟩ (hp r hm)

theorem lexeme_of_first? (hb : Between front behind ahead) (hr : rule ∈ rules)
    (h : (Grammar.mk rules).first? behind ahead = some (rule, n)) (hk : k ∈ rule.2.identity)
    (hw : k.pattern.Spells (ahead.take n)) : Lexeme front k (ahead.take n) (ahead.drop n) := by
  have ⟨ha, hn⟩ := after_eq rule hr k hk
  have ⟨_, _, _, hm, _⟩ := Grammar.first?_eq_some h
  have ⟨hf, l, hl, hm⟩ := Rule.match?_eq_some hm
  have hu := Kind.unanchored_of_lead l (after_eq rule hr l hl).right
  have hp : k.Precedes (ahead.drop n) := by
    have hf := (Rule.length?_eq_some hu hm).right.right.right
    have he := (by decide : ∀ k : Kind, k.lead ≠ .none → (follow (some k)).isEmpty = false) k hn
    rwa [Rule.fitsAhead, ha, he, Bool.false_or] at hf
  have ⟨c, u, hc, hd⟩ := Kind.exists_cons_of_spells hn hw
  have hfollow : k.lead ∈ (follow front).map Kind.lead := by
    have hs := List.take_append_drop n ahead
    rw [hc, List.cons_append] at hs
    exact (hs ▸ hb).lead_mem_follow hd hn
  refine ⟨?_, hn, hw, hp⟩
  by_cases hm : k.lead = .minus
  · have hk := (by decide : ∀ k : Kind, k.lead = .minus →
      k = .unary .negate ∨ k = .binary .subtract) k hm
    cases hk
    case inl he => exact he ▸ hb.negation_iff.mp ⟨rule, hr, he ▸ hk, hf⟩
    case inr he =>
      subst he
      refine subtract_mem_follow (hm ▸ hfollow) fun hn => ?_
      have hl : Lexeme front (.unary .negate) (ahead.take n) (ahead.drop n) :=
        ⟨hn, by decide, hw, by
          have ⟨l, hl, ho⟩ := List.any_eq_true.mp hp
          exact List.any_eq_true.mpr
            ⟨l, (by decide : ∀ l ∈ operandStart, l ∈ afterNegation) l hl, ho⟩⟩
      rw [← List.take_append_drop n ahead] at hb
      have ⟨r, hr, hn, hs⟩ := hl.exists_match? hb
      rw [List.take_append_drop] at hs
      rw [negation_eq_none h hk r hr hn] at hs
      contradiction
  · exact mem_follow hfollow hn hm

end

end Reckoner
