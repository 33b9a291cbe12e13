import Reckoner.Kind
import Reckoner.Proofs.Language

namespace Reckoner

namespace Text

variable {c d : Char}

def isLetter (c : Char) : Bool :=
  (fold c).isLower

theorem isLower_of_upper (h : c.val ≥ 'A'.val ∧ c.val ≤ 'Z'.val) (hv) :
    (Char.mk (c.val + ('a'.val - 'A'.val)) hv).isLower := by
  delta Char.isLower
  simp [UInt32.le_iff_toNat_le] at *
  omega

theorem eq_of_sameLetter (hd : fold d = d) (hl : ¬isLetter d) (h : sameLetter d c) : c = d := by
  simp only [sameLetter, hd, beq_iff_eq] at h
  rw [isLetter, hd] at hl
  rw [fold] at h
  split at h
  case isTrue  => subst h; contradiction
  case isFalse =>
    split at h
    case isTrue  => subst h; contradiction
    case isFalse =>
      delta Char.toLower at h
      split at h
      case isFalse   => exact h.symm
      case isTrue hu =>
        subst h
        exact absurd (isLower_of_upper hu _) hl

theorem isLetter_of_sameLetter (h : sameLetter d c) (hd : isLetter d) : isLetter c := by
  simp only [sameLetter, beq_iff_eq] at h
  rwa [isLetter, ← h]

theorem not_isLetter_of_isDigit (h : c.isDigit) : ¬isLetter c := by
  have hs : c ≠ '\u017f' := by rintro rfl; contradiction
  have hk : c ≠ '\u212a' := by rintro rfl; contradiction
  have hl : c.toLower = c := by
    delta Char.toLower
    rw [dif_neg]
    simp [Char.isDigit, UInt32.le_iff_toNat_le] at *
    omega
  simp only [isLetter, fold, hs, hk, if_false, hl]
  delta Char.isLower
  simp [Char.isDigit, UInt32.le_iff_toNat_le] at *
  omega

end Text

inductive Lead where
  | digit
  | letter
  | opening
  | closing
  | comma
  | minus
  | operator
  | bang
  | none
  deriving DecidableEq

def Lead.of (c : Char) : Lead :=
  if c.isDigit then digit
  else if Text.isLetter c then letter
  else match c with
    | '(' | '\x7b' | '['          => opening
    | ')' | '\x7d' | ']'          => closing
    | ','                         => comma
    | '-'                         => minus
    | '+' | '*' | '/' | '%' | '^' => operator
    | '!'                         => bang
    | _                           => none

namespace Kind

theorem mem_catalog (k : Kind) : k ∈ catalog := by
  cases k
  case constant c => cases c <;> decide
  case binary op  => cases op <;> decide
  case unary op   => cases op <;> decide
  case function f => cases f <;> decide
  all_goals decide

instance {p : Kind → Prop} [DecidablePred p] : Decidable (∀ k, p k) :=
  decidable_of_iff (∀ k ∈ catalog, p k) ⟨fun h k => h k k.mem_catalog, fun h k _ => h k⟩

def lead : Kind → Lead
  | number                                => .digit
  | constant _ | function _               => .letter
  | opening                               => .opening
  | closing                               => .closing
  | separator                             => .comma
  | binary .subtract | unary .negate      => .minus
  | binary _                              => .operator
  | unary .factorial                      => .bang
  | textStart | textEnd | anything        => .none

theorem unanchored_of_lead : ∀ k : Kind, k.lead ≠ .none → k.pattern.unanchored := by
  decide

variable {k : Kind} {c : Char} {w : List Char}

theorem spells_word_iff {d : Char} {ds : List Char} :
    (Pattern.word d ds).Spells w ↔ (d :: ds).map Text.fold = w.map Text.fold := by
  induction ds generalizing d w
  case nil =>
    simp only [Pattern.word, Pattern.Spells, CharSet.holds, Text.sameLetter, beq_iff_eq]
    constructor
    case mp =>
      rintro ⟨c, hc, rfl⟩
      simp [hc]
    case mpr =>
      intro h
      have hl : w.length = 1 := by simpa using congrArg List.length h.symm
      obtain ⟨c, hw⟩ := List.length_eq_one_iff.mp hl
      exact ⟨c, by simpa [hw] using h, hw⟩
  case cons e ds hi =>
    simp only [Pattern.word, Pattern.Spells, CharSet.holds, Text.sameLetter, hi, beq_iff_eq]
    constructor
    case mp =>
      rintro ⟨_, v, ⟨c, hc, rfl⟩, hv, rfl⟩
      simp_all
    case mpr =>
      intro h
      cases w
      case nil      => simp at h
      case cons c w =>
        obtain ⟨hc, hw⟩ := List.cons.inj h
        exact ⟨[c], w, ⟨c, hc, rfl⟩, hw, rfl⟩

theorem lead_of_isDigit (h : c.isDigit) : Lead.of c = .digit :=
  if_pos h

theorem lead_of_isLetter (h : Text.isLetter c) : Lead.of c = .letter :=
  (if_neg fun hd => Text.not_isLetter_of_isDigit hd h).trans (if_pos h)

def letters : Kind → List Char
  | constant .pi => ['P', 'I']
  | constant .e  => ['E']
  | function f   => f.letters.1 :: f.letters.2
  | _            => []

theorem spells_letters_iff (h : k.lead = .letter) :
    k.pattern.Spells w ↔ k.letters.map Text.fold = w.map Text.fold := by
  cases k
  case constant a => cases a <;> exact spells_word_iff
  case function f => exact spells_word_iff
  case binary op  => cases op <;> contradiction
  case unary op   => cases op <;> contradiction
  all_goals contradiction

theorem isLetter_letters (k : Kind) : ∀ d ∈ k.letters, Text.isLetter d :=
  List.all_eq_true.mp <| (by decide : ∀ k : Kind, k.letters.all Text.isLetter) k

theorem isLetter_of_spells (h : k.lead = .letter) (hw : k.pattern.Spells w) :
    ∀ c ∈ w, Text.isLetter c := by
  intro c hc
  have hf : Text.fold c ∈ k.letters.map Text.fold :=
    (spells_letters_iff h).mp hw ▸ List.mem_map_of_mem hc
  have ⟨d, hd, hs⟩ := List.mem_map.mp hf
  exact Text.isLetter_of_sameLetter (by simpa [Text.sameLetter] using hs) (isLetter_letters k d hd)

theorem spells_sign_iff {d : Char} (hd : Text.fold d = d) (hl : ¬Text.isLetter d) :
    (Pattern.one <| .char d).Spells w ↔ w = [d] := by
  constructor
  case mp =>
    rintro ⟨e, he, rfl⟩
    rw [Text.eq_of_sameLetter hd hl he]
  case mpr =>
    rintro rfl
    exact ⟨d, Text.sameLetter_refl d, rfl⟩

theorem spells_anything : anything.pattern.Spells w ↔ w ≠ [] ∧ '\n' ∉ w := by
  simp only [pattern, Pattern.Spells, CharSet.holds, bne_iff_ne]
  exact and_congr_right fun _ => ⟨fun h hc => h _ hc rfl, fun h c hc he => h (he ▸ hc)⟩

theorem spells_bracket {cs : List Char} (hc : cs.all fun d => Text.fold d = d && !Text.isLetter d) :
    (Pattern.one <| .among cs).Spells w ↔ ∃ d ∈ cs, w = [d] := by
  constructor
  case mp =>
    intro ⟨e, he, hw⟩
    have ⟨d, hd, hs⟩ := List.any_eq_true.mp he
    have hc := List.all_eq_true.mp hc d hd
    simp only [Bool.and_eq_true, decide_eq_true_eq, Bool.not_eq_true'] at hc
    exact ⟨d, hd, by rw [hw, Text.eq_of_sameLetter hc.left (by simp [hc.right]) hs]⟩
  case mpr =>
    intro ⟨d, hd, hw⟩
    exact ⟨d, List.any_eq_true.mpr ⟨d, hd, Text.sameLetter_refl d⟩, hw⟩

theorem lead_of_spells (hk : k.lead ≠ .none) (h : k.pattern.Spells (c :: w)) :
    Lead.of c = k.lead := by
  cases k
  case number =>
    have ⟨u, v, hu, _, hw⟩ := h
    cases u
    case nil      => exact absurd rfl hu.left
    case cons d u =>
      cases hw
      exact if_pos (hu.right c (List.mem_cons_self))
  case constant | function =>
    exact lead_of_isLetter (isLetter_of_spells rfl h c List.mem_cons_self)
  case opening =>
    have ⟨d, hd, hw⟩ := (spells_bracket (by decide)).mp h
    cases hw
    exact of_decide_eq_true <| List.all_eq_true.mp
      (by decide : ['(', '\x7b', '['].all (Lead.of · = .opening)) c hd
  case closing =>
    have ⟨d, hd, hw⟩ := (spells_bracket (by decide)).mp h
    cases hw
    exact of_decide_eq_true <| List.all_eq_true.mp
      (by decide : [')', '\x7d', ']'].all (Lead.of · = .closing)) c hd
  case separator =>
    cases (spells_sign_iff (by decide) (by decide)).mp h
    rfl
  case binary op =>
    cases op <;> (cases (spells_sign_iff (by decide) (by decide)).mp h; rfl)
  case unary op =>
    cases op <;> (cases (spells_sign_iff (by decide) (by decide)).mp h; rfl)
  all_goals exact absurd rfl hk

theorem eq_number_of_lead : ∀ k : Kind, k.lead = .digit → k = number := by
  decide

theorem length_of_spells (hd : k.lead ≠ .digit) (hl : k.lead ≠ .letter) (hn : k.lead ≠ .none)
    (h : k.pattern.Spells w) : w.length = 1 := by
  have hs : ∃ set, k.pattern = .one set := by
    cases k <;> first | exact ⟨_, rfl⟩ | contradiction
  have ⟨_, hp⟩ := hs
  have ⟨c, _, hw⟩ : ∃ c, _ ∧ w = [c] := hp ▸ h
  exact congrArg List.length hw

theorem ne_nil_of_spells (hk : k.lead ≠ .none) (h : k.pattern.Spells w) : w ≠ [] := by
  rintro rfl
  by_cases hd : k.lead = .digit
  · rw [eq_number_of_lead k hd] at h
    have ⟨u, v, hu, _, hw⟩ := h
    exact hu.left (List.append_eq_nil_iff.mp hw.symm).left
  by_cases hl : k.lead = .letter
  · have hn : k.letters = [] := List.map_eq_nil_iff.mp <| (spells_letters_iff hl).mp h
    exact (by decide : ∀ k : Kind, k.lead = .letter → k.letters ≠ []) k hl hn
  · exact absurd (length_of_spells hd hl hk h) (by simp)

theorem isDigit_of_spells (h : numeral.Spells (w ++ [c])) : c.isDigit := by
  have digits {u v : List Char} (hv : numeral.digits.Spells v) (he : w ++ [c] = u ++ v) :
      c.isDigit := by
    have ⟨t, d, ht⟩ := (List.eq_nil_or_concat v).resolve_left hv.left
    have hd : c = d := by simpa [ht, ← List.append_assoc] using congrArg List.getLast? he
    exact hv.right c (by simp [ht, hd])
  have ⟨u, _, hu, ⟨v, x, hv, hx, he⟩, hw⟩ := h
  rw [he] at hw
  rcases hx with ⟨e, _, _, ⟨s, ds, _, hd, rfl⟩, rfl⟩ | rfl
  · exact digits (u := u ++ v ++ e ++ s) hd (by simpa using hw)
  · rcases hv with ⟨p, ds, _, hd, rfl⟩ | rfl
    · exact digits (u := u ++ p) hd (by simpa using hw)
    · exact digits (u := []) hu (by simpa using hw)

theorem lead_of_spells_concat (hk : k.lead ≠ .none) (h : k.pattern.Spells (w ++ [c])) :
    Lead.of c = k.lead := by
  by_cases hd : k.lead = .digit
  · rw [eq_number_of_lead k hd] at h ⊢
    exact if_pos (isDigit_of_spells h)
  by_cases hl : k.lead = .letter
  · rw [hl]
    exact lead_of_isLetter (isLetter_of_spells hl h c (by simp))
  · have hw := length_of_spells hd hl hk h
    have hn : w = [] := List.eq_nil_of_length_eq_zero (by simpa using hw)
    subst hn
    exact lead_of_spells hk h

theorem exists_cons_of_spells (hk : k.lead ≠ .none) (h : k.pattern.Spells w) :
    ∃ c u, w = c :: u ∧ Lead.of c = k.lead := by
  have ⟨c, u, hw⟩ := List.exists_cons_of_ne_nil (ne_nil_of_spells hk h)
  exact ⟨c, u, hw, lead_of_spells hk (hw ▸ h)⟩

theorem exists_concat_of_spells (hk : k.lead ≠ .none) (h : k.pattern.Spells w) :
    ∃ u c, w = u ++ [c] ∧ Lead.of c = k.lead := by
  have ⟨u, c, hw⟩ := (List.eq_nil_or_concat w).resolve_left (ne_nil_of_spells hk h)
  rw [List.concat_eq_append] at hw
  exact ⟨u, c, hw, lead_of_spells_concat hk (hw ▸ h)⟩

theorem spells_binary_iff {op : Binary} : (binary op).pattern.Spells w ↔ w = [op.symbol] := by
  cases op <;> exact spells_sign_iff (by decide) (by decide)

theorem letters_injective : ∀ k l : Kind, k.lead = .letter → l.lead = .letter →
    k.letters.map Text.fold = l.letters.map Text.fold → k = l := by
  decide

theorem symbol_injective : ∀ op op' : Binary, op.symbol = op'.symbol → op = op' := by
  intro op op' h
  cases op <;> cases op' <;> first | rfl | contradiction

theorem lead_injective : ∀ k l : Kind, k.lead = l.lead → k.lead = .letter ∨ k.lead = .operator ∨
    k.lead = .minus ∨ k.lead = .none ∨ k = l := by
  decide

theorem binary_of_lead : ∀ k : Kind, k.lead = .operator → ∃ op ∈ Binary.all, k = binary op := by
  decide

-- Except for a minus, a lexeme is of one kind only.
theorem eq_of_spells {l : Kind} (hk : k.lead ≠ .none) (hl : l.lead ≠ .none) (hm : k.lead ≠ .minus)
    (hkw : k.pattern.Spells (c :: w)) (hlw : l.pattern.Spells (c :: w)) : k = l := by
  have hkl : k.lead = l.lead := (lead_of_spells hk hkw).symm.trans (lead_of_spells hl hlw)
  cases lead_injective k l hkl
  case inl ha =>
    have hb := hkl.symm.trans ha
    refine letters_injective k l ha hb ?_
    rw [(spells_letters_iff ha).mp hkw, (spells_letters_iff hb).mp hlw]
  case inr h =>
    rcases h with ha | ha | ha | ha
    · have ⟨op, _, ho⟩ := binary_of_lead k ha
      have ⟨op', _, ho'⟩ := binary_of_lead l (hkl.symm.trans ha)
      subst ho ho'
      have hs := (spells_binary_iff.mp hkw).symm.trans (spells_binary_iff.mp hlw)
      rw [symbol_injective op op' (List.cons.inj hs).left]
    · contradiction
    · contradiction
    · exact ha

end Kind
end Reckoner
