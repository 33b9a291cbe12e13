import Mathlib.Data.List.Pairwise
import Reckoner.Proofs.Selection

namespace List

variable {α β : Type} {l l' : List α}

theorem findSome?_eq_of_perm {f : α → Option β} (hp : l.Perm l')
    (hu : ∀ a ∈ l, ∀ b ∈ l, ∀ x ∈ f a, ∀ y ∈ f b, x = y) : l.findSome? f = l'.findSome? f := by
  cases h : l.findSome? f
  case none =>
    rw [findSome?_eq_none_iff] at h
    exact (findSome?_eq_none_iff.mpr fun a ha => h a (hp.symm.subset ha)).symm
  case some x =>
    have ⟨a, ha, hx⟩ := exists_of_findSome?_eq_some h
    have hs : (l'.findSome? f).isSome :=
      findSome?_isSome_iff.mpr ⟨a, hp.subset ha, Option.isSome_of_eq_some hx⟩
    have ⟨y, hy⟩ := Option.isSome_iff_exists.mp hs
    have ⟨b, hb, hf⟩ := exists_of_findSome?_eq_some hy
    rw [hy, hu a ha b (hp.symm.subset hb) x hx y hf]

theorem find?_mergeSort {le : α → α → Bool} {p : α → Bool}
    (trans : ∀ a b c, le a b → le b c → le a c) (total : ∀ a b, le a b || le b a)
    (hp : ∀ a ∈ l, ∀ b ∈ l, p a → p b → le a b) : (l.mergeSort le).find? p = l.find? p := by
  have hs : l.filter p <+ (l.mergeSort le).filter p := by
    have hw : (l.filter p).Pairwise fun a b => le a b :=
      pairwise_of_forall_mem_list fun a ha b hb => by
        have ⟨ha, hpa⟩ := mem_filter.mp ha
        have ⟨hb, hpb⟩ := mem_filter.mp hb
        exact hp a ha b hb hpa hpb
    have hs := (sublist_mergeSort trans total hw filter_sublist).filter p
    rwa [filter_filter, funext fun a => Bool.and_self (p a)] at hs
  have he := hs.eq_of_length ((mergeSort_perm l le).filter p).length_eq.symm
  rw [← head?_filter, ← head?_filter, he]

end List

namespace Reckoner

namespace Kind

variable {k l : Kind} {s v w : List Char}

theorem eq_of_letters_begin : ∀ k l : Kind, k.lead = .letter → l.lead = .letter →
    k.letters.map Text.fold <+: l.letters.map Text.fold → k = l := by
  decide

theorem pattern_of_minus : ∀ k : Kind, k.lead = .minus → k.pattern = .one (.char '-') := by
  intro k h
  rcases (by decide : ∀ k : Kind, k.lead = .minus → k = .unary .negate ∨ k = .binary .subtract) k h
    with rfl | rfl <;> rfl

-- Kinds of which one has a lexeme that begins with a lexeme of the other have the same lexemes.
theorem pattern_eq_of_begin (hk : k.lead ≠ .none) (hl : l.lead ≠ .none) (hw : k.pattern.Spells w)
    (hv : l.pattern.Spells v) (h : w <+: v) : k.pattern = l.pattern := by
  obtain ⟨c, u, rfl, hc⟩ := exists_cons_of_spells hk hw
  obtain ⟨t, rfl⟩ := h
  have hlead : k.lead = l.lead := hc.symm.trans (lead_of_spells hl hv)
  by_cases hm : k.lead = .minus
  · rw [pattern_of_minus k hm, pattern_of_minus l (hlead ▸ hm)]
  by_cases hd : k.lead = .digit
  · rw [eq_number_of_lead k hd, eq_number_of_lead l (hlead ▸ hd)]
  by_cases ha : k.lead = .letter
  · have hkw := (spells_letters_iff ha).mp hw
    have hlv := (spells_letters_iff (hlead ▸ ha)).mp hv
    rw [eq_of_letters_begin k l ha (hlead ▸ ha)]
    rw [hkw, hlv]
    exact (List.prefix_append _ _).map _
  · have hkn := length_of_spells hd ha hk hw
    have hln := length_of_spells (hlead ▸ hd) (hlead ▸ ha) hl hv
    have ht : t = [] := by
      rw [List.length_append, hkn] at hln
      exact List.eq_nil_of_length_eq_zero (by omega)
    rw [ht, List.append_nil] at hv
    rw [eq_of_spells hk hl hm hw hv]

theorem pattern_eq_of_spells (hk : k.lead ≠ .none) (hl : l.lead ≠ .none) (hw : k.pattern.Spells w)
    (hv : l.pattern.Spells v) (hws : w <+: s) (hvs : v <+: s) : k.pattern = l.pattern := by
  cases List.prefix_or_prefix_of_prefix hws hvs
  case inl h => exact pattern_eq_of_begin hk hl hw hv h
  case inr h => exact (pattern_eq_of_begin hl hk hv hw h).symm

theorem lead_of_unanchored : ∀ k : Kind, k.pattern.unanchored → k ≠ .anything → k.lead ≠ .none := by
  decide

end Kind

namespace Rule

variable {r : Rule} {k l : Kind} {behind ahead w : List Char} {n m : Nat}

theorem length?_unique (hk : k ≠ .anything) (hl : l ≠ .anything)
    (hn : r.length? k ahead = some n) (hm : r.length? l ahead = some m) : n = m := by
  have hku := unanchored_of_length? hn
  have hlu := unanchored_of_length? hm
  have ⟨_, _, hw, _⟩ := length?_eq_some hku hn
  have ⟨_, _, hv, _⟩ := length?_eq_some hlu hm
  have hp := Kind.pattern_eq_of_spells (k.lead_of_unanchored hku hk) (l.lead_of_unanchored hlu hl)
    hw hv (List.take_prefix n ahead) (List.take_prefix m ahead)
  rw [length?_congr (fun _ => rfl) hp, hm] at hn
  exact (Option.some.inj hn).symm

theorem match?_longestFirst (h : .anything ∉ r.identity) (behind ahead : List Char) :
    r.longestFirst.match? behind ahead = r.match? behind ahead := by
  have hb : r.longestFirst.fitsBehind behind = r.fitsBehind behind := rfl
  have hl (k : Kind) : r.longestFirst.length? k ahead = r.length? k ahead :=
    length?_congr (fun _ => rfl) rfl
  have hi : r.longestFirst.identity.findSome? (r.length? · ahead) =
      r.identity.findSome? (r.length? · ahead) := by
    refine (List.findSome?_eq_of_perm (List.mergeSort_perm _ _).symm ?_).symm
    intro k hk l hl n hn m hm
    exact length?_unique (fun he => h (he ▸ hk)) (fun he => h (he ▸ hl)) hn hm
  rw [match?, match?, hb]
  simp only [hl, hi]

theorem find?_longestFirst (h : .anything ∉ r.identity) (hw : w ≠ []) :
    r.longestFirst.identity.find? (·.pattern.accepts w) =
      r.identity.find? (·.pattern.accepts w) := by
  refine List.find?_mergeSort ?trans ?total fun k hk l hl hkw hlw => ?tied
  case trans =>
    intro k l m hkl hlm
    simp only [decide_eq_true_eq] at hkl hlm ⊢
    exact Nat.le_trans hlm hkl
  case total =>
    intro k l
    simpa using Nat.le_total _ _
  case tied  =>
    have hku := unanchored_of_accepts hw hkw
    have hlu := unanchored_of_accepts hw hlw
    have hp := Kind.pattern_eq_of_begin (k.lead_of_unanchored hku fun he => h (he ▸ hk))
      (l.lead_of_unanchored hlu fun he => h (he ▸ hl)) ((Pattern.accepts_iff hku).mp hkw)
      ((Pattern.accepts_iff hlu).mp hlw) (List.prefix_refl w)
    simp [hp]

end Rule

namespace Grammar

def longestFirst (g : Grammar) (sorts : String → Bool) : Grammar :=
  ⟨g.rules.map sort⟩
where
  sort rule := (rule.1, if sorts rule.1 then rule.2.longestFirst else rule.2)

variable {g : Grammar} {sorts : String → Bool} {rule : String × Rule} {offset n : Nat}
  {behind ahead w : List Char} {t : Token}

open longestFirst (sort)

theorem match?_sort (h : .anything ∉ rule.2.identity) (behind ahead : List Char) :
    (sort sorts rule).2.match? behind ahead = rule.2.match? behind ahead := by
  rw [sort]
  split
  case isTrue  => exact Rule.match?_longestFirst h behind ahead
  case isFalse => rfl

theorem token_sort (h : .anything ∉ rule.2.identity) (hw : w ≠ []) :
    (Match.of (sort sorts rule) offset w).token = (Match.of rule offset w).token := by
  have hk : (Match.of (sort sorts rule) offset w).kind = (Match.of rule offset w).kind := by
    have hf := Rule.find?_longestFirst h hw
    simp only [Match.kind, Match.of, sort, Kind.accepts, String.toList_ofList]
    split
    case isTrue  => rw [hf]
    case isFalse => rfl
  rw [Match.token, hk]
  rfl

theorem token_longestFirst (h : ∀ rule ∈ g.rules, .anything ∉ rule.2.identity) (hw : w ≠ [])
    (hf : g.first? behind ahead = some (rule, n)) (ht : (Match.of rule offset w).token = .ok t) :
    ∃ rule', (g.longestFirst sorts).first? behind ahead = some (rule', n) ∧
      (Match.of rule' offset w).token = .ok t := by
  rcases cases_of_first? hf with ⟨before, after, hg, hm, hb⟩ | ⟨rfl, hn⟩
  case inl =>
    rw [hg] at h
    have ⟨hbefore, hrule⟩ := List.forall_mem_append.mp h
    have hrule := hrule rule List.mem_cons_self
    have hs : (g.longestFirst sorts).rules =
        before.map (sort sorts) ++ sort sorts rule :: after.map (sort sorts) := by
      rw [longestFirst, hg, List.map_append, List.map_cons]
    have hn : ∀ r ∈ before.map (sort sorts), r.2.match? behind ahead = none :=
      List.forall_mem_map.mpr fun r hr => by rw [match?_sort (hbefore r hr), hb r hr]
    have hm : (sort sorts rule).2.match? behind ahead = some n := by rw [match?_sort hrule, hm]
    exact ⟨_, first?_of_match?_eq_some hs hm hn, (token_sort hrule hw).trans ht⟩
  case inr =>
    have hs : ∀ r ∈ (g.longestFirst sorts).rules, r.2.match? behind ahead = none :=
      List.forall_mem_map.mpr fun r hr => by rw [match?_sort (h r hr), hn r hr]
    rw [first?_of_forall_none hn] at hf
    exact ⟨_, (first?_of_forall_none hs).trans hf, ht⟩

theorem tokenize_longestFirst (h : ∀ rule ∈ g.rules, .anything ∉ rule.2.identity)
    (sorts : String → Bool) (checks checks' : List Check) (s : List Char) :
    (Lexer.mk (g.longestFirst sorts) checks').tokenize s = (Lexer.mk g checks).tokenize s := by
  have hd := g.divides 0 [] s
  have ⟨ts, hts, _⟩ := hd.exists_tokens
  have hs : ((g.longestFirst sorts).divide 0 [] s).mapM Match.token = .ok ts :=
    hd.tokens_of_first? hts fun _ _ _ _ _ _ _ hw hf ht => token_longestFirst h hw hf ht
  exact hs.trans hts.symm

-- Whichever rules try kinds with longer patterns first, every expression is read as the same tokens, as
-- long as no rule takes just anything.
theorem parse_longestFirst {g : Grammar} (h : ∀ rule ∈ g.rules, .anything ∉ rule.2.identity)
    (sorts : String → Bool) (checks : List Check) :
    (∀ s, (Lexer.mk (g.longestFirst sorts) checks).tokenize s = (Lexer.mk g checks).tokenize s) ∧
    ∀ expression, (Lexer.mk (g.longestFirst sorts) checks).parse expression =
      (Lexer.mk g checks).parse expression := by
  refine ⟨tokenize_longestFirst h sorts checks checks, fun expression => ?_⟩
  rw [Lexer.parse, Lexer.parse, tokenize_longestFirst h sorts checks checks]

theorem parse_longestFirst_minus :
    let g : Grammar := ⟨[
      ("sign", ⟨[.unary .negate, .binary .subtract, .binary .add], [], [], by decide⟩),
      ("name", ⟨[.constant .e, .constant .pi], [], [.textEnd], by decide⟩)]⟩
    let m : Token := ⟨.unary .negate, "-", ⟨0, 1⟩, by decide⟩
    let c : Token := ⟨.constant .pi, "Pi", ⟨1, 3⟩, by decide⟩
    (∀ rule ∈ g.rules, .anything ∉ rule.2.identity) ∧
    (Lexer.mk g []).tokenize ['-', 'P', 'i'] = .ok [m, c] ∧
    (Lexer.mk (g.longestFirst fun _ => true) []).tokenize ['-', 'P', 'i'] = .ok [m, c] := by
  intro g m c
  have h : ∀ rule ∈ g.rules, .anything ∉ rule.2.identity := by decide
  have ht : (Lexer.mk g []).tokenize ['-', 'P', 'i'] = .ok [m, c] := by
    have hm : g.first? [] ['-', 'P', 'i'] = some (g.rules[0], 1) := by rfl
    have hc : g.first? (['-'].reverse ++ []) ['P', 'i'] = some (g.rules[1], 2) := by rfl
    have htm : (Match.of g.rules[0] 0 ['-']).token = .ok m :=
      Token.make_eq_ok.mpr ⟨by decide, by decide, by decide⟩
    have htc : (Match.of g.rules[1] 1 ['P', 'i']).token = .ok c :=
      Token.make_eq_ok.mpr ⟨by decide, by decide, by decide⟩
    rw [Lexer.tokenize, find, divide_of_first? hm (by decide) (by decide), List.take_succ_cons,
      List.take_zero, List.drop_succ_cons, List.drop_zero,
      divide_of_first? hc (by decide) (by decide), List.drop_of_length_le (by decide), divide]
    exact Except.mapM_cons_eq_ok.mpr
      ⟨m, [c], htm, Except.mapM_cons_eq_ok.mpr ⟨c, [], htc, rfl, rfl⟩, rfl⟩
  exact ⟨h, ht, ((parse_longestFirst h (fun _ => true) []).left _).trans ht⟩

end Grammar

end Reckoner
