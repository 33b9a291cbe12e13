import Reckoner.Grammar
import Reckoner.Proofs.Preference

namespace Reckoner

namespace Rule

variable {r : Rule} {k : Kind} {behind ahead w rest : List Char} {n m : Nat}

theorem shorter?_eq_some (h : r.shorter? k ahead n = some m) :
    0 < m ∧ m < n ∧ r.fitsAhead (ahead.drop m) ∧ k.pattern.accepts (ahead.take m) := by
  induction n using shorter?.induct r k ahead <;> rw [shorter?] at h
  case case1 => contradiction
  case case2 => contradiction
  case case3 n hc =>
    rw [if_pos hc] at h
    cases h
    simp only [Bool.and_eq_true] at hc
    exact ⟨n.succ_pos, Nat.lt_succ_self _, hc⟩
  case case4 n hc hi =>
    rw [if_neg hc] at h
    have ⟨hp, hl, hm⟩ := hi h
    exact ⟨hp, Nat.lt_succ_of_lt hl, hm⟩

theorem length?_eq_some (hk : k.pattern.unanchored) (h : r.length? k ahead = some n) :
    0 < n ∧ n ≤ ahead.length ∧ k.pattern.Spells (ahead.take n) ∧ r.fitsAhead (ahead.drop n) := by
  have ⟨l, hl, h⟩ := Option.bind_eq_some_iff.mp h
  have ⟨hb, hw⟩ := Pattern.length?_eq_some hk hl
  split at h
  case isTrue => contradiction
  case isFalse hp =>
    split at h
    case isTrue hf =>
      cases h
      exact ⟨Nat.pos_of_ne_zero hp, hb, hw, hf⟩
    case isFalse =>
      have ⟨hp, hn, hf, ha⟩ := shorter?_eq_some h
      exact ⟨hp, Nat.le_trans (Nat.le_of_lt hn) hb, (Pattern.accepts_iff hk).mp ha, hf⟩

theorem length?_of_fitsAhead (hw : k.pattern.length? (w ++ rest) = some w.length) (hn : w ≠ [])
    (hr : r.fitsAhead rest) : r.length? k (w ++ rest) = some w.length := by
  simp [length?, hw, hn, hr]

theorem shorter?_congr {r' : Rule} {l : Kind} (hr : ∀ rest, r.fitsAhead rest = r'.fitsAhead rest)
    (hk : k.pattern = l.pattern) : r.shorter? k ahead n = r'.shorter? l ahead n := by
  induction n using shorter?.induct r k ahead <;> rw [shorter?, shorter?]
  case case3 n hc    => rw [if_pos hc, ← hr, ← hk, if_pos hc]
  case case4 n hc hi => rw [if_neg hc, ← hr, ← hk, if_neg hc, hi]

theorem length?_congr {r' : Rule} {l : Kind} (hr : ∀ rest, r.fitsAhead rest = r'.fitsAhead rest)
    (hk : k.pattern = l.pattern) : r.length? k ahead = r'.length? l ahead := by
  simp only [length?, hk, hr, shorter?_congr hr hk]

theorem match?_eq_some (h : r.match? behind ahead = some n) :
    r.fitsBehind behind ∧ ∃ k ∈ r.identity, r.length? k ahead = some n := by
  rw [match?] at h
  split at h
  case isTrue hb => exact ⟨hb, List.exists_of_findSome?_eq_some h⟩
  case isFalse   => contradiction

theorem match?_isSome (hb : r.fitsBehind behind) (hk : k ∈ r.identity)
    (h : r.length? k ahead = some n) : (r.match? behind ahead).isSome := by
  rw [match?, if_pos hb, List.findSome?_isSome_iff]
  exact ⟨k, hk, by rw [h]; rfl⟩

theorem catchAll_match? (behind : List Char) (hn : ahead ≠ []) (hl : '\n' ∉ ahead) :
    catchAll.match? behind ahead = some ahead.length := by
  have hw : (Pattern.many .line).Spells ahead := Kind.spells_anything.mpr ⟨hn, hl⟩
  have hp : Kind.anything.pattern.length? (ahead ++ []) = some ahead.length :=
    Pattern.Prefers.length? <| .many hw <| by simp
  have ht : catchAll.length? .anything (ahead ++ []) = some ahead.length :=
    length?_of_fitsAhead hp hn rfl
  rw [List.append_nil] at ht
  simp [match?, fitsBehind, catchAll] at ht ⊢
  exact ht

end Rule

namespace Grammar

variable {g : Grammar} {behind ahead : List Char} {rule : String × Rule} {n : Nat}

theorem first?_eq_some (h : g.first? behind ahead = some (rule, n)) :
    ∃ before after, g.full = before ++ rule :: after ∧ rule.2.match? behind ahead = some n ∧
      ∀ r ∈ before, r.2.match? behind ahead = none := by
  have ⟨before, r, after, hg, hm, hn⟩ := List.findSome?_eq_some_iff.mp h
  have ⟨m, hm, he⟩ := Option.map_eq_some_iff.mp hm
  cases he
  exact ⟨before, after, hg, hm, fun r hr => Option.map_eq_none_iff.mp (hn r hr)⟩

theorem cases_of_first? (h : g.first? behind ahead = some (rule, n)) :
    (∃ before after, g.rules = before ++ rule :: after ∧ rule.2.match? behind ahead = some n ∧
      ∀ r ∈ before, r.2.match? behind ahead = none) ∨
    rule = (reserved, .catchAll) ∧ ∀ r ∈ g.rules, r.2.match? behind ahead = none := by
  rw [first?, full, List.findSome?_append] at h
  rcases Option.or_eq_some_iff.mp h with h | ⟨hn, h⟩
  case inl =>
    have ⟨before, r, after, hg, hm, hb⟩ := List.findSome?_eq_some_iff.mp h
    have ⟨m, hm, he⟩ := Option.map_eq_some_iff.mp hm
    cases he
    exact .inl ⟨before, after, hg, hm, fun r hr => Option.map_eq_none_iff.mp (hb r hr)⟩
  case inr =>
    have ⟨r, hr, hm⟩ := List.exists_of_findSome?_eq_some h
    have ⟨m, _, he⟩ := Option.map_eq_some_iff.mp hm
    cases he
    exact .inr ⟨List.mem_singleton.mp hr, fun r hr =>
      Option.map_eq_none_iff.mp (List.findSome?_eq_none_iff.mp hn r hr)⟩

theorem first?_of_match?_eq_some {before after : List (String × Rule)}
    (hg : g.rules = before ++ rule :: after) (hm : rule.2.match? behind ahead = some n)
    (hb : ∀ r ∈ before, r.2.match? behind ahead = none) :
    g.first? behind ahead = some (rule, n) := by
  rw [first?, full, hg, List.append_assoc, List.cons_append, List.findSome?_eq_some_iff]
  exact ⟨before, rule, _, rfl, by rw [hm]; rfl, fun r hr => Option.map_eq_none_iff.mpr (hb r hr)⟩

theorem first?_of_forall_none (h : ∀ r ∈ g.rules, r.2.match? behind ahead = none) :
    g.first? behind ahead =
      (Rule.catchAll.match? behind ahead).map ((reserved, .catchAll), ·) := by
  have hn : g.rules.findSome? (fun rule => (rule.2.match? behind ahead).map (rule, ·)) = none :=
    List.findSome?_eq_none_iff.mpr fun r hr => Option.map_eq_none_iff.mpr (h r hr)
  rw [first?, full, List.findSome?_append, hn, Option.none_or, List.findSome?_singleton]

theorem first?_of_match? (hr : rule ∈ g.rules) (hm : (rule.2.match? behind ahead).isSome) :
    ∃ rule' ∈ g.rules, ∃ n, g.first? behind ahead = some (rule', n) := by
  let take (rule : String × Rule) := (rule.2.match? behind ahead).map (rule, ·)
  have hs : (g.rules.findSome? take).isSome :=
    List.findSome?_isSome_iff.mpr ⟨rule, hr, by simpa [take] using hm⟩
  have ⟨⟨rule', n⟩, hf⟩ := Option.isSome_iff_exists.mp hs
  have ⟨r, hr, ht⟩ := List.exists_of_findSome?_eq_some hf
  have ⟨m, _, he⟩ := Option.map_eq_some_iff.mp ht
  cases he
  refine ⟨rule', hr, n, ?_⟩
  rw [first?, full, List.findSome?_append]
  exact Option.or_eq_some_iff.mpr <| .inl hf

theorem exists_first? (hn : ahead ≠ []) (hl : '\n' ∉ ahead) :
    ∃ rule n, g.first? behind ahead = some (rule, n) ∧
      (rule ∈ g.rules ∨ rule = (reserved, .catchAll) ∧ n = ahead.length) := by
  have hc := Rule.catchAll_match? behind hn hl
  have hs : (g.first? behind ahead).isSome :=
    List.findSome?_isSome_iff.mpr
      ⟨(reserved, .catchAll), List.mem_append_right _ (List.mem_singleton_self _), by rw [hc]; rfl⟩
  have ⟨⟨rule, n⟩, hf⟩ := Option.isSome_iff_exists.mp hs
  have ⟨_, _, hg, hm, _⟩ := first?_eq_some hf
  refine ⟨rule, n, hf, ?_⟩
  have hr : rule ∈ g.full := by rw [hg]; simp
  cases List.mem_append.mp hr
  case inl hr => exact .inl hr
  case inr hr =>
    have hr := List.mem_singleton.mp hr
    subst hr
    exact .inr ⟨rfl, Option.some.inj (hm.symm.trans hc)⟩

end Grammar
end Reckoner
