import Reckoner.Proofs.Longest
import Reckoner.Proofs.Matching

namespace Reckoner

namespace Kind

variable {k : Kind} {front rest : List Char}

-- A lexeme of the kind ends where the text in front does. The start of a text is nowhere else.
def Ends (k : Kind) (front : List Char) : Prop :=
  ∃ u w, front = u ++ w ∧ k.pattern.Spells w ∧ (k = .textStart → front = [])

def Begins (k : Kind) (rest : List Char) : Prop :=
  ∃ w v, rest = w ++ v ∧ k.pattern.Spells w ∧ (k = .textEnd → rest = [])

theorem unanchored_or : ∀ k : Kind, k.pattern.unanchored ∨ k = .textStart ∨ k = .textEnd := by
  decide

theorem closes_iff (h : k ≠ .textEnd) : k.pattern.closes front.reverse ↔ k.Ends front := by
  rcases k.unanchored_or with hu | hk | hk
  case inl =>
    have hs : k ≠ .textStart := by
      rintro rfl
      contradiction
    rw [Pattern.closes_iff hu]
    constructor
    case mp =>
      rintro ⟨w, u, hw, he⟩
      exact ⟨u.reverse, w, by simpa using congrArg List.reverse he, hw, (absurd · hs)⟩
    case mpr =>
      rintro ⟨u, w, he, hw, _⟩
      exact ⟨w, u.reverse, hw, by rw [he, List.reverse_append]⟩
  case inr.inl =>
    subst hk
    have hc : (pattern .textStart).closes front.reverse ↔ front = [] := by
      simp [Pattern.closes, Pattern.opens, pattern, Pattern.reverse, Pattern.reads,
        Pattern.Cursor.at]
    rw [hc]
    constructor
    case mp  => exact fun he => ⟨[], [], he, rfl, fun _ => he⟩
    case mpr =>
      rintro ⟨_, _, _, _, he⟩
      exact he rfl
  case inr.inr => exact absurd hk h

theorem opens_iff (h : k ≠ .textStart) : k.pattern.opens rest ↔ k.Begins rest := by
  rcases k.unanchored_or with hu | hk | hk
  case inl =>
    have hs : k ≠ .textEnd := by
      rintro rfl
      contradiction
    rw [Pattern.opens_iff hu]
    constructor
    case mp  => exact fun ⟨w, v, hw, he⟩ => ⟨w, v, he, hw, (absurd · hs)⟩
    case mpr => exact fun ⟨w, v, he, hw, _⟩ => ⟨w, v, hw, he⟩
  case inr.inl => exact absurd hk h
  case inr.inr =>
    subst hk
    have hc : (pattern .textEnd).opens rest ↔ rest = [] := by
      simp [Pattern.opens, pattern, Pattern.reads, Pattern.Cursor.at]
    rw [hc]
    constructor
    case mp  => exact fun he => ⟨[], [], he, rfl, fun _ => he⟩
    case mpr =>
      rintro ⟨_, _, _, _, he⟩
      exact he rfl

end Kind

namespace Rule

variable {r : Rule} {k : Kind} {front rest : List Char} {n m : Nat}

-- The next characters of a text are a lexeme of a kind, with something behind it that may stand there.
structure Admits (r : Rule) (k : Kind) (rest : List Char) (n : Nat) : Prop where
  pos    : 0 < n
  bound  : n ≤ rest.length
  spells : k.pattern.Spells (rest.take n)
  fits   : r.after = [] ∨ ∃ l ∈ r.after, l.Begins (rest.drop n)

theorem fits_iff {ks : List Kind} {fits : Kind → Bool} {p : Kind → Prop}
    (h : ∀ k ∈ ks, (fits k ↔ p k)) : (ks.isEmpty || ks.any fits) ↔ ks = [] ∨ ∃ k ∈ ks, p k := by
  rw [Bool.or_eq_true, List.isEmpty_iff, List.any_eq_true]
  exact or_congr_right <| exists_congr fun k => and_congr_right (h k)

theorem fitsBehind_iff (h : .textEnd ∉ r.before) :
    r.fitsBehind front.reverse ↔ r.before = [] ∨ ∃ k ∈ r.before, k.Ends front :=
  fits_iff fun _ hk => Kind.closes_iff fun he => h (he ▸ hk)

theorem fitsAhead_iff (h : .textStart ∉ r.after) :
    r.fitsAhead rest ↔ r.after = [] ∨ ∃ k ∈ r.after, k.Begins rest :=
  fits_iff fun _ hk => Kind.opens_iff fun he => h (he ▸ hk)

theorem le_shorter? (hp : 0 < m) (hn : m < n) (hf : r.fitsAhead (rest.drop m))
    (ha : k.pattern.accepts (rest.take m)) : ∃ l, r.shorter? k rest n = some l ∧ m ≤ l := by
  induction n using shorter?.induct r k rest <;> rw [shorter?]
  case case1      => contradiction
  case case2      => omega
  case case3 n hc => exact ⟨n + 1, if_pos hc, Nat.le_of_lt_succ hn⟩
  case case4 n hc hi =>
    rw [if_neg hc]
    cases Nat.lt_or_eq_of_le (Nat.le_of_lt_succ hn)
    case inl hl => exact hi hl
    case inr he => simp [← he, hf, ha] at hc

theorem le_length?_of_fitsAhead (hu : k.pattern.unanchored) (hp : 0 < m) (hb : m ≤ rest.length)
    (hs : k.pattern.Spells (rest.take m)) (hf : r.fitsAhead (rest.drop m)) :
    ∃ n, r.length? k rest = some n ∧ m ≤ n := by
  obtain ⟨_, hg⟩ := k.greedy hu
  obtain ⟨n, hn, hle⟩ := hg.le_length? hu hs (rest.drop m)
  rw [List.take_append_drop] at hn
  rw [List.length_take, Nat.min_eq_left hb] at hle
  have hn₀ : n ≠ 0 := Nat.ne_of_gt <| Nat.lt_of_lt_of_le hp hle
  by_cases hfn : r.fitsAhead (rest.drop n)
  case pos => exact ⟨n, by simp [length?, hn, hn₀, hfn], hle⟩
  case neg =>
    have hlt : m < n := Nat.lt_of_le_of_ne hle fun he => hfn (he ▸ hf)
    obtain ⟨l, hl, hle⟩ := le_shorter? hp hlt hf ((Pattern.accepts_iff hu).mpr hs)
    exact ⟨l, by simp [length?, hn, hn₀, hfn, hl], hle⟩

theorem length?_of_anchor (h : k = .textStart ∨ k = .textEnd) : r.length? k rest = none := by
  have hn : ∀ n ∈ k.pattern.length? rest, n = 0 := by
    rcases h with rfl | rfl
    case inl => simp [Kind.pattern, Pattern.length?, Pattern.reads, Pattern.Cursor.at]
    case inr =>
      cases rest <;> simp [Kind.pattern, Pattern.length?, Pattern.reads, Pattern.Cursor.at]
  cases hl : k.pattern.length? rest
  case none   => simp [length?, hl]
  case some n => simp [length?, hl, hn n hl]

theorem unanchored_of_length? (h : r.length? k rest = some n) : k.pattern.unanchored := by
  refine k.unanchored_or.resolve_right fun hk => ?_
  rw [length?_of_anchor hk] at h
  contradiction

theorem admits_of_length? (ha : .textStart ∉ r.after) (h : r.length? k rest = some n) :
    r.Admits k rest n :=
  have ⟨hp, hb, hs, hf⟩ := length?_eq_some (unanchored_of_length? h) h
  ⟨hp, hb, hs, (fitsAhead_iff ha).mp hf⟩

namespace Admits

theorem unanchored (h : r.Admits k rest n) : k.pattern.unanchored := by
  refine k.unanchored_or.resolve_right fun hk => ?_
  have hn : rest.take n = [] := by
    have hs := h.spells
    rcases hk with rfl | rfl <;> exact hs
  have hp := h.pos
  have hb := h.bound
  rw [List.take_eq_nil_iff, ← List.length_eq_zero_iff] at hn
  omega

theorem le_length? (ha : .textStart ∉ r.after) (h : r.Admits k rest m) :
    ∃ n, r.length? k rest = some n ∧ m ≤ n :=
  le_length?_of_fitsAhead h.unanchored h.pos h.bound h.spells ((fitsAhead_iff ha).mpr h.fits)

end Admits

theorem length?_iff (ha : .textStart ∉ r.after) :
    r.length? k rest = some n ↔ r.Admits k rest n ∧ ∀ m, r.Admits k rest m → m ≤ n := by
  constructor
  case mp =>
    intro h
    refine ⟨admits_of_length? ha h, fun m hm => ?_⟩
    have ⟨l, hl, hle⟩ := hm.le_length? ha
    exact Option.some.inj (hl.symm.trans h) ▸ hle
  case mpr =>
    rintro ⟨h, hle⟩
    have ⟨l, hl, hnl⟩ := h.le_length? ha
    rw [hl, Nat.le_antisymm (hle l (admits_of_length? ha hl)) hnl]

theorem length?_isSome_iff (ha : .textStart ∉ r.after) :
    (r.length? k rest).isSome ↔ ∃ n, r.Admits k rest n := by
  constructor
  case mp =>
    intro h
    have ⟨n, hn⟩ := Option.isSome_iff_exists.mp h
    exact ⟨n, admits_of_length? ha hn⟩
  case mpr =>
    intro ⟨n, h⟩
    have ⟨l, hl, _⟩ := h.le_length? ha
    exact Option.isSome_iff_exists.mpr ⟨l, hl⟩

theorem length?_eq_none_iff (ha : .textStart ∉ r.after) :
    r.length? k rest = none ↔ ∀ n, ¬r.Admits k rest n := by
  rw [← Option.not_isSome_iff_eq_none, length?_isSome_iff ha, not_exists]

-- A rule takes something where one of its kinds has a lexeme that may stand there. It takes the
-- longest such lexeme of the first such kind.
theorem match?_extent (r : Rule) (hb : .textEnd ∉ r.before) (ha : .textStart ∉ r.after)
    (front rest : List Char) :
    ((r.match? front.reverse rest).isSome ↔ (r.before = [] ∨ ∃ k ∈ r.before, k.Ends front) ∧
      ∃ k ∈ r.identity, ∃ n, r.Admits k rest n) ∧
    ∀ n, r.match? front.reverse rest = some n →
      ∃ before k after, r.identity = before ++ k :: after ∧
        (∀ l ∈ before, ∀ m, ¬r.Admits l rest m) ∧
        r.Admits k rest n ∧ ∀ m, r.Admits k rest m → m ≤ n := by
  rw [match?, ← fitsBehind_iff hb]
  by_cases hf : r.fitsBehind front.reverse
  case neg => simp [hf]
  case pos =>
    rw [if_pos hf]
    refine ⟨?_, fun n h => ?_⟩
    · simp only [List.findSome?_isSome_iff, length?_isSome_iff ha, hf, true_and]
    · obtain ⟨before, k, after, hi, hk, hn⟩ := List.findSome?_eq_some_iff.mp h
      exact ⟨before, k, after, hi, fun l hl => (length?_eq_none_iff ha).mp (hn l hl),
        (length?_iff ha).mp hk⟩

theorem match?_extent_shorter :
    let r : Rule := ⟨[.separator, .number], [.textStart, .opening], [.number], by decide⟩
    .textEnd ∉ r.before ∧ .textStart ∉ r.after ∧
    r.match? ['('].reverse ['1', '.', '2', 'e', '-', '3', '4', 'e'] = some 6 ∧
    ∃ before k after, r.identity = before ++ k :: after ∧
      (∀ l ∈ before, ∀ m, ¬r.Admits l ['1', '.', '2', 'e', '-', '3', '4', 'e'] m) ∧
      r.Admits k ['1', '.', '2', 'e', '-', '3', '4', 'e'] 6 ∧
      ∀ m, r.Admits k ['1', '.', '2', 'e', '-', '3', '4', 'e'] m → m ≤ 6 := by
  intro r
  have hb : .textEnd ∉ r.before := by decide
  have ha : .textStart ∉ r.after := by decide
  have hm : r.match? ['('].reverse ['1', '.', '2', 'e', '-', '3', '4', 'e'] = some 6 := by decide
  exact ⟨hb, ha, hm, (match?_extent r hb ha _ _).right 6 hm⟩

end Rule
end Reckoner
