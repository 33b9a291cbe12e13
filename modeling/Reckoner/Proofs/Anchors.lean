import Reckoner.Proofs.Selection

namespace Reckoner

def CharSet.sample : CharSet → List Char
  | char c   => [c]
  | among cs => cs.take 1
  | digit    => ['0']
  | line     => [' ']

def Pattern.sample : Pattern → List Char
  | start | stop       => []
  | one set | many set => set.sample
  | seq p q            => p.sample ++ q.sample
  | alt p _            => p.sample
  | opt _              => []

namespace Kind

variable {k : Kind} {front rest : List Char}

def EndsAt (k : Kind) (front rest : List Char) : Prop :=
  k.Ends front ∧ (k = .textEnd → rest = [])

def BeginsAt (k : Kind) (front rest : List Char) : Prop :=
  k.Begins rest ∧ (k = .textStart → front = [])

theorem accepts_sample : ∀ k : Kind, k.pattern.accepts k.pattern.sample := by
  decide

theorem opens_sample : ∀ k : Kind, k.pattern.opens k.pattern.sample := by
  decide

theorem closes_sample : ∀ k : Kind, k.pattern.closes k.pattern.sample.reverse := by
  decide

theorem not_accepts_nil : ∀ k : Kind, k.pattern.unanchored → ¬k.pattern.accepts [] := by
  decide

theorem ne_nil_of_unanchored {w : List Char} (hk : k.pattern.unanchored) (h : k.pattern.Spells w) :
    w ≠ [] := by
  rintro rfl
  exact k.not_accepts_nil hk <| (Pattern.accepts_iff hk).mpr h

theorem not_ends_newline (hk : k ≠ .textEnd) : ¬k.Ends ['\n'] := by
  rintro ⟨u, w, hf, hw, hs⟩
  rcases k.unanchored_or with hu | hk' | hk'
  case inl =>
    obtain ⟨v, c, rfl⟩ := (List.eq_nil_or_concat w).resolve_left <| ne_nil_of_unanchored hu hw
    have hc := congrArg List.getLast? hf
    simp only [List.getLast?_singleton, List.concat_eq_append, ← List.append_assoc,
      List.getLast?_concat, Option.some.injEq] at hc
    exact Kind.not_mem_of_spells hw (by simp [← hc])
  case inr.inl => exact absurd (hs hk') (List.cons_ne_nil _ _)
  case inr.inr => exact hk hk'

theorem not_begins_newline (hk : k ≠ .textStart) : ¬k.Begins ['\n'] := by
  rintro ⟨w, v, hr, hw, hs⟩
  rcases k.unanchored_or with hu | hk' | hk'
  case inl =>
    obtain ⟨c, u, rfl⟩ := List.exists_cons_of_ne_nil <| ne_nil_of_unanchored hu hw
    have hc := (List.cons.inj hr).left
    exact Kind.not_mem_of_spells hw (by simp [← hc])
  case inr.inl => exact hk hk'
  case inr.inr => exact absurd (hs hk') (List.cons_ne_nil _ _)

end Kind

namespace Rule

variable {r : Rule} {k : Kind} {front rest behind ahead : List Char} {n m : Nat}

structure AdmitsAt (r : Rule) (k : Kind) (front rest : List Char) (n : Nat) : Prop where
  pos    : 0 < n
  bound  : n ≤ rest.length
  spells : k.pattern.Spells (rest.take n)
  fits   : r.after = [] ∨ ∃ l ∈ r.after, l.BeginsAt (front ++ rest.take n) (rest.drop n)

-- What a rule written out as one pattern takes at a place of a whole text: where something is in
-- front that may stand there, the longest lexeme of the first kind that has one.
structure TakesAt (r : Rule) (front rest : List Char) (n : Nat) : Prop where
  fits  : r.before = [] ∨ ∃ k ∈ r.before, k.EndsAt front rest
  first : ∃ k before after, r.identity = before ++ k :: after ∧
    (∀ l ∈ before, ∀ m, ¬r.AdmitsAt l front rest m) ∧
    r.AdmitsAt k front rest n ∧ ∀ m, r.AdmitsAt k front rest m → m ≤ n

theorem AdmitsAt.fits_ne (h : r.AdmitsAt k front rest n) :
    r.after = [] ∨ ∃ l ∈ r.after, l ≠ .textStart ∧ l.Begins (rest.drop n) := by
  refine h.fits.imp_right fun ⟨l, hl, hb, hs⟩ => ⟨l, hl, fun he => ?_, hb⟩
  have hw := List.length_take_of_le h.bound
  rw [(List.append_eq_nil_iff.mp (hs he)).right] at hw
  exact absurd hw.symm (Nat.ne_of_gt h.pos)

theorem TakesAt.fits_ne (h : r.TakesAt front rest n) :
    r.before = [] ∨ ∃ k ∈ r.before, k ≠ .textEnd ∧ k.Ends front := by
  refine h.fits.imp_right fun ⟨l, hl, he, hs⟩ => ⟨l, hl, fun hk => ?_, he⟩
  obtain ⟨k, _, _, _, _, ha, _⟩ := h.first
  have hb := ha.bound
  rw [hs hk, List.length_nil] at hb
  exact absurd hb (Nat.not_le_of_gt ha.pos)

theorem admitsAt_iff (ha : .textStart ∉ r.after) :
    r.AdmitsAt k front rest n ↔ r.Admits k rest n := by
  constructor
  case mp =>
    intro h
    exact ⟨h.pos, h.bound, h.spells, h.fits_ne.imp_right fun ⟨l, hl, _, hb⟩ => ⟨l, hl, hb⟩⟩
  case mpr =>
    rintro ⟨hp, hb, hs, hf⟩
    exact ⟨hp, hb, hs, hf.imp_right fun ⟨l, hl, hb⟩ => ⟨l, hl, hb, fun he => absurd (he ▸ hl) ha⟩⟩

-- Where no end of a text is asked for on the wrong side, the rule does what it says.
theorem match?_iff_takesAt (hb : .textEnd ∉ r.before) (ha : .textStart ∉ r.after) :
    r.match? front.reverse rest = some n ↔ r.TakesAt front rest n := by
  have hk (k : Kind) (m : Nat) : r.Admits k rest m ↔ r.AdmitsAt k front rest m :=
    (admitsAt_iff ha).symm
  simp only [match?_eq_some_iff, fitsBehind_iff hb, TakesAs, length?_eq_none_iff ha, length?_iff ha,
    hk]
  constructor
  case mp =>
    rintro ⟨hf, k, before, after, hi, hn, hk⟩
    exact ⟨hf.imp_right fun ⟨l, hl, he⟩ => ⟨l, hl, he, fun h => absurd (h ▸ hl) hb⟩,
      k, before, after, hi, hn, hk⟩
  case mpr =>
    intro h
    obtain ⟨k, before, after, hi, hn, hk⟩ := h.first
    exact ⟨h.fits_ne.imp_right fun ⟨l, hl, _, he⟩ => ⟨l, hl, he⟩, k, before, after, hi, hn, hk⟩

theorem fitsBehind_of_textEnd (h : .textEnd ∈ r.before) (behind : List Char) :
    r.fitsBehind behind :=
  Bool.or_eq_true_iff.mpr <| .inr <| List.any_eq_true.mpr ⟨.textEnd, h, rfl⟩

theorem fitsAhead_of_textStart (h : .textStart ∈ r.after) (ahead : List Char) :
    r.fitsAhead ahead :=
  Bool.or_eq_true_iff.mpr <| .inr <| List.any_eq_true.mpr ⟨.textStart, h, rfl⟩

theorem exists_fitsBehind (r : Rule) : ∃ front : List Char, r.fitsBehind front.reverse := by
  cases hb : r.before
  case nil        => exact ⟨[], by simp [fitsBehind, hb]⟩
  case cons k ks  => exact ⟨k.pattern.sample, by simp [fitsBehind, hb, k.closes_sample]⟩

theorem exists_fitsAhead (r : Rule) : ∃ ahead, r.fitsAhead ahead := by
  cases ha : r.after
  case nil        => exact ⟨[], by simp [fitsAhead, ha]⟩
  case cons k ks  => exact ⟨k.pattern.sample, by simp [fitsAhead, ha, k.opens_sample]⟩

theorem match?_of_textEnd (h : .textEnd ∈ r.before) (behind ahead : List Char) :
    r.match? behind ahead = (r.enclose [] r.after).match? behind ahead := by
  have hl : r.length? = (r.enclose [] r.after).length? :=
    funext fun _ => funext fun _ => length?_congr (fun _ => rfl) rfl
  rw [match?, match?, if_pos (fitsBehind_of_textEnd h behind), if_pos (by rfl), hl]
  rfl

theorem match?_of_textStart (h : .textStart ∈ r.after) (behind ahead : List Char) :
    r.match? behind ahead = (r.enclose r.before []).match? behind ahead := by
  have hl : r.length? = (r.enclose r.before []).length? :=
    funext fun _ => funext fun _ => length?_congr (fitsAhead_of_textStart h) rfl
  rw [match?, match?, hl]
  rfl

theorem exists_length?_sample (hu : k.pattern.unanchored) {v : List Char} (hv : r.fitsAhead v) :
    ∃ n, r.length? k (k.pattern.sample ++ v) = some n ∧ k.pattern.sample.length ≤ n := by
  have hs := (Pattern.accepts_iff hu).mp k.accepts_sample
  have hp := List.length_pos_iff.mpr <| Kind.ne_nil_of_unanchored hu hs
  exact le_length?_of_fitsAhead hu hp (by simp) (by simpa using hs) (by simpa using hv)

section

variable {ks : List Kind} (hi : r.identity = k :: ks) (hu : k.pattern.unanchored)

include hi hu

theorem exists_match?_of_textEnd (h : .textEnd ∈ r.before) :
    ∃ front rest n, r.match? front.reverse rest = some n ∧ ¬r.TakesAt front rest n := by
  obtain ⟨v, hv⟩ := r.exists_fitsAhead
  obtain ⟨n, hn, _⟩ := exists_length?_sample hu hv
  refine ⟨['\n'], k.pattern.sample ++ v, n, ?_, fun ht => ?_⟩
  · rw [match?, if_pos (fitsBehind_of_textEnd h _), hi, List.findSome?_cons, hn]
  · cases ht.fits_ne
    case inl he => exact List.ne_nil_of_mem h he
    case inr he =>
      obtain ⟨l, _, hl, he⟩ := he
      exact Kind.not_ends_newline hl he

theorem exists_match?_of_textStart (h : .textStart ∈ r.after) :
    ∃ front rest n, r.match? front.reverse rest = some n ∧ ¬r.TakesAt front rest n := by
  obtain ⟨front, hf⟩ := r.exists_fitsBehind
  obtain ⟨n, hn, hle⟩ := exists_length?_sample hu (fitsAhead_of_textStart h ['\n'])
  -- The lexeme ends in front of the line break, which is then all that is behind it.
  have hr : (k.pattern.sample ++ ['\n']).drop n = ['\n'] := by
    obtain ⟨_, hb, hw, _⟩ := length?_eq_some hu hn
    rcases Nat.lt_or_eq_of_le hb with hlt | rfl
    case inl =>
      rw [List.length_append] at hlt
      rw [← Nat.le_antisymm hle (Nat.le_of_lt_succ hlt), List.drop_left]
    case inr =>
      rw [List.take_length] at hw
      exact absurd (by simp) (Kind.not_mem_of_spells hw)
  refine ⟨front, k.pattern.sample ++ ['\n'], n, ?_, fun ht => ?_⟩
  · rw [match?, if_pos hf, hi, List.findSome?_cons, hn]
  · obtain ⟨_, _, _, _, _, ha, _⟩ := ht.first
    cases ha.fits_ne
    case inl he => exact List.ne_nil_of_mem h he
    case inr he =>
      obtain ⟨l, _, hl, he⟩ := he
      exact Kind.not_begins_newline hl (hr ▸ he)

end

-- The end of a text in front of a lexeme and the start of a text behind it mean that anything may
-- stand there. A rule takes what it says at the places of a whole text if it asks for neither.
theorem match?_anchors (r : Rule) (hi : ∀ k ∈ r.identity, k ≠ .textStart ∧ k ≠ .textEnd) :
    (.textEnd ∈ r.before → ∀ behind ahead,
      r.match? behind ahead = (r.enclose [] r.after).match? behind ahead) ∧
    (.textStart ∈ r.after → ∀ behind ahead,
      r.match? behind ahead = (r.enclose r.before []).match? behind ahead) ∧
    ((∀ front rest n, r.match? front.reverse rest = some n ↔ r.TakesAt front rest n) ↔
      .textEnd ∉ r.before ∧ .textStart ∉ r.after) := by
  refine ⟨match?_of_textEnd, match?_of_textStart, ?_⟩
  constructor
  case mp =>
    intro h
    obtain ⟨k, ks, hk⟩ := List.exists_cons_of_ne_nil r.stated
    have hk' := hi k (hk ▸ List.mem_cons_self)
    have hu := k.unanchored_or.resolve_right (not_or.mpr hk')
    constructor
    case left =>
      intro hb
      obtain ⟨front, rest, n, hm, hn⟩ := exists_match?_of_textEnd hk hu hb
      exact hn <| (h front rest n).mp hm
    case right =>
      intro ha
      obtain ⟨front, rest, n, hm, hn⟩ := exists_match?_of_textStart hk hu ha
      exact hn <| (h front rest n).mp hm
  case mpr => exact fun ⟨hb, ha⟩ _ _ _ => match?_iff_takesAt hb ha

theorem match?_anchors_numeral :
    let r : Rule := ⟨[.number], [.opening, .textEnd], [.closing, .textEnd], by decide⟩
    (∀ k ∈ r.identity, k ≠ .textStart ∧ k ≠ .textEnd) ∧
    (∀ behind ahead, r.match? behind ahead = (r.enclose [] r.after).match? behind ahead) ∧
    ¬∀ front rest n, r.match? front.reverse rest = some n ↔ r.TakesAt front rest n := by
  intro r
  have hi : ∀ k ∈ r.identity, k ≠ .textStart ∧ k ≠ .textEnd := by decide
  obtain ⟨hb, _, hr⟩ := match?_anchors r hi
  exact ⟨hi, hb (by decide), mt hr.mp (by decide)⟩

-- A numeral that may only stand in front of the start of the text, or behind its end, is taken where
-- there is no such place, and so is one that may also stand behind a bracket.
theorem match?_misplaced :
    let rule (before after : List Kind) : Rule := ⟨[.number], before, after, by decide⟩
    (rule [] [.textStart]).match? [] ['1', '2'] = some 2 ∧
    (∀ n, ¬(rule [] [.textStart]).TakesAt [] ['1', '2'] n) ∧
    (rule [.textEnd] []).match? [] ['1', '2'] = some 2 ∧
    (∀ n, ¬(rule [.textEnd] []).TakesAt [] ['1', '2'] n) ∧
    (rule [.opening] []).match? [] ['1', '2'] = none ∧
    (rule [.opening, .textEnd] []).match? [] ['1', '2'] = some 2 := by
  intro rule
  refine ⟨by decide, fun n h => ?_, by decide, fun n h => ?_, by decide, by decide⟩
  · obtain ⟨_, _, _, _, _, ha, _⟩ := h.first
    have := ha.fits_ne
    simp [rule] at this
  · have := h.fits_ne
    simp [rule] at this

end Rule
end Reckoner
