import Reckoner.Pattern

namespace Reckoner.Pattern

-- The ends of a text are found between characters, so that they are empty words.
def Spells : Pattern → List Char → Prop
  | start,    w => w = []
  | stop,     w => w = []
  | one set,  w => ∃ c, set.holds c ∧ w = [c]
  | many set, w => w ≠ [] ∧ ∀ c ∈ w, set.holds c
  | seq p q,  w => ∃ u v, p.Spells u ∧ q.Spells v ∧ w = u ++ v
  | alt p q,  w => p.Spells w ∨ q.Spells w
  | opt p,    w => p.Spells w ∨ w = []

def unanchored : Pattern → Bool
  | start | stop       => false
  | one _ | many _     => true
  | seq p q | alt p q  => p.unanchored && q.unanchored
  | opt p              => p.unanchored

variable {p q : Pattern} {set : CharSet} {cur cur' : Cursor} {c : Char} {s w rest : List Char}

theorem spells_many_cons :
    (many set).Spells (c :: w) ↔ set.holds c ∧ (w = [] ∨ (many set).Spells w) := by
  cases w <;> simp [Spells]

theorem many_begins_cons :
    (∃ w, (many set).Spells w ∧ c :: s = w ++ rest) ↔
      set.holds c ∧ (rest = s ∨ ∃ w, (many set).Spells w ∧ s = w ++ rest) := by
  constructor
  case mp =>
    rintro ⟨w, hw, hs⟩
    cases w
    case nil      => exact absurd rfl hw.left
    case cons d w =>
      have ⟨hd, h⟩ := spells_many_cons.mp hw
      have ⟨hc, hr⟩ := List.cons.inj hs
      refine ⟨hc ▸ hd, ?_⟩
      cases h
      case inl h => exact .inl <| by simp [hr, h]
      case inr h => exact .inr ⟨w, h, hr⟩
  case mpr =>
    rintro ⟨hc, rfl | ⟨w, hw, rfl⟩⟩
    · exact ⟨[c], spells_many_cons.mpr ⟨hc, .inl rfl⟩, rfl⟩
    · exact ⟨c :: w, spells_many_cons.mpr ⟨hc, .inr hw⟩, rfl⟩

theorem mem_run {found : List Cursor} :
    cur ∈ run set found s ↔ cur ∈ found ∨
      cur.fresh = false ∧ ∃ w, (many set).Spells w ∧ s = w ++ cur.rest := by
  induction s generalizing found
  case nil =>
    rw [run, iff_comm]
    exact or_iff_left fun ⟨_, w, hw, hs⟩ => hw.left (List.append_eq_nil_iff.mp hs.symm).left
  case cons c s hi =>
    rw [run, many_begins_cons]
    split
    case isFalse hc => simp [hc]
    case isTrue hc  =>
      obtain ⟨rest, fresh⟩ := cur
      simp only [hi, hc, List.mem_cons, Cursor.mk.injEq, true_and]
      grind

-- A pattern reads its words, and nothing else.
theorem mem_reads_iff (h : p.unanchored) :
    cur' ∈ p.reads cur ↔
      ∃ w, p.Spells w ∧ cur.rest = w ++ cur'.rest ∧ cur'.fresh = (cur.fresh && w.isEmpty) := by
  induction p generalizing cur cur'
  case start | stop => simp [unanchored] at h
  case one set =>
    obtain ⟨s, fresh⟩ := cur
    obtain ⟨rest, fresh'⟩ := cur'
    cases s
    case nil      =>
      simp only [reads, step, Spells, List.not_mem_nil, false_iff]
      rintro ⟨w, ⟨c, _, rfl⟩, hs, _⟩
      contradiction
    case cons c s =>
      simp only [reads, step, Spells]
      split <;> grind
  case many set =>
    simp only [reads, mem_run, List.not_mem_nil, false_or]
    constructor
    · rintro ⟨hf, w, hw, hs⟩
      exact ⟨w, hw, hs, by simp [hf, hw.left]⟩
    · rintro ⟨w, hw, hs, hf⟩
      exact ⟨by simp [hf, hw.left], w, hw, hs⟩
  case seq p q hp hq =>
    simp only [unanchored, Bool.and_eq_true] at h
    simp only [reads, List.mem_flatMap, hp h.left, hq h.right, Spells]
    constructor
    · rintro ⟨mid, ⟨u, hu, hs, hf⟩, v, hv, hs', hf'⟩
      exact ⟨u ++ v, ⟨u, v, hu, hv, rfl⟩, by simp [hs, hs'], by
        cases u <;> simp [hf', hf]⟩
    · rintro ⟨_, ⟨u, v, hu, hv, rfl⟩, hs, hf⟩
      exact ⟨⟨v ++ cur'.rest, cur.fresh && u.isEmpty⟩, ⟨u, hu, by simpa using hs, rfl⟩, v, hv, rfl,
        by cases u <;> simpa using hf⟩
  case alt p q hp hq =>
    simp only [unanchored, Bool.and_eq_true] at h
    simp only [reads, List.mem_append, hp h.left, hq h.right, Spells, or_and_right, exists_or]
  case opt p hp =>
    obtain ⟨s, fresh⟩ := cur
    obtain ⟨rest, fresh'⟩ := cur'
    simp only [reads, List.mem_append, hp h, Spells, or_and_right, exists_or]
    simp [eq_comm]

theorem accepts_iff (h : p.unanchored) : p.accepts s ↔ p.Spells s := by
  simp only [accepts, List.any_eq_true, mem_reads_iff h, Cursor.at, List.isEmpty_iff]
  constructor
  · rintro ⟨cur, ⟨w, hw, hs, _⟩, hr⟩
    simpa [hs, hr] using hw
  · intro hs
    exact ⟨⟨[], s.isEmpty⟩, ⟨s, hs, by simp, by simp⟩, rfl⟩

theorem opens_iff (h : p.unanchored) : p.opens s ↔ ∃ w rest, p.Spells w ∧ s = w ++ rest := by
  simp only [opens, Bool.not_eq_true', List.isEmpty_eq_false_iff_exists_mem, mem_reads_iff h]
  constructor
  · rintro ⟨cur, w, hw, hs, _⟩
    exact ⟨w, cur.rest, hw, hs⟩
  · rintro ⟨w, rest, hw, hs⟩
    exact ⟨⟨rest, w.isEmpty⟩, w, hw, hs, by simp [Cursor.at]⟩

theorem unanchored_reverse : p.reverse.unanchored = p.unanchored := by
  induction p <;> simp_all [reverse, unanchored, Bool.and_comm]

theorem spells_reverse {w : List Char} : p.reverse.Spells w ↔ p.Spells w.reverse := by
  induction p generalizing w
  case start | stop | one | many => simp [reverse, Spells]
  case alt p q hp hq => simp [reverse, Spells, hp, hq]
  case opt p hp => simp [reverse, Spells, hp]
  case seq p q hp hq =>
    simp only [reverse, Spells, hp, hq]
    constructor
    · rintro ⟨u, v, hu, hv, rfl⟩
      exact ⟨v.reverse, u.reverse, hv, hu, by simp⟩
    · rintro ⟨u, v, hu, hv, hw⟩
      exact ⟨v.reverse, u.reverse, by simpa using hv, by simpa using hu, by
        rw [← List.reverse_append, ← hw, List.reverse_reverse]⟩

theorem closes_iff {behind : List Char} (h : p.unanchored) :
    p.closes behind ↔ ∃ w rest, p.Spells w ∧ behind = w.reverse ++ rest := by
  rw [closes, opens_iff (by rwa [unanchored_reverse])]
  constructor
  · rintro ⟨w, rest, hw, hs⟩
    exact ⟨w.reverse, rest, spells_reverse.mp hw, by simp [hs]⟩
  · rintro ⟨w, rest, hw, hs⟩
    exact ⟨w.reverse, rest, spells_reverse.mpr (by simpa using hw), hs⟩

def mentions (c : Char) : Pattern → Bool
  | start | stop       => false
  | one set | many set => set.holds c
  | seq p q | alt p q  => p.mentions c || q.mentions c
  | opt p              => p.mentions c

theorem mentions_of_spells (h : p.Spells w) (hc : c ∈ w) : p.mentions c := by
  induction p generalizing w
  case start | stop => exact absurd hc (by rw [h]; simp)
  case one set =>
    have ⟨d, hd, hw⟩ := h
    rw [hw, List.mem_singleton] at hc
    exact hc ▸ hd
  case many set => exact h.right c hc
  case seq p q hp hq =>
    have ⟨u, v, hu, hv, hw⟩ := h
    rw [hw] at hc
    cases List.mem_append.mp hc
    case inl hc => exact Bool.or_eq_true_iff.mpr <| .inl (hp hu hc)
    case inr hc => exact Bool.or_eq_true_iff.mpr <| .inr (hq hv hc)
  case alt p q hp hq =>
    cases h
    case inl h => exact Bool.or_eq_true_iff.mpr <| .inl (hp h hc)
    case inr h => exact Bool.or_eq_true_iff.mpr <| .inr (hq h hc)
  case opt p hp =>
    cases h
    case inl h => exact hp h hc
    case inr h => exact absurd hc (by rw [h]; simp)

end Reckoner.Pattern
