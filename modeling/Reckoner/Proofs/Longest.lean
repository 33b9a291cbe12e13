import Reckoner.Proofs.Preference

namespace Reckoner

namespace Pattern

def Definite (p : Pattern) : Prop :=
  ∀ cur, ∀ a ∈ p.reads cur, ∀ b ∈ p.reads cur, a = b

-- Whatever else is read is shorter than what is read first, and could be gone on with.
def Greedy (p : Pattern) (goesOn : Char → Prop) : Prop :=
  ∀ cur first other, p.Prefers cur first → other ∈ p.reads cur →
    other = first ∨ first.rest.length < other.rest.length ∧ ∃ c ∈ other.rest.head?, goesOn c

def Idle (p : Pattern) (c : Char) : Prop :=
  ∀ s fresh, p.reads ⟨c :: s, fresh⟩ = [⟨c :: s, fresh⟩]

variable {p q : Pattern} {set set' : CharSet} {cur first other : Cursor} {c : Char}
  {goesOn goesOn' : Char → Prop} {s w rest : List Char} {n : Nat}

theorem mem_step (h : other ∈ step set s) : ∃ c t, s = c :: t ∧ set.holds c ∧ other = ⟨t, false⟩ := by
  cases s
  case nil      => contradiction
  case cons c t =>
    rw [step] at h
    split at h
    case isTrue hc => exact ⟨c, t, rfl, hc, List.mem_singleton.mp h⟩
    case isFalse   => contradiction

theorem length_le_of_mem_reads (h : other ∈ p.reads cur) : other.rest.length ≤ cur.rest.length := by
  induction p generalizing cur other
  case start | stop =>
    rw [reads] at h
    split at h
    case isTrue  => exact Nat.le_of_eq <| by rw [List.mem_singleton.mp h]
    case isFalse => contradiction
  case one set =>
    obtain ⟨c, t, hs, _, ho⟩ := mem_step h
    rw [hs, ho]
    exact Nat.le_succ _
  case many set =>
    obtain ⟨_, w, _, hs⟩ := (mem_run.mp h).resolve_left List.not_mem_nil
    simp [hs]
  case seq p q hp hq =>
    obtain ⟨mid, hm, ho⟩ := List.mem_flatMap.mp h
    exact Nat.le_trans (hq ho) (hp hm)
  case alt p q hp hq =>
    cases List.mem_append.mp h
    case inl h => exact hp h
    case inr h => exact hq h
  case opt p hp =>
    cases List.mem_append.mp h
    case inl h => exact hp h
    case inr h => exact Nat.le_of_eq <| by rw [List.mem_singleton.mp h]

namespace Definite

theorem alt_one : (alt (.one set) (.one set')).Definite := by
  have tail {cur a : Cursor} (h : a ∈ (alt (.one set) (.one set')).reads cur) :
      a = ⟨cur.rest.tail, false⟩ := by
    cases List.mem_append.mp h
    case inl h =>
      have ⟨c, t, hs, _, ha⟩ := mem_step h
      rw [ha, hs, List.tail_cons]
    case inr h =>
      have ⟨c, t, hs, _, ha⟩ := mem_step h
      rw [ha, hs, List.tail_cons]
  exact fun cur a ha b hb => (tail ha).trans (tail hb).symm

theorem of_single (h : p.single) : p.Definite := by
  induction p <;> try contradiction
  case one set =>
    intro cur a ha b hb
    obtain ⟨c, t, hs, _, ha⟩ := mem_step ha
    obtain ⟨d, u, hs', _, hb⟩ := mem_step hb
    cases hs.symm.trans hs'
    exact ha.trans hb.symm
  case seq p q hp hq =>
    intro cur a ha b hb
    simp only [single, Bool.and_eq_true] at h
    obtain ⟨mid, hm, ha⟩ := List.mem_flatMap.mp ha
    obtain ⟨mid', hm', hb⟩ := List.mem_flatMap.mp hb
    cases hp h.left cur mid hm mid' hm'
    exact hq h.right mid a ha b hb

end Definite

namespace Idle

theorem option (h : ¬set.holds c) : (opt <| .seq (.one set) q).Idle c := by
  intro s fresh
  simp [reads, step, h]

theorem seq (hp : p.Idle c) (hq : q.Idle c) : (Pattern.seq p q).Idle c := by
  intro s fresh
  simp [reads, hp s fresh, hq s fresh]

end Idle

namespace Greedy

theorem of_definite (h : p.Definite) : p.Greedy goesOn :=
  fun cur _ _ hf ho => .inl <| h cur _ ho _ <| List.mem_of_head? hf

theorem mono (hp : p.Greedy goesOn) (h : ∀ c, goesOn c → goesOn' c) : p.Greedy goesOn' :=
  fun cur first other hf ho =>
    (hp cur first other hf ho).imp_right fun ⟨hl, c, hc, hg⟩ => ⟨hl, c, hc, h c hg⟩

theorem many : (many set).Greedy (set.holds ·) := by
  intro cur first other hf ho
  obtain ⟨hfresh, v, hv, hs⟩ := (mem_run.mp ho).resolve_left nofun
  have hw : (Pattern.many set).Spells (v ++ other.rest.takeWhile set.holds) := by
    refine ⟨by simp [hv.left], fun c hc => ?_⟩
    cases List.mem_append.mp hc
    case inl hc => exact hv.right c hc
    case inr hc => exact List.all_eq_true.mp List.all_takeWhile c hc
  have hr : ∀ c ∈ (other.rest.dropWhile set.holds).head?, ¬set.holds c := by
    intro c hc
    have h := List.head?_dropWhile_not set.holds other.rest
    rw [Option.mem_def.mp hc] at h
    simpa using h
  have hp : (Pattern.many set).Prefers ⟨_, cur.fresh⟩ _ := .many hw hr
  rw [List.append_assoc, List.takeWhile_append_dropWhile, ← hs] at hp
  cases Option.some.inj (hf.symm.trans hp)
  obtain ⟨rest, fresh⟩ := other
  cases rest
  case nil      => exact .inl (by simpa using hfresh)
  case cons c s =>
    by_cases hc : set.holds c
    case neg => exact .inl (by simpa [hc] using hfresh)
    case pos =>
      refine .inr ⟨?_, c, rfl, hc⟩
      rw [List.dropWhile_cons_of_pos hc]
      exact Nat.lt_succ_of_le (List.dropWhile_suffix set.holds).length_le

theorem front (hp : p.Definite) (hq : q.Greedy goesOn) : (Pattern.seq p q).Greedy goesOn := by
  intro cur first other hf ho
  obtain ⟨mid, hm, ho⟩ := List.mem_flatMap.mp ho
  rw [Prefers, reads, List.head?_flatMap] at hf
  obtain ⟨mid', hm', hf⟩ := List.exists_of_findSome?_eq_some hf
  cases hp cur mid hm mid' hm'
  exact hq mid first other hf ho

theorem seq (hp : p.Greedy goesOn) (hq : q.Greedy goesOn') (hn : ∀ cur, q.reads cur ≠ [])
    (hi : ∀ c, goesOn c → q.Idle c) : (Pattern.seq p q).Greedy fun c => goesOn c ∨ goesOn' c := by
  intro cur first other hf ho
  obtain ⟨mid', hm', ho⟩ := List.mem_flatMap.mp ho
  obtain ⟨mid, _, hm⟩ := List.exists_cons_of_ne_nil (List.ne_nil_of_mem hm')
  obtain ⟨last, _, hl⟩ := List.exists_cons_of_ne_nil (hn mid)
  have hpm : p.Prefers cur mid := by rw [Prefers, hm]; rfl
  have hqf : q.Prefers mid last := by rw [Prefers, hl]; rfl
  cases Option.some.inj (hf.symm.trans (hpm.seq hqf))
  cases hp cur mid mid' hpm hm'
  case inl he =>
    rw [he] at ho
    exact hq.mono (fun _ => .inr) mid first other hqf ho
  case inr h =>
    obtain ⟨hlt, c, hc, hg⟩ := h
    obtain ⟨s, hs⟩ := List.head?_eq_some_iff.mp hc
    obtain ⟨_, fresh⟩ := mid'
    subst hs
    rw [hi c hg s fresh, List.mem_singleton] at ho
    subst ho
    have hle := length_le_of_mem_reads (List.mem_of_head? hqf)
    exact .inr ⟨Nat.lt_of_le_of_lt hle hlt, c, rfl, .inl hg⟩

theorem option (hp : p.Greedy goesOn) :
    (opt <| .seq (.one set) p).Greedy fun c => set.holds c ∨ goesOn c := by
  intro cur first other hf ho
  have hs : (Pattern.seq (.one set) p).Greedy goesOn := front (.of_single rfl) hp
  cases hr : (Pattern.seq (.one set) p).reads cur
  case nil =>
    rw [reads, hr, List.nil_append, List.mem_singleton] at ho
    rw [Prefers, reads, hr] at hf
    exact .inl <| ho.trans (Option.some.inj hf)
  case cons f more =>
    rw [Prefers, reads, hr] at hf
    cases Option.some.inj hf
    have hf : (Pattern.seq (.one set) p).Prefers cur first := by rw [Prefers, hr]; rfl
    cases List.mem_append.mp ho
    case inl ho => exact hs.mono (fun _ => .inr) cur first other hf ho
    case inr ho =>
      cases List.mem_singleton.mp ho
      obtain ⟨mid, hm, hf⟩ := List.mem_flatMap.mp (List.mem_of_head? hf)
      obtain ⟨c, t, ht, hc, hmid⟩ := mem_step hm
      subst hmid
      rw [ht]
      exact .inr ⟨Nat.lt_succ_of_le (length_le_of_mem_reads hf), c, rfl, .inl hc⟩

theorem le_length? (hg : p.Greedy goesOn) (hp : p.unanchored) (hw : p.Spells w)
    (rest : List Char) : ∃ n, p.length? (w ++ rest) = some n ∧ w.length ≤ n := by
  have hm : ⟨rest, w.isEmpty⟩ ∈ p.reads (.at (w ++ rest)) :=
    (mem_reads_iff hp).mpr ⟨w, hw, rfl, by simp [Cursor.at]⟩
  obtain ⟨first, _, hf⟩ := List.exists_cons_of_ne_nil (List.ne_nil_of_mem hm)
  have hf : p.Prefers (.at (w ++ rest)) first := by rw [Prefers, hf]; rfl
  have hl : first.rest.length ≤ rest.length := by
    cases hg _ first _ hf hm
    case inl h => exact Nat.le_of_eq <| by rw [← h]
    case inr h => exact Nat.le_of_lt h.left
  have hn : p.length? (w ++ rest) = some (w.length + rest.length - first.rest.length) := by
    rw [length?, hf, ← List.length_append]
    rfl
  exact ⟨_, hn, by omega⟩

end Greedy
end Pattern

namespace Kind

open Pattern (Greedy)

theorem greedy_digits : numeral.digits.Greedy (·.isDigit) :=
  Greedy.many

theorem greedy_numeral : ∃ goesOn, numeral.Greedy goesOn := by
  have digit_ne_point {c : Char} (hc : c.isDigit) : ¬Text.sameLetter '.' c := by
    intro h
    rw [Text.eq_of_sameLetter (by decide) (by decide) h] at hc
    contradiction
  have digit_ne_letter {c : Char} (hc : c.isDigit) : ¬Text.sameLetter 'e' c :=
    fun h => Text.not_isLetter_of_isDigit hc <| Text.isLetter_of_sameLetter h (by decide)
  have point_ne_letter {c : Char} (hc : Text.sameLetter '.' c) : ¬Text.sameLetter 'e' c := by
    rw [Text.eq_of_sameLetter (by decide) (by decide) hc]
    decide
  have fraction :
      (Pattern.opt <| .seq (.one <| .char '.') numeral.digits).Greedy _ := .option greedy_digits
  have exponent :
      (Pattern.opt <| .seq (.one <| .char 'e') <| .seq numeral.sign numeral.digits).Greedy _ :=
    .option <| .front .alt_one greedy_digits
  refine ⟨_, greedy_digits.seq (fraction.seq exponent (by simp [Pattern.reads]) fun c hc => ?_)
    (by simp [Pattern.reads]) fun c hc => ?_⟩
  · cases hc
    case inl hc => exact .option (point_ne_letter hc)
    case inr hc => exact .option (digit_ne_letter hc)
  · exact .seq (.option (digit_ne_point hc)) (.option (digit_ne_letter hc))

theorem greedy (k : Kind) (hk : k.pattern.unanchored) : ∃ goesOn, k.pattern.Greedy goesOn := by
  by_cases hn : k = .number
  · exact hn ▸ greedy_numeral
  by_cases ha : k = .anything
  · exact ha ▸ ⟨_, Greedy.many⟩
  · have hs := (by decide : ∀ k : Kind, k.pattern.unanchored → k ≠ .number → k ≠ .anything →
      k.pattern.single) k hk hn ha
    exact ⟨fun _ => False, .of_definite <| .of_single hs⟩

end Kind
end Reckoner
