import Mathlib.Computability.Language
import Reckoner.Proofs.LetterCase

open scoped Computability

namespace Reckoner

namespace Text

-- A folding of all characters that does to ASCII, and onto ASCII, what the simple case folding of
-- Unicode does.
structure Folding (fold : Char → Char) : Prop where
  ascii  : ∀ c, c.toNat < 128 → fold c = c.toLower
  long   : fold '\u017f' = 's'
  kelvin : fold '\u212a' = 'k'
  other  : ∀ c, 128 ≤ c.toNat → c ≠ '\u017f' → c ≠ '\u212a' → 128 ≤ (fold c).toNat

variable {f : Char → Char} {c d : Char}

theorem toLower_ascii_iff : c.toLower.toNat < 128 ↔ c.toNat < 128 := by
  cases toLower_eq_or_mem c
  case inl hc => rw [hc]
  case inr hc =>
    have ha : capitals.all fun c => c.toNat < 128 ∧ c.toLower.toNat < 128 := by decide
    have ⟨hl, hc⟩ := of_decide_eq_true <| List.all_eq_true.mp ha c hc
    exact iff_of_true hc hl

theorem fold_of_ne (hs : c ≠ '\u017f') (hk : c ≠ '\u212a') : fold c = c.toLower := by
  rw [fold, if_neg hs, if_neg hk]

namespace Folding

theorem fold : Folding fold where
  ascii c hc       := fold_of_ne (by rintro rfl; contradiction) (by rintro rfl; contradiction)
  long             := rfl
  kelvin           := rfl
  other c hc hs hk := by
    rw [fold_of_ne hs hk]
    exact Nat.not_lt.mp <| toLower_ascii_iff.not.mpr <| Nat.not_lt.mpr hc

theorem eq_fold_or (h : Folding f) (c : Char) :
    f c = Text.fold c ∨ 128 ≤ (f c).toNat ∧ 128 ≤ (Text.fold c).toNat := by
  by_cases hs : c = '\u017f'
  case pos => exact .inl <| by rw [hs, h.long, fold.long]
  case neg =>
  by_cases hk : c = '\u212a'
  case pos => exact .inl <| by rw [hk, h.kelvin, fold.kelvin]
  case neg =>
  cases Nat.lt_or_ge c.toNat 128
  case inl hc => exact .inl <| by rw [h.ascii c hc, fold.ascii c hc]
  case inr hc => exact .inr ⟨h.other c hc hs hk, fold.other c hc hs hk⟩

theorem eq_iff (h : Folding f) (hd : d.toNat < 128) : f d = f c ↔ sameLetter d c := by
  have hf : f d = Text.fold d := (h.ascii d hd).trans (fold.ascii d hd).symm
  have ha : (Text.fold d).toNat < 128 := by rwa [fold.ascii d hd, toLower_ascii_iff]
  rw [sameLetter, beq_iff_eq, hf]
  rcases h.eq_fold_or c with hc | ⟨hc, hc'⟩
  case inl => rw [hc]
  case inr =>
    refine iff_of_false (fun he => ?_) (fun he => ?_)
    · exact absurd (he ▸ ha) (Nat.not_lt.mpr hc)
    · exact absurd (he ▸ ha) (Nat.not_lt.mpr hc')

end Folding
end Text

namespace CharSet

def exact : CharSet → Set Char
  | char c   => {c}
  | among cs => {c | c ∈ cs}
  | digit    => {c | '0' ≤ c ∧ c ≤ '9'}
  | line     => {c | c ≠ '\n'}

def plain : CharSet → Bool
  | char c       => c.toNat < 128
  | among cs     => cs.all (·.toNat < 128)
  | digit | line => true

variable {f : Char → Char} {set : CharSet} {c d : Char}

theorem mem_exact_digit : d ∈ digit.exact ↔ d.isDigit := by
  simp [exact, Char.isDigit, Char.le_def]

theorem eq_of_fold_eq (hf : Text.Folding f) (hd : d.toNat < 128) (hl : ¬Text.isLetter d)
    (hs : Text.fold d = d) (h : f d = f c) : c = d :=
  Text.eq_of_sameLetter hs hl <| (hf.eq_iff hd).mp h

theorem holds_iff (hf : Text.Folding f) (hp : set.plain) : set.holds c ↔ f c ∈ f '' set.exact := by
  cases set
  case char d   =>
    rw [holds, exact, Set.image_singleton, Set.mem_singleton_iff, eq_comm (a := f c)]
    exact (hf.eq_iff (of_decide_eq_true hp)).symm
  case among ds =>
    rw [holds, List.any_eq_true]
    refine exists_congr fun d => and_congr_right fun hd => (hf.eq_iff ?_).symm
    exact of_decide_eq_true <| List.all_eq_true.mp hp d hd
  case digit    =>
    refine ⟨fun h => ⟨c, mem_exact_digit.mpr h, rfl⟩, ?_⟩
    rintro ⟨d, hd, he⟩
    have hd := mem_exact_digit.mp hd
    have ha : d.toNat < 128 := by
      simp [Char.isDigit, UInt32.le_iff_toNat_le] at hd
      omega
    have hs : Text.fold d = d := (Text.Folding.fold.ascii d ha).trans (Text.toLower_of_isDigit hd)
    rwa [eq_of_fold_eq hf ha (Text.not_isLetter_of_isDigit hd) hs he]
  case line     =>
    rw [holds, bne_iff_ne]
    refine ⟨fun h => ⟨c, h, rfl⟩, ?_⟩
    rintro ⟨d, hd, he⟩ rfl
    exact hd (eq_of_fold_eq hf (by decide) (by decide) (by decide) he.symm)

end CharSet

namespace Pattern

def letters (cs : Set Char) : Language Char :=
  {w | ∃ c ∈ cs, w = [c]}

def language : Pattern → Language Char
  | start    => 1
  | stop     => 1
  | one set  => letters set.exact
  | many set => letters set.exact * (letters set.exact)∗
  | seq p q  => p.language * q.language
  | alt p q  => p.language + q.language
  | opt p    => p.language + 1

def plain : Pattern → Bool
  | start | stop       => true
  | one set | many set => set.plain
  | seq p q | alt p q  => p.plain && q.plain
  | opt p              => p.plain

variable {f : Char → Char} {set : CharSet} {p : Pattern} {cs : Set Char} {w : List Char}

theorem mem_letters : w ∈ letters cs ↔ ∃ c ∈ cs, w = [c] :=
  Iff.rfl

theorem map_letters : Language.map f (letters cs) = letters (f '' cs) := by
  ext w
  constructor
  case mp =>
    rintro ⟨_, ⟨c, hc, rfl⟩, rfl⟩
    exact ⟨f c, Set.mem_image_of_mem f hc, rfl⟩
  case mpr =>
    rintro ⟨_, ⟨c, hc, rfl⟩, rfl⟩
    exact ⟨[c], ⟨c, hc, rfl⟩, rfl⟩

theorem mem_letters_kstar : w ∈ (letters cs)∗ ↔ ∀ c ∈ w, c ∈ cs := by
  rw [Language.mem_kstar]
  constructor
  case mp =>
    rintro ⟨ws, rfl, hw⟩ c hc
    obtain ⟨v, hv, hc⟩ := List.mem_flatten.mp hc
    obtain ⟨d, hd, rfl⟩ := hw v hv
    rwa [List.mem_singleton.mp hc]
  case mpr =>
    refine fun h => ⟨w.map ([·]), ?_, fun v hv => ?_⟩
    · rw [← List.flatMap_def, List.flatMap_singleton']
    · obtain ⟨c, hc, rfl⟩ := List.mem_map.mp hv
      exact ⟨c, h c hc, rfl⟩

theorem mem_letters_mul_kstar :
    w ∈ letters cs * (letters cs)∗ ↔ w ≠ [] ∧ ∀ c ∈ w, c ∈ cs := by
  rw [Language.mem_mul]
  constructor
  case mp =>
    rintro ⟨_, ⟨c, hc, rfl⟩, v, hv, rfl⟩
    exact ⟨List.cons_ne_nil c v, List.forall_mem_cons.mpr ⟨hc, mem_letters_kstar.mp hv⟩⟩
  case mpr =>
    rintro ⟨hn, hw⟩
    obtain ⟨c, v, rfl⟩ := List.exists_cons_of_ne_nil hn
    have ⟨hc, hv⟩ := List.forall_mem_cons.mp hw
    exact ⟨[c], ⟨c, hc, rfl⟩, v, mem_letters_kstar.mpr hv, rfl⟩

-- A pattern has the words that fold onto what a word of the language folds onto.
theorem spells_iff_mem_map_language (hf : Text.Folding f) (hp : p.plain) :
    p.Spells w ↔ w.map f ∈ Language.map f p.language := by
  induction p generalizing w
  case start | stop  => rw [language, map_one, Language.mem_one, List.map_eq_nil_iff, Spells]
  case one set       =>
    rw [language, map_letters, mem_letters, Spells]
    constructor
    case mp =>
      rintro ⟨c, hc, rfl⟩
      exact ⟨f c, (CharSet.holds_iff hf hp).mp hc, rfl⟩
    case mpr =>
      rintro ⟨d, hd, hw⟩
      obtain ⟨c, rfl, rfl⟩ := List.map_eq_singleton_iff.mp hw
      exact ⟨c, (CharSet.holds_iff hf hp).mpr hd, rfl⟩
  case many set      =>
    rw [language, map_mul, Language.map_kstar, map_letters, mem_letters_mul_kstar, Spells]
    simp only [ne_eq, List.map_eq_nil_iff, List.forall_mem_map, CharSet.holds_iff hf hp]
  case seq p q hp' hq' =>
    obtain ⟨hp, hq⟩ := Bool.and_eq_true_iff.mp hp
    rw [language, map_mul, Language.mem_mul, Spells]
    constructor
    case mp =>
      rintro ⟨u, v, hu, hv, rfl⟩
      exact ⟨u.map f, (hp' hp).mp hu, v.map f, (hq' hq).mp hv, List.map_append.symm⟩
    case mpr =>
      rintro ⟨_, hu, _, hv, hw⟩
      obtain ⟨u, v, rfl, rfl, rfl⟩ := List.map_eq_append_iff.mp hw.symm
      exact ⟨u, v, (hp' hp).mpr hu, (hq' hq).mpr hv, rfl⟩
  case alt p q hp' hq' =>
    obtain ⟨hp, hq⟩ := Bool.and_eq_true_iff.mp hp
    rw [language, map_add, Language.mem_add, Spells, hp' hp, hq' hq]
  case opt p hp'       =>
    rw [language, map_add, map_one, Language.mem_add, Language.mem_one, List.map_eq_nil_iff, Spells,
      hp' hp]

end Pattern

namespace Kind

theorem plain_pattern : ∀ k : Kind, k.pattern.plain := by
  decide

theorem accepts_iff_spells (k : Kind) (text : String) :
    k.accepts text ↔ k.pattern.Spells text.toList := by
  rcases k.unanchored_or with hu | rfl | rfl
  case inl => exact Pattern.accepts_iff hu
  all_goals
    simp [accepts, pattern, Pattern.accepts, Pattern.reads, Pattern.Cursor.at, Pattern.Spells]

theorem accepts_iff_mem_map_language {f : Char → Char} (hf : Text.Folding f) (k : Kind)
    (text : String) :
    k.accepts text ↔ text.toList.map f ∈ Language.map f k.pattern.language :=
  (k.accepts_iff_spells text).trans <| Pattern.spells_iff_mem_map_language hf k.plain_pattern

end Kind
end Reckoner
