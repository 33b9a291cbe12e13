import Reckoner.Proofs.Lead

namespace Reckoner

namespace Pattern

-- The first way to read a beginning of the text.
def Prefers (p : Pattern) (cur cur' : Cursor) : Prop :=
  (p.reads cur).head? = some cur'

def single : Pattern → Bool
  | one _   => true
  | seq p q => p.single && q.single
  | _       => false

variable {p q : Pattern} {set : CharSet} {cur mid cur' : Cursor} {s w rest : List Char} {n : Nat}
  {fresh : Bool}

namespace Prefers

theorem seq (hp : p.Prefers cur mid) (hq : q.Prefers mid cur') : (seq p q).Prefers cur cur' := by
  have ⟨more, hr⟩ := List.head?_eq_some_iff.mp hp
  have ⟨more', hr'⟩ := List.head?_eq_some_iff.mp hq
  simp [Prefers, reads, hr, hr']

theorem alt_left (hp : p.Prefers cur cur') : (alt p q).Prefers cur cur' := by
  have ⟨more, hr⟩ := List.head?_eq_some_iff.mp hp
  simp [Prefers, reads, hr]

theorem alt_right (hp : p.reads cur = []) (hq : q.Prefers cur cur') :
    (alt p q).Prefers cur cur' := by
  simpa [Prefers, reads, hp] using hq

theorem opt (hp : p.Prefers cur cur') : (opt p).Prefers cur cur' := by
  have ⟨more, hr⟩ := List.head?_eq_some_iff.mp hp
  simp [Prefers, reads, hr]

theorem opt_skip (hp : p.reads cur = []) : (Pattern.opt p).Prefers cur cur := by
  simp [Prefers, reads, hp]

theorem one {c : Char} (h : set.holds c) : (one set).Prefers ⟨c :: rest, fresh⟩ ⟨rest, false⟩ := by
  simp [Prefers, reads, step, h]

theorem many (hw : (many set).Spells w) (hr : ∀ c ∈ rest.head?, ¬set.holds c) :
    (many set).Prefers ⟨w ++ rest, fresh⟩ ⟨rest, false⟩ := by
  have stop (found : List Cursor) : run set found rest = found := by
    cases rest <;> simp_all [run]
  have go : ∀ (w : List Char) (found : List Cursor), (∀ c ∈ w, set.holds c) →
      (run set found (w ++ rest)).head? = if w = [] then found.head? else some ⟨rest, false⟩ := by
    intro w
    induction w
    case nil          => simp [stop]
    case cons c w hi  =>
      intro found hw
      rw [List.cons_append, run, if_pos (hw c List.mem_cons_self),
        hi _ fun d hd => hw d (List.mem_cons_of_mem c hd)]
      split <;> simp_all
  rw [Prefers, reads, go w [] hw.right, if_neg hw.left]

theorem option (rest : List Char) (hw : (Pattern.opt <| .seq (.one set) q).Spells w)
    (hq : ∀ v, q.Spells v → q.Prefers ⟨v ++ rest, false⟩ ⟨rest, false⟩)
    (hr : ∀ c ∈ rest.head?, ¬set.holds c) (fresh : Bool) :
    ∃ f, (Pattern.opt <| .seq (.one set) q).Prefers ⟨w ++ rest, fresh⟩ ⟨rest, f⟩ := by
  rcases hw with ⟨_, v, ⟨c, hc, rfl⟩, hv, rfl⟩ | rfl
  · exact ⟨false, .opt <| .seq (.one hc) (hq v hv)⟩
  · exact ⟨fresh, opt_skip <| by cases rest <;> simp_all [reads, step]⟩

theorem of_single (hp : p.single) (hw : p.Spells w) :
    p.Prefers ⟨w ++ rest, fresh⟩ ⟨rest, false⟩ := by
  induction p generalizing w rest fresh <;> try contradiction
  case one set =>
    have ⟨c, hc, hw⟩ := hw
    subst hw
    exact .one hc
  case seq p q hp' hq' =>
    simp only [single, Bool.and_eq_true] at hp
    have ⟨u, v, hu, hv, hw⟩ := hw
    subst hw
    rw [List.append_assoc]
    exact (hp' hp.left hu).seq (hq' hp.right hv)

theorem length? (h : p.Prefers (.at (w ++ rest)) ⟨rest, fresh⟩) :
    p.length? (w ++ rest) = some w.length := by
  rw [Prefers] at h
  simp [Pattern.length?, h]

end Prefers

theorem length?_eq_some (hp : p.unanchored) (h : p.length? s = some n) :
    n ≤ s.length ∧ p.Spells (s.take n) := by
  have ⟨cur, hc, hn⟩ := Option.map_eq_some_iff.mp h
  have ⟨w, hw, hs, _⟩ := (mem_reads_iff hp).mp (List.mem_of_head? hc)
  simp only [Cursor.at] at hs
  subst hs
  simp only [List.length_append, Nat.add_sub_cancel] at hn
  subst hn
  simpa using hw

end Pattern

namespace Kind

open Pattern (Prefers)

theorem head_of_option {set : CharSet} {q : Pattern} {w rest : List Char}
    (h : (Pattern.opt <| .seq (.one set) q).Spells w) :
    w = [] ∨ ∃ c ∈ (w ++ rest).head?, set.holds c := by
  rcases h with ⟨_, v, ⟨c, hc, rfl⟩, _, rfl⟩ | h
  · exact .inr ⟨c, rfl, hc⟩
  · exact .inl h

theorem prefers_sign {w rest : List Char} {fresh : Bool} (h : numeral.sign.Spells w) :
    numeral.sign.Prefers ⟨w ++ rest, fresh⟩ ⟨rest, false⟩ := by
  cases h
  case inl h => exact (Prefers.of_single rfl h).alt_left
  case inr h =>
    refine .alt_right ?_ (Prefers.of_single rfl h)
    rw [(spells_sign_iff (by decide) (by decide)).mp h]
    rfl

theorem eq_point {c : Char} (h : Text.sameLetter '.' c) : c = '.' :=
  Text.eq_of_sameLetter (by decide) (by decide) h

theorem head_of_exponent {q : Pattern} {w rest : List Char}
    (hw : (Pattern.opt <| .seq (.one <| .char 'e') q).Spells w)
    (hr : ∀ c ∈ rest.head?, ¬c.isDigit ∧ c ≠ '.') :
    ∀ c ∈ (w ++ rest).head?, ¬c.isDigit ∧ c ≠ '.' := by
  rcases head_of_option hw with rfl | ⟨c, hc, he⟩
  · exact hr
  · have hl := Text.isLetter_of_sameLetter he (by decide)
    intro d hd
    cases Option.mem_unique hc hd
    exact ⟨fun h => Text.not_isLetter_of_isDigit h hl, by rintro rfl; exact absurd hl (by decide)⟩

theorem head_of_fraction {q : Pattern} {w rest : List Char}
    (hw : (Pattern.opt <| .seq (.one <| .char '.') q).Spells w)
    (hr : ∀ c ∈ rest.head?, ¬c.isDigit) : ∀ c ∈ (w ++ rest).head?, ¬c.isDigit := by
  rcases head_of_option hw with rfl | ⟨c, hc, he⟩
  · exact hr
  · intro d hd
    cases Option.mem_unique hc hd
    rw [eq_point he]
    decide

theorem prefers_numeral {w rest : List Char} {fresh : Bool} (hw : numeral.Spells w)
    (hr : ∀ c ∈ rest.head?, ¬c.isDigit ∧ c ≠ '.' ∧ ¬Text.sameLetter 'e' c) :
    ∃ f, numeral.Prefers ⟨w ++ rest, fresh⟩ ⟨rest, f⟩ := by
  obtain ⟨u, _, hu, ⟨v, x, hv, hx, rfl⟩, rfl⟩ := hw
  have hx' := head_of_exponent hx fun c hc => ⟨(hr c hc).left, (hr c hc).right.left⟩
  have hv' := head_of_fraction hv fun c hc => (hx' c hc).left
  have exponent := Prefers.option rest hx
    (by
      rintro _ ⟨s, ds, hs, hd, rfl⟩
      rw [List.append_assoc]
      exact (prefers_sign hs).seq (.many hd fun c hc => (hr c hc).left))
    (fun c hc => (hr c hc).right.right)
  have fraction := Prefers.option (x ++ rest) hv
    (fun ds hd => .many hd fun c hc => (hx' c hc).left)
    (fun c hc h => (hx' c hc).right (eq_point h))
  have ⟨f, hf⟩ := fraction false
  have ⟨g, hg⟩ := exponent f
  refine ⟨g, ?_⟩
  rw [List.append_assoc, List.append_assoc]
  exact .seq (.many hu hv') (hf.seq hg)

end Kind
end Reckoner
