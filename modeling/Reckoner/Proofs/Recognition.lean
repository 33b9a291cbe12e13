import Reckoner.Proofs.Arrangement
import Reckoner.Proofs.Shape
import Reckoner.Proofs.Words

namespace Reckoner

variable {o : Options} {t : Token} {ts out : List Token} {text : String} {span : Span}

-- The kinds that a computation has something to do with.
def Kind.runs (k : Kind) : Bool :=
  k.isOperand || k == .separator || k.computes

theorem Token.isBracket_or_runs (h : t.kind ∉ [.anything, .textStart, .textEnd]) :
    t.isBracket ∨ t.kind.runs := by
  rw [isBracket]
  cases hk : t.kind <;> simp_all [Kind.runs, Kind.isOperand, Kind.computes]

namespace Shape

variable {arity : Arity} {n : Nat} {stack : List Shape}

theorem pair_ne_unrecognized : pair t stack ≠ .error (.unrecognized text span) := by
  cases stack
  case nil          => nofun
  case cons y stack => cases stack <;> nofun

theorem reduce_ne_unrecognized : reduce t arity n stack ≠ .error (.unrecognized text span) := by
  intro h
  rw [reduce] at h
  split at h <;> cases h

theorem result_ne_unrecognized : result stack ≠ .error (.unrecognized text span) := by
  cases stack
  case nil      => nofun
  case cons v _ => cases v <;> nofun

theorem step_ne_unrecognized (h : t.kind.runs) : step stack t ≠ .error (.unrecognized text span) := by
  intro he
  rw [step] at he
  cases hk : t.kind <;> rw [hk] at h he
  case number | constant => contradiction
  case separator         =>
    rcases Except.bind_eq_error.mp he with hp | ⟨_, _, he⟩
    · exact pair_ne_unrecognized hp
    · contradiction
  case binary            =>
    rcases Except.bind_eq_error.mp he with hp | ⟨_, _, he⟩
    · exact pair_ne_unrecognized hp
    · exact reduce_ne_unrecognized he
  case unary | function  => exact reduce_ne_unrecognized he
  all_goals contradiction

theorem not_runs_of_step (h : step stack t = .error (.unrecognized text span)) :
    ¬t.kind.runs ∧ text = t.text ∧ span = t.span := by
  have hr : ¬t.kind.runs := fun hr => step_ne_unrecognized hr h
  obtain ⟨⟨ho, hs⟩, hc⟩ : (¬t.kind.isOperand ∧ t.kind ≠ .separator) ∧ ¬t.kind.computes := by
    simpa [Kind.runs, not_or] using hr
  rw [step_of_other ho hs hc] at h
  cases h
  exact ⟨hr, rfl, rfl⟩

end Shape

theorem exists_not_runs_of_execute (h : execute o ts = .error (.unrecognized text span)) :
    ∃ t ∈ ts, ¬t.kind.runs ∧ text = t.text ∧ span = t.span := by
  have hr : (Except.course (Execution.step o) Execution.result [] ts).2 = _ :=
    Except.course_snd.trans h
  rcases Shape.course_shape o [] ts with ⟨ho, _⟩ | ⟨_, hs⟩
  case inl =>
    obtain ⟨k, xs, he⟩ := ho
    cases hr.symm.trans he
  case inr =>
    rw [hr] at hs
    rcases Except.course_snd_eq_error hs.symm with ⟨t, stack, ht, he⟩ | ⟨stack, he⟩
    case inl => exact ⟨t, List.mem_of_getElem? ht, Shape.not_runs_of_step he⟩
    case inr => exact absurd he Shape.result_ne_unrecognized

namespace Postfix

theorem runs_of_ofTokens (h : ofTokens ts = .ok out) : ∀ t ∈ out, t.kind.runs := by
  intro t ht
  obtain ⟨hm, hb⟩ := List.mem_filter.mp <| (perm_of_ofTokens h).subset ht
  obtain ⟨before, after, hs⟩ := List.append_of_mem hm
  obtain ⟨y, hy, _⟩ := Except.map_eq_ok.mp h
  have hk : t.kind ∉ [.anything, .textStart, .textEnd] := fun hk =>
    exists_foldlM_iff.mp ⟨y, hy⟩ before t after _ hs (.unrecognized hk)
  exact (Token.isBracket_or_runs hk).resolve_left (by simpa using hb)

theorem execute_ne_unrecognized (h : ofTokens ts = .ok out) :
    execute o out ≠ .error (.unrecognized text span) := by
  intro he
  obtain ⟨t, ht, hr, _⟩ := exists_not_runs_of_execute he
  exact hr (runs_of_ofTokens h t ht)

end Postfix

theorem Token.value?_of_make (h : make .number text span = .ok t) :
    ∃ d, Decimal.ofNumeral? text.toList = some d ∧ t.value? = some d.toFloat := by
  obtain ⟨hk, ht, _⟩ := make_eq_ok.mp h
  have hw := (Kind.accepts_iff_spells .number t.text).mp (hk ▸ t.spelled)
  obtain ⟨d, hd⟩ := Option.isSome_iff_exists.mp (Decimal.ofNumeral?_isSome hw)
  exact ⟨d, ht ▸ hd, value?_of_numeral hk hd⟩

-- A kind accepts the words of its pattern in any case of their letters, a token of a number has a
-- value, and what the conversion of any tokens puts out is recognized by every computation.
theorem Kind.accepts_words_and_execute_recognizes {fold : Char → Char} (hf : Text.Folding fold) :
    (∀ (k : Kind) (text : String),
      k.accepts text ↔ text.toList.map fold ∈ Language.map fold k.pattern.language) ∧
    (∀ text span t, Token.make .number text span = .ok t →
      ∃ d, Decimal.ofNumeral? text.toList = some d ∧ t.value? = some d.toFloat) ∧
    ∀ ts out, Postfix.ofTokens ts = .ok out →
      ∀ o text span, execute o out ≠ .error (.unrecognized text span) :=
  ⟨fun k text => k.accepts_iff_mem_map_language hf text, fun _ _ _ => Token.value?_of_make,
    fun _ _ h _ _ _ => Postfix.execute_ne_unrecognized h⟩

theorem Kind.accepts_words_and_execute_recognizes_sine :
    let f : Token := ⟨.function .sin, "\u017fIN", ⟨0, 4⟩, by decide⟩
    let n : Token := ⟨.number, "2.5E+3", ⟨5, 11⟩, by decide⟩
    let o : Token := ⟨.opening, "(", ⟨4, 5⟩, by decide⟩
    "\u017fIN".toList.map Text.fold ∈ Language.map Text.fold (pattern <| .function .sin).language ∧
    (∃ d, Decimal.ofNumeral? "2.5E+3".toList = some d ∧ n.value? = some d.toFloat) ∧
    Postfix.ofTokens [f, o, n] = .ok [n, f] ∧
    execute .empty [n, f] ≠ .error (.unrecognized f.text f.span) := by
  intro f n o
  obtain ⟨hw, hv, hr⟩ := accepts_words_and_execute_recognizes Text.Folding.fold
  have hp : Postfix.ofTokens [f, o, n] = .ok [n, f] := rfl
  exact ⟨(hw _ _).mp f.spelled, hv _ n.span n (dif_pos n.spelled), hp,
    hr _ _ hp .empty f.text f.span⟩

end Reckoner
