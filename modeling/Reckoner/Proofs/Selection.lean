import Reckoner.Proofs.Cover

namespace Reckoner

namespace Rule

variable {r : Rule} {k : Kind} {behind ahead : List Char} {n : Nat}

-- A rule takes the next characters of a text as a lexeme of one of its kinds, where no kind in front
-- of it has a lexeme that the rule could take.
def TakesAs (r : Rule) (k : Kind) (ahead : List Char) (n : Nat) : Prop :=
  ∃ before after, r.identity = before ++ k :: after ∧
    (∀ l ∈ before, r.length? l ahead = none) ∧ r.length? k ahead = some n

theorem match?_eq_some_iff :
    r.match? behind ahead = some n ↔ r.fitsBehind behind ∧ ∃ k, r.TakesAs k ahead n := by
  rw [match?]
  split
  case isFalse hb => simp [hb]
  case isTrue hb  =>
    rw [List.findSome?_eq_some_iff]
    constructor
    case mp =>
      rintro ⟨before, k, after, hi, hk, hn⟩
      exact ⟨hb, k, before, after, hi, hn, hk⟩
    case mpr =>
      rintro ⟨_, k, before, after, hi, hn, hk⟩
      exact ⟨before, k, after, hi, hk, hn⟩

theorem unanchored_of_accepts {w : List Char} (hw : w ≠ []) (h : k.pattern.accepts w) :
    k.pattern.unanchored := by
  rcases k.unanchored_or with hu | rfl | rfl
  case inl => exact hu
  case inr.inl => simp [Kind.pattern, Pattern.accepts, Pattern.reads, Pattern.Cursor.at, hw] at h
  case inr.inr => simp [Kind.pattern, Pattern.accepts, Pattern.reads, Pattern.Cursor.at, hw] at h

theorem length?_isSome_of_accepts {l : Kind} (h : r.length? k ahead = some n)
    (hl : l.pattern.accepts (ahead.take n)) : (r.length? l ahead).isSome := by
  have ⟨hp, hb, _, hf⟩ := length?_eq_some (unanchored_of_length? h) h
  have hw : ahead.take n ≠ [] := List.ne_nil_of_length_pos <| by rwa [List.length_take_of_le hb]
  have hu := unanchored_of_accepts hw hl
  have ⟨_, hm, _⟩ := le_length?_of_fitsAhead hu hp hb ((Pattern.accepts_iff hu).mp hl) hf
  rw [hm, Option.isSome_some]

namespace TakesAs

variable (h : r.TakesAs k ahead n)

include h

theorem accepts : k.accepts (.ofList (ahead.take n)) := by
  have ⟨_, _, _, _, hk⟩ := h
  have hu := unanchored_of_length? hk
  have ⟨_, _, hw, _⟩ := length?_eq_some hu hk
  rw [Kind.accepts, String.toList_ofList]
  exact (Pattern.accepts_iff hu).mpr hw

theorem find?_accepts : r.identity.find? (·.accepts (.ofList (ahead.take n))) = some k := by
  have ⟨before, after, hi, hn, hk⟩ := h
  rw [List.find?_eq_some_iff_append]
  refine ⟨h.accepts, before, after, hi, fun l hl => ?_⟩
  rw [Bool.not_eq_true', Bool.eq_false_iff]
  intro ha
  rw [Kind.accepts, String.toList_ofList] at ha
  have hs := length?_isSome_of_accepts hk ha
  rw [hn l hl] at hs
  contradiction

theorem mem_identity : k ∈ r.identity := by
  have ⟨_, _, hi, _⟩ := h
  rw [hi]
  exact List.mem_append_right _ List.mem_cons_self

theorem kind_eq (name : String) (offset : Nat) :
    (Match.of (name, r) offset (ahead.take n)).kind = k := by
  rw [Match.kind]
  exact h.find?_accepts ▸ rfl

theorem exists_token (name : String) (offset : Nat) :
    ∃ t, (Match.of (name, r) offset (ahead.take n)).token = .ok t ∧ t.kind = k := by
  have hm := h.kind_eq name offset
  have ha : (Match.of (name, r) offset (ahead.take n)).kind.accepts (.ofList (ahead.take n)) := by
    rw [hm]
    exact h.accepts
  exact ⟨_, dif_pos ha, hm⟩

theorem token_eq_ok {r' : Rule} {name name' : String} {offset : Nat} {t : Token}
    (h' : r'.TakesAs k ahead n) (ht : (Match.of (name, r) offset (ahead.take n)).token = .ok t) :
    (Match.of (name', r') offset (ahead.take n)).token = .ok t := by
  have ⟨hk, hw, hs⟩ := Token.make_eq_ok.mp ht
  refine Token.make_eq_ok.mpr ⟨?_, hw, hs⟩
  rw [hk, h.kind_eq, h'.kind_eq]

end TakesAs

end Rule

namespace Grammar

variable {g : Grammar} {offset : Nat} {behind ahead : List Char} {m : Match} {ms : List Match}

theorem Divides.exists_takesAs (h : g.Divides offset behind ahead ms) (hm : m ∈ ms) :
    ∃ rule k offset rest n, m = .of rule offset (rest.take n) ∧ rule.2.TakesAs k rest n := by
  induction h
  case done       => contradiction
  case pass hi    => exact hi hm
  case take offset behind w s rule ms _ _ hf _ hi =>
    cases hm
    case tail hm => exact hi hm
    case head    =>
      have ⟨_, _, _, ht, _⟩ := first?_eq_some hf
      have ⟨_, k, hk⟩ := Rule.match?_eq_some_iff.mp ht
      exact ⟨rule, k, offset, w ++ s, w.length, by rw [List.take_left], hk⟩

end Grammar

-- Whatever kinds a rule has, and in whatever order, the first of them that accepts a text taken by the
-- rule is the kind that it was taken as. So every match of a grammar becomes a token of one of the
-- kinds of its rule.
theorem Rule.match?_kind :
    (∀ (r : Rule) behind ahead n, r.match? behind ahead = some n → ∃ k, r.TakesAs k ahead n ∧
      r.identity.find? (·.accepts (.ofList (ahead.take n))) = some k ∧
      ∀ name offset, ∃ t, (Match.of (name, r) offset (ahead.take n)).token = .ok t ∧ t.kind = k) ∧
    ∀ (g : Grammar) s, ∀ m ∈ g.find s, ∃ t, m.token = .ok t ∧ t.kind ∈ m.identity := by
  constructor
  case left =>
    intro r behind ahead n h
    have ⟨_, k, hk⟩ := match?_eq_some_iff.mp h
    exact ⟨k, hk, hk.find?_accepts, hk.exists_token⟩
  case right =>
    intro g s m hm
    have ⟨rule, k, offset, rest, n, he, hk⟩ := (g.divides 0 [] s).exists_takesAs hm
    have ⟨t, ht, hkt⟩ := hk.exists_token rule.1 offset
    rw [he]
    exact ⟨t, ht, hkt ▸ hk.mem_identity⟩

theorem Rule.match?_kind_shorter :
    let r : Rule := ⟨[.binary .subtract, .number, .anything, .number], [.textEnd], [.number], by decide⟩
    r.match? ['('] ['1', '2', 'e', '-', '3'] = some 1 ∧
    ∃ k, r.TakesAs k ['1', '2', 'e', '-', '3'] 1 ∧
      r.identity.find? (·.accepts (.ofList ['1'])) = some k ∧
      ∀ name offset, ∃ t, (Match.of (name, r) offset ['1']).token = .ok t ∧ t.kind = k := by
  intro r
  have hm : r.match? ['('] ['1', '2', 'e', '-', '3'] = some 1 := by decide
  exact ⟨hm, match?_kind.left r _ _ 1 hm⟩

end Reckoner
