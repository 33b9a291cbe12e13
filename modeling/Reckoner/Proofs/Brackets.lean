import Reckoner.Proofs.Conversion

namespace Reckoner

def Token.isBracket (t : Token) : Bool :=
  t.kind = .opening || t.kind = .closing

namespace Kind

variable {k : Kind}

theorem not_bracket_of_operand (h : k ∈ operands) : k ≠ .opening ∧ k ≠ .closing :=
  (by decide : ∀ k ∈ operands, k ≠ .opening ∧ k ≠ .closing) k h

theorem not_bracket_of_function (h : k ∈ functions) : k ≠ .opening ∧ k ≠ .closing :=
  (by decide : ∀ k ∈ functions, k ≠ .opening ∧ k ≠ .closing) k h

theorem not_bracket_of_operator (h : k ∈ binaries ∨ ∃ op, k = .unary op) :
    k ≠ .opening ∧ k ≠ .closing := by
  rcases h with h | ⟨op, rfl⟩
  · exact (by decide : ∀ k ∈ binaries, k ≠ .opening ∧ k ≠ .closing) k h
  · exact ⟨nofun, nofun⟩

end Kind

namespace Yard

-- The ways in which a token is converted. What is put out for it does not reach over an opening
-- bracket.
inductive Moves (y : Yard) (t : Token) : Yard → Prop
  | put : t.kind ∈ Kind.operands → Moves y t ⟨y.out ++ [t], y.waiting⟩
  | begin : t.kind = .opening ∨ t.kind ∈ Kind.functions → Moves y t (y.hold t)
  | operate {held rest} : t.kind ∈ Kind.binaries ∨ (∃ op, t.kind = .unary op) →
      y.waiting = held ++ rest → (∀ u ∈ held, !opens u) → Moves y t ⟨y.out ++ held, t :: rest⟩
  | close {held o rest} : t.kind = .closing → y.waiting = held ++ o :: rest →
      (∀ u ∈ held, !opens u) → opens o → Moves y t ⟨y.out ++ held, rest⟩

def depth (y : Yard) : Nat :=
  y.waiting.countP opens

variable {y y' : Yard} {t : Token} {ts held rest : List Token}

theorem opens_iff : opens t ↔ t.kind = .opening :=
  beq_iff_eq

theorem not_opens_of_yieldsTo {k : Kind} (h : t.kind.yieldsTo k) : !opens t := by
  simp only [Bool.not_eq_true', Bool.eq_false_iff, ne_eq, opens_iff]
  exact fun ho => Kind.not_yieldsTo_of_rank_none (by rw [ho]; rfl) k h

theorem exists_release (y : Yard) (leaves : Token → Bool) :
    ∃ held rest, y.waiting = held ++ rest ∧ (∀ u ∈ held, leaves u) ∧
      (∀ u ∈ rest.head?, !leaves u) ∧ y.release leaves = ⟨y.out ++ held, rest⟩ :=
  ⟨y.waiting.takeWhile leaves, y.waiting.dropWhile leaves, List.takeWhile_append_dropWhile.symm,
    List.all_eq_true.mp List.all_takeWhile, fun u hu => by
      have h := List.head?_dropWhile_not leaves y.waiting
      rw [Option.mem_def.mp hu] at h
      simpa using h, rfl⟩

theorem moves_of_step (h : y.step t = .ok y') : y.Moves t y' := by
  have operate (ht : t.kind ∈ Kind.binaries ∨ ∃ op, t.kind = .unary op) : y.Moves t y' := by
    obtain ⟨held, rest, hw, hl, _, hr⟩ := exists_release y (·.kind.yieldsTo t.kind)
    rw [step_operator y ht, hr, Except.ok.injEq] at h
    exact h ▸ .operate ht hw fun u hu => not_opens_of_yieldsTo (hl u hu)
  cases hk : t.kind
  case number | constant c =>
    simp only [step, hk, Except.ok.injEq] at h
    refine h ▸ .put ?_
    rw [hk]
    first | decide | (cases c <;> decide)
  case opening =>
    simp only [step, hk, Except.ok.injEq] at h
    exact h ▸ .begin (.inl hk)
  case function f =>
    simp only [step, hk, Except.ok.injEq] at h
    refine h ▸ .begin (.inr ?_)
    rw [hk]
    cases f <;> decide
  case separator => exact operate (.inl (by rw [hk]; decide))
  case binary op => exact operate (.inl (by rw [hk]; cases op <;> decide))
  case unary op  => exact operate (.inr ⟨op, hk⟩)
  case closing   =>
    obtain ⟨held, rest, hw, hl, hn, hr⟩ := exists_release y (!opens ·)
    simp only [step, hk, hr] at h
    cases rest
    case nil         => contradiction
    case cons o rest =>
      cases h
      exact .close hk hw hl (by simpa using hn o rfl)
  case textStart | textEnd | anything => simp [step, hk] at h

theorem countP_opens_of_held (h : ∀ u ∈ held, !opens u) : held.countP opens = 0 :=
  List.countP_eq_zero.mpr fun u hu => by simpa using h u hu

theorem Moves.depth_eq (h : y.Moves t y') : y'.depth + (if t.kind = .closing then 1 else 0) =
    y.depth + (if t.kind = .opening then 1 else 0) := by
  cases h
  case put ht => simp [depth, Kind.not_bracket_of_operand ht]
  case begin ht =>
    cases ht
    case inl ht => simp [depth, hold, opens, ht]
    case inr ht => simp [depth, hold, opens, Kind.not_bracket_of_function ht]
  case operate held rest ht hw hl =>
    have ht := Kind.not_bracket_of_operator ht
    simp [depth, hw, countP_opens_of_held hl, opens, ht]
  case close ht hw hl ho =>
    simp [depth, hw, countP_opens_of_held hl, ho, ht]

theorem depth_of_opening (h : y.step t = .ok y') (ht : t.kind = .opening) :
    y'.depth = y.depth + 1 := by
  simpa [ht] using (moves_of_step h).depth_eq

theorem depth_of_closing (h : y.step t = .ok y') (ht : t.kind = .closing) :
    y.depth = y'.depth + 1 := by
  simpa [ht] using (moves_of_step h).depth_eq.symm

theorem depth_of_other (h : y.step t = .ok y') (ht : t.kind ≠ .opening ∧ t.kind ≠ .closing) :
    y'.depth = y.depth := by
  simpa [ht] using (moves_of_step h).depth_eq

end Yard
end Reckoner
