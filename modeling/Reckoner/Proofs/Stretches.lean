import Mathlib.Data.List.Chain
import Reckoner.Proofs.Brackets
import Reckoner.Proofs.Lead

namespace Reckoner

namespace Kind

-- A kind that may wait right over another one: it is as tight as that or tighter, and where it is no
-- tighter, it takes the operand between the two, or it is a function.
structure Over (upper lower : Kind) : Prop where
  rank : ∃ p ∈ upper.rank, ∃ q ∈ lower.rank, q ≤ p
  tied : upper.rank = lower.rank → upper.associativity = .right ∨ upper ∈ functions

variable {upper lower : Kind}

theorem over_of_function (hu : upper ∈ functions) (hl : lower.isOperator) : upper.Over lower := by
  have ⟨q, hq⟩ := Option.isSome_iff_exists.mp hl
  have hp := (by decide : ∀ k ∈ functions, k.rank = some 5) upper hu
  have hm := (by decide : ∀ k : Kind, k.rank.all (· ≤ 5)) lower
  rw [hq, Option.all_some, decide_eq_true_eq] at hm
  exact ⟨⟨5, hp, q, hq, hm⟩, fun _ => .inr hu⟩

theorem over_of_not_yieldsTo (hu : upper.isOperator) (hl : lower.isOperator)
    (h : ¬lower.yieldsTo upper) : upper.Over lower := by
  have ⟨p, hp⟩ := Option.isSome_iff_exists.mp hu
  have ⟨q, hq⟩ := Option.isSome_iff_exists.mp hl
  rw [yieldsTo_iff hq hp, not_or, not_and] at h
  refine ⟨⟨p, hp, q, hq, Nat.le_of_not_lt h.left⟩, fun he => .inl ?_⟩
  have ha := h.right (Option.some.inj (hq ▸ he ▸ hp))
  cases hr : upper.associativity
  case left  => exact absurd hr ha
  case right => rfl

theorem isOperator_of_operator (h : upper ∈ binaries ∨ ∃ op, upper = .unary op) :
    upper.isOperator := by
  rcases h with h | ⟨op, rfl⟩
  · exact (by decide : ∀ k ∈ binaries, k.isOperator) upper h
  · rfl

end Kind

namespace Yard

structure Graded (stretch : List Token) : Prop where
  operators : ∀ t ∈ stretch, t.kind.isOperator
  sorted    : stretch.Pairwise fun upper lower =>
    ∃ p ∈ upper.kind.rank, ∃ q ∈ lower.kind.rank, q ≤ p
  tied      : stretch.IsChain fun upper lower => upper.kind.rank = lower.kind.rank →
    upper.kind.associativity = .right ∨ upper.kind ∈ Kind.functions

-- All waiting tokens. A bracket may be over anything, and anything over a bracket.
structure Stacked (waiting : List Token) : Prop where
  waits : ∀ t ∈ waiting, opens t ∨ t.kind.isOperator
  above : waiting.IsChain fun upper lower =>
    opens upper ∨ opens lower ∨ upper.kind.Over lower.kind

namespace Stacked

variable {waiting rest stretch ts : List Token} {y y' : Yard} {t : Token}

theorem nil : Stacked [] :=
  ⟨nofun, .nil⟩

theorem suffix (h : Stacked waiting) (hs : rest <:+ waiting) : Stacked rest :=
  ⟨fun t ht => h.waits t (hs.subset ht), h.above.suffix hs⟩

theorem cons (h : Stacked waiting) (ht : opens t ∨ t.kind.isOperator)
    (hn : ∀ u ∈ waiting.head?, opens t ∨ opens u ∨ t.kind.Over u.kind) : Stacked (t :: waiting) :=
  ⟨List.forall_mem_cons.mpr ⟨ht, h.waits⟩, List.isChain_cons.mpr ⟨hn, h.above⟩⟩

theorem begin (h : Stacked waiting) (ht : t.kind = .opening ∨ t.kind ∈ Kind.functions) :
    Stacked (t :: waiting) := by
  cases ht
  case inl ht =>
    have ho : opens t := opens_iff.mpr ht
    exact h.cons (.inl ho) fun _ _ => .inl ho
  case inr ht =>
    refine h.cons (.inr ((by decide : ∀ k ∈ Kind.functions, k.isOperator) t.kind ht)) fun u hu => ?_
    exact .inr <| (h.waits u (List.mem_of_head? hu)).imp_right (Kind.over_of_function ht)

-- An operator waits over the first token that does not yield to it.
theorem operate (h : Stacked waiting) (ht : t.kind ∈ Kind.binaries ∨ ∃ op, t.kind = .unary op)
    (hn : ∀ u ∈ waiting.head?, ¬u.kind.yieldsTo t.kind) : Stacked (t :: waiting) := by
  have ho := Kind.isOperator_of_operator ht
  refine h.cons (.inr ho) fun u hu => .inr ?_
  exact (h.waits u (List.mem_of_head? hu)).imp_right fun hl =>
    Kind.over_of_not_yieldsTo ho hl (hn u hu)

theorem step (h : Stacked y.waiting) (hs : y.step t = .ok y') : Stacked y'.waiting := by
  cases moves_of_step hs
  case put   => exact h
  case begin ht => exact h.begin ht
  case close held o rest _ hw _ _ =>
    exact h.suffix ⟨held ++ [o], by rw [hw, List.append_assoc, List.singleton_append]⟩
  case operate ht _ _ =>
    obtain ⟨held, rest, hw, _, hn, hr⟩ := exists_release y (·.kind.yieldsTo t.kind)
    rw [step_operator y ht, hr, Except.ok.injEq] at hs
    rw [← congrArg waiting hs]
    exact (h.suffix ⟨held, hw.symm⟩).operate ht fun u hu => by simpa using hn u hu

theorem of_foldlM (h : ts.foldlM Yard.step .empty = .ok y) : Stacked y.waiting :=
  Except.foldlM_keeps (P := fun y => Stacked y.waiting) (fun _ _ _ _ => step) nil h

theorem graded (h : Stacked waiting) (hs : stretch <:+: waiting) (hb : ∀ t ∈ stretch, ¬opens t) :
    Graded stretch := by
  have hchain := List.IsChain.infix h.above hs
  have hover : stretch.IsChain fun upper lower => upper.kind.Over lower.kind :=
    hchain.imp_of_mem_imp fun u l hu hl ho => (ho.resolve_left (hb u hu)).resolve_left (hb l hl)
  refine ⟨fun t ht => (h.waits t (hs.subset ht)).resolve_left (hb t ht), ?_,
    hover.imp fun _ _ ho => ho.tied⟩
  let Tighter (upper lower : Token) := ∃ p ∈ upper.kind.rank, ∃ q ∈ lower.kind.rank, q ≤ p
  have trans : Trans Tighter Tighter Tighter := by
    refine ⟨fun {a b c} ⟨p, hp, q, hq, hpq⟩ ⟨q', hq', r, hr, hqr⟩ => ?_⟩
    exact ⟨p, hp, r, hr, Nat.le_trans hqr (Option.mem_unique hq hq' ▸ hpq)⟩
  exact (hover.imp (S := Tighter) fun _ _ ho => ho.rank).pairwise

end Stacked

-- After any number of tokens, in whatever order they are, and between any two neighbouring brackets
-- that wait, or a bracket and an end: ranks never decrease towards the latest token, and two neighbours
-- of one rank are there only where the later one takes the operand between them, or is a function.
theorem graded_of_foldlM (ts : List Token) (n : Nat) (y : Yard)
    (h : (ts.take n).foldlM step .empty = .ok y) (stretch : List Token) (hs : stretch <:+: y.waiting)
    (hb : ∀ t ∈ stretch, t.kind ≠ .opening) : Graded stretch :=
  (Stacked.of_foldlM h).graded hs fun t ht => opens_iff.not.mpr (hb t ht)

theorem graded_of_foldlM_open :
    let n : Token := ⟨.number, "2", ⟨0, 1⟩, by decide⟩
    let p : Token := ⟨.binary .power, "^", ⟨1, 2⟩, by decide⟩
    let m : Token := ⟨.unary .negate, "-", ⟨2, 3⟩, by decide⟩
    let f : Token := ⟨.function .max, "max", ⟨3, 6⟩, by decide⟩
    let o : Token := ⟨.opening, "(", ⟨6, 7⟩, by decide⟩
    let k : Token := ⟨.number, "3", ⟨7, 8⟩, by decide⟩
    let s : Token := ⟨.separator, ",", ⟨8, 9⟩, by decide⟩
    ([n, p, m, f, o, k, s, s].take 7).foldlM step .empty = .ok ⟨[n, k], [s, o, f, m, p]⟩ ∧
    [f, m, p] <:+: [s, o, f, m, p] ∧ (∀ t ∈ [f, m, p], t.kind ≠ .opening) ∧ Graded [f, m, p] := by
  intro n p m f o k s
  have hr : ([n, p, m, f, o, k, s, s].take 7).foldlM step .empty =
      .ok ⟨[n, k], [s, o, f, m, p]⟩ := rfl
  have hs : [f, m, p] <:+: [s, o, f, m, p] := ⟨[s, o], [], rfl⟩
  have hb : ∀ t ∈ [f, m, p], t.kind ≠ .opening := by simp [f, m, p]
  exact ⟨hr, hs, hb, graded_of_foldlM _ 7 _ hr _ hs hb⟩

end Yard
end Reckoner
