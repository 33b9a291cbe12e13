import Mathlib.Data.List.Induction
import Reckoner.Proofs.Brackets

namespace Reckoner

-- A token that cannot be converted behind some other tokens, and the fault that is told of it: it is
-- no part of an expression, or it closes a bracket where all are closed.
inductive Refused (before : List Token) (t : Token) : Fault → Prop
  | unrecognized : t.kind ∈ [.anything, .textStart, .textEnd] →
      Refused before t (.unrecognized t.text t.span)
  | unbalanced : t.kind = .closing →
      before.countP (·.kind = .closing) = before.countP (·.kind = .opening) →
      Refused before t (.unbalanced t.text t.span)

-- Tokens with their places among others, in an order in which brackets are left out, operands stay in
-- order, and operators and functions only move back.
structure Arranged (ts : List Token) (placed : List (Token × Nat)) : Prop where
  perm     : placed.Perm (ts.zipIdx.filter (!·.1.isBracket))
  operands : placed.filter (·.1.kind.isOperand) = ts.zipIdx.filter (·.1.kind.isOperand)
  back     : placed.Pairwise fun p q => p.1.kind.isOperator → q.1.kind.isOperand → p.2 < q.2

theorem Kind.waits {k : Kind}
    (h : k = .opening ∨ k ∈ functions ∨ k ∈ binaries ∨ ∃ op, k = .unary op) :
    ¬k.isOperand ∧ k ≠ .closing := by
  rcases h with rfl | h | h | ⟨op, rfl⟩
  · exact ⟨nofun, nofun⟩
  · exact (by decide : ∀ k ∈ functions, ¬k.isOperand ∧ k ≠ .closing) k h
  · exact (by decide : ∀ k ∈ binaries, ¬k.isOperand ∧ k ≠ .closing) k h
  · exact ⟨nofun, nofun⟩

namespace Yard

variable {y y' : Yard} {ts before : List Token} {t : Token} {f : Fault}

theorem step_eq_error_iff : y.step t = .error f ↔
    (t.kind ∈ [.anything, .textStart, .textEnd] ∧ f = t.unrecognized) ∨
    (t.kind = .closing ∧ y.depth = 0 ∧ f = t.unbalanced) := by
  cases hk : t.kind
  case closing =>
    obtain ⟨held, rest, hw, hl, hn, hr⟩ := exists_release y (!opens ·)
    have hd : y.depth = rest.countP opens := by
      rw [depth, hw, List.countP_append, countP_opens_of_held hl, Nat.zero_add]
    simp only [step, hk, hr, hd]
    cases rest
    case nil         => simp [eq_comm]
    case cons o rest =>
      have ho : opens o := by simpa using hn o rfl
      simp [ho]
  all_goals simp [step, hk, eq_comm]

theorem depth_add_countP (h : ts.foldlM step y = .ok y') :
    y'.depth + ts.countP (·.kind = .closing) = y.depth + ts.countP (·.kind = .opening) := by
  induction ts generalizing y
  case nil          => cases h; rfl
  case cons t ts hi =>
    rw [List.foldlM_cons] at h
    have ⟨mid, hm, h⟩ := Except.bind_eq_ok.mp h
    have hi := hi h
    have hd := (moves_of_step hm).depth_eq
    simp only [List.countP_cons, decide_eq_true_eq]
    omega

theorem refused_iff (h : before.foldlM step .empty = .ok y) :
    Refused before t f ↔ y.step t = .error f := by
  have hd : y.depth + _ = 0 + _ := depth_add_countP h
  rw [step_eq_error_iff]
  constructor
  case mp =>
    intro hr
    cases hr
    case unrecognized hk  => exact .inl ⟨hk, rfl⟩
    case unbalanced hk hc => exact .inr ⟨hk, by omega, rfl⟩
  case mpr =>
    rintro (⟨hk, rfl⟩ | ⟨hk, hy, rfl⟩)
    case inl => exact .unrecognized hk
    case inr => exact .unbalanced hk (by omega)

end Yard

namespace Arranged

variable {ts : List Token} {t : Token} {placed front rest : List (Token × Nat)} {p : Token × Nat}

theorem lt_length (h : Arranged ts placed) (hp : p ∈ placed) : p.2 < ts.length := by
  have hm := (List.mem_filter.mp (h.perm.subset hp)).left
  simpa using (List.mem_zipIdx hm).right.left

theorem skip (h : Arranged ts placed) (ht : t.isBracket) : Arranged (ts ++ [t]) placed where
  perm     := by simpa [List.zipIdx_append, ht] using h.perm
  operands := by
    have ho : ¬t.kind.isOperand := by
      simp only [Token.isBracket, Bool.or_eq_true, decide_eq_true_eq] at ht
      rcases ht with ht | ht <;> simp [ht, Kind.isOperand]
    simpa [List.zipIdx_append, ho] using h.operands
  back     := h.back

theorem insert (h : Arranged ts (front ++ rest)) (hr : ∀ p ∈ rest, ¬p.1.kind.isOperand)
    (ht : ¬t.isBracket) : Arranged (ts ++ [t]) (front ++ (t, ts.length) :: rest) where
  perm     := by
    have hp := List.perm_middle.trans (h.perm.cons (t, ts.length))
    have hs := (List.perm_append_singleton (t, ts.length)
      (ts.zipIdx.filter (!·.1.isBracket))).symm
    simpa [List.zipIdx_append, ht] using hp.trans hs
  operands := by
    have hn : rest.filter (·.1.kind.isOperand) = [] := List.filter_eq_nil_iff.mpr hr
    have ho := h.operands
    rw [List.filter_append, hn, List.append_nil] at ho
    rw [List.zipIdx_append, List.filter_append, List.filter_append, ho, List.filter_cons, hn]
    simp [List.filter_cons]
  back     := by
    have ⟨hf, hb, hc⟩ := List.pairwise_append.mp h.back
    refine List.pairwise_append.mpr ⟨hf, hb.cons fun q hq _ ho => (hr q hq ho).elim, ?_⟩
    intro p hp q hq hpo hqo
    cases List.mem_cons.mp hq
    case inl hq => exact hq ▸ h.lt_length (List.mem_append_left _ hp)
    case inr hq => exact hc p hp q hq hpo hqo

-- A part of the tokens that were read has been put out, and the rest waits, with the brackets that are
-- open.
structure Partly (ts : List Token) (out waiting : List (Token × Nat)) : Prop where
  arranged : Arranged ts (out ++ waiting.filter (!Yard.opens ·.1))
  waits    : ∀ p ∈ waiting, ¬p.1.kind.isOperand

namespace Partly

variable {out waiting held : List (Token × Nat)} {o : Token × Nat}

theorem release (h : Partly ts out (held ++ waiting)) (hh : ∀ p ∈ held, !Yard.opens p.1) :
    Partly ts (out ++ held) waiting where
  arranged := by
    have ha := h.arranged
    rwa [List.filter_append, List.filter_eq_self.mpr hh, ← List.append_assoc] at ha
  waits p hp := h.waits p (List.mem_append_right _ hp)

theorem close (h : Partly ts out (o :: waiting)) (ho : Yard.opens o.1) (ht : t.kind = .closing) :
    Partly (ts ++ [t]) out waiting where
  arranged := by
    have ha := h.arranged
    rw [List.filter_cons_of_neg (by simpa using ho)] at ha
    exact ha.skip (by simp [Token.isBracket, ht])
  waits p hp := h.waits p (List.mem_cons_of_mem _ hp)

theorem put (h : Partly ts out waiting) (ht : ¬t.isBracket) :
    Partly (ts ++ [t]) (out ++ [(t, ts.length)]) waiting where
  arranged := by
    rw [List.append_assoc, List.singleton_append]
    exact h.arranged.insert (fun p hp => h.waits p (List.mem_filter.mp hp).left) ht
  waits    := h.waits

theorem hold (h : Partly ts out waiting) (ht : ¬t.kind.isOperand) (hc : t.kind ≠ .closing) :
    Partly (ts ++ [t]) out ((t, ts.length) :: waiting) where
  arranged := by
    by_cases ho : Yard.opens t
    case pos =>
      rw [List.filter_cons_of_neg (by simpa using ho)]
      exact h.arranged.skip (by simp [Token.isBracket, Yard.opens_iff.mp ho])
    case neg =>
      rw [List.filter_cons_of_pos (by simpa using ho)]
      refine h.arranged.insert (fun p hp => h.waits p (List.mem_filter.mp hp).left) ?_
      rw [Yard.opens_iff] at ho
      simp [Token.isBracket, ho, hc]
  waits    := List.forall_mem_cons.mpr ⟨ht, h.waits⟩

end Partly

end Arranged

namespace Yard

open Arranged (Partly)

variable {y y' : Yard} {ts : List Token} {t : Token}

def Follows (ts : List Token) (y : Yard) : Prop :=
  ∃ out waiting, y = ⟨out.map (·.1), waiting.map (·.1)⟩ ∧ Partly ts out waiting

theorem Follows.step (h : Follows ts y) (hs : y.Moves t y') : Follows (ts ++ [t]) y' := by
  obtain ⟨out, waiting, rfl, h⟩ := h
  cases hs
  case put ht =>
    have hb := Kind.not_bracket_of_operand ht
    exact ⟨out ++ [(t, ts.length)], waiting, by simp, h.put (by simp [Token.isBracket, hb])⟩
  case begin ht =>
    have ⟨ho, hc⟩ := Kind.waits (ht.imp_right .inl)
    exact ⟨out, (t, ts.length) :: waiting, rfl, h.hold ho hc⟩
  case operate held rest ht hw hl =>
    obtain ⟨held, rest, rfl, rfl, rfl⟩ := List.map_eq_append_iff.mp hw
    have hl : ∀ p ∈ held, !opens p.1 := fun p hp => hl p.1 (List.mem_map_of_mem hp)
    have ⟨ho, hc⟩ := Kind.waits (.inr (.inr ht))
    exact ⟨out ++ held, (t, ts.length) :: rest, by simp, (h.release hl).hold ho hc⟩
  case close held o rest ht hw hl ho =>
    obtain ⟨held, rest, rfl, rfl, hr⟩ := List.map_eq_append_iff.mp hw
    obtain ⟨o, rest, rfl, rfl, rfl⟩ := List.map_eq_cons_iff.mp hr
    have hl : ∀ p ∈ held, !opens p.1 := fun p hp => hl p.1 (List.mem_map_of_mem hp)
    exact ⟨out ++ held, rest, by simp, (h.release hl).close ho ht⟩

theorem follows_of_foldlM (h : ts.foldlM Yard.step .empty = .ok y) : Follows ts y := by
  induction ts using List.reverseRecOn generalizing y
  case nil                      =>
    cases h
    exact ⟨[], [], rfl, ⟨.refl _, rfl, .nil⟩, nofun⟩
  case append_singleton ts t hi =>
    have ⟨mid, hm, hs⟩ := Except.foldlM_concat_eq_ok.mp h
    exact (hi hm).step (moves_of_step hs)

theorem Follows.finish (h : Follows ts y) :
    ∃ placed, placed.map (·.1) = y.finish ∧ Arranged ts placed := by
  obtain ⟨out, waiting, rfl, h⟩ := h
  refine ⟨_, ?_, h.arranged⟩
  rw [List.map_append, Yard.finish, List.filter_map]
  rfl

end Yard

namespace Postfix

variable {ts before out : List Token} {f : Fault}

theorem ofTokens_eq_error_iff : ofTokens ts = .error f ↔ ∃ before t after y,
    ts = before ++ t :: after ∧ before.foldlM Yard.step .empty = .ok y ∧ y.step t = .error f := by
  rw [← Except.foldlM_eq_error, ofTokens]
  cases ts.foldlM Yard.step .empty <;> simp

theorem exists_foldlM_iff : (∃ y, ts.foldlM Yard.step .empty = .ok y) ↔
    ∀ before t after f, ts = before ++ t :: after → ¬Refused before t f := by
  constructor
  case mp =>
    rintro ⟨y, h⟩ before t after f rfl hr
    rw [List.foldlM_append] at h
    obtain ⟨mid, hb, h⟩ := Except.bind_eq_ok.mp h
    rw [List.foldlM_cons, (Yard.refused_iff hb).mp hr] at h
    contradiction
  case mpr =>
    intro h
    cases hts : ts.foldlM Yard.step .empty
    case ok y    => exact ⟨y, rfl⟩
    case error f =>
      obtain ⟨before, t, after, y, hs, hb, ht⟩ := Except.foldlM_eq_error.mp hts
      exact absurd ((Yard.refused_iff hb).mpr ht) (h before t after f hs)

theorem exists_arranged_of_ofTokens (h : ofTokens ts = .ok out) :
    ∃ placed, placed.map (·.1) = out ∧ Arranged ts placed := by
  obtain ⟨y, hy, rfl⟩ := Except.map_eq_ok.mp h
  exact (Yard.follows_of_foldlM hy).finish

theorem perm_of_ofTokens (h : ofTokens ts = .ok out) : out.Perm (ts.filter (!·.isBracket)) := by
  obtain ⟨placed, rfl, ha⟩ := exists_arranged_of_ofTokens h
  have hp := ha.perm.map (·.1)
  rwa [← List.zipIdx_map_fst 0 ts, List.filter_map]

-- The conversion fails exactly if some token is refused, with the fault of the first that is. Of the
-- tokens that it puts out otherwise, none has been lost or added, the operands are in order, and no
-- operator or function has come in front of an operand that it was behind.
theorem ofTokens_refused_or_arranged (ts : List Token) :
    ((∃ f, ofTokens ts = .error f) ↔
      ∃ before t after f, ts = before ++ t :: after ∧ Refused before t f) ∧
    (∀ f, ofTokens ts = .error f ↔ ∃ before t after, ts = before ++ t :: after ∧
      Refused before t f ∧ ∀ u v w g, before = u ++ v :: w → ¬Refused u v g) ∧
    ∀ out, ofTokens ts = .ok out → ∃ placed, placed.map (·.1) = out ∧ Arranged ts placed := by
  refine ⟨⟨?refused, ?fails⟩, fun f => ⟨?first, ?told⟩, fun _ => exists_arranged_of_ofTokens⟩
  case refused =>
    rintro ⟨f, h⟩
    obtain ⟨before, t, after, y, hs, hb, ht⟩ := ofTokens_eq_error_iff.mp h
    exact ⟨before, t, after, f, hs, (Yard.refused_iff hb).mpr ht⟩
  case fails =>
    rintro ⟨before, t, after, f, hs, hr⟩
    cases h : ofTokens ts
    case error g => exact ⟨g, rfl⟩
    case ok out  =>
      have ⟨y, hy, _⟩ := Except.map_eq_ok.mp h
      exact absurd hr (exists_foldlM_iff.mp ⟨y, hy⟩ before t after f hs)
  case first =>
    intro h
    obtain ⟨before, t, after, y, hs, hb, ht⟩ := ofTokens_eq_error_iff.mp h
    exact ⟨before, t, after, hs, (Yard.refused_iff hb).mpr ht, exists_foldlM_iff.mp ⟨y, hb⟩⟩
  case told =>
    rintro ⟨before, t, after, hs, hr, hn⟩
    have ⟨y, hb⟩ := exists_foldlM_iff.mpr hn
    exact ofTokens_eq_error_iff.mpr ⟨before, t, after, y, hs, hb, (Yard.refused_iff hb).mp hr⟩

theorem ofTokens_refused_or_arranged_call :
    let f : Token := ⟨.function .max, "max", ⟨0, 3⟩, by decide⟩
    let o : Token := ⟨.opening, "(", ⟨3, 4⟩, by decide⟩
    let s : Token := ⟨.separator, ",", ⟨4, 5⟩, by decide⟩
    let n : Token := ⟨.number, "1", ⟨5, 6⟩, by decide⟩
    let c : Token := ⟨.closing, ")", ⟨6, 7⟩, by decide⟩
    let d : Token := ⟨.closing, "]", ⟨7, 8⟩, by decide⟩
    let x : Token := ⟨.anything, "?", ⟨8, 9⟩, by decide⟩
    (∃ placed, placed.map (·.1) = [n, s, f] ∧ Arranged [f, o, s, n, c] placed) ∧
    ∃ before t after, [f, o, s, n, c, d, x] = before ++ t :: after ∧
      Refused before t (.unbalanced "]" ⟨7, 8⟩) ∧
      ∀ u v w g, before = u ++ v :: w → ¬Refused u v g := by
  intro f o s n c d x
  have converted : ofTokens [f, o, s, n, c] = .ok [n, s, f] := rfl
  have refused : ofTokens [f, o, s, n, c, d, x] = .error (.unbalanced "]" ⟨7, 8⟩) := rfl
  have ⟨_, _, arranged⟩ := ofTokens_refused_or_arranged [f, o, s, n, c]
  have ⟨_, told, _⟩ := ofTokens_refused_or_arranged [f, o, s, n, c, d, x]
  exact ⟨arranged _ converted, (told _).mp refused⟩

end Postfix
end Reckoner
