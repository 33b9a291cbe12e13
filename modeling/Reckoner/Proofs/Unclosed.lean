import Reckoner.Proofs.Brackets
import Reckoner.Proofs.Enclosure

namespace Reckoner

variable {ts cs : List Token} {c : Token}

theorem Frames.beyond_of_closings {n : Nat} (h : ∀ c ∈ cs, c.kind = .closing) :
    (of cs).beyond n = [] := by
  induction cs generalizing n
  case nil          => exact beyond_empty
  case cons c cs hi =>
    have ⟨hc, h⟩ := List.forall_mem_cons.mp h
    have hr : (of cs).read c = (of cs).enter := by simp only [read, hc]
    rw [of, hr, beyond_enter, hi h]

theorem belonging_append_closings (h : ∀ c ∈ cs, c.kind = .closing) :
    belonging (ts ++ cs) none = belonging ts none := by
  rw [belonging_none, Frames.beyond_of_closings h, List.append_nil]

namespace Separators

theorem rightmost_closings {front : Option Token} (h : ∀ c ∈ cs, c.kind = .closing) :
    rightmost front cs = .ok () := by
  induction cs generalizing front
  case nil          => rfl
  case cons c cs hi =>
    have ⟨hc, h⟩ := List.forall_mem_cons.mp h
    rw [rightmost, hi h, hc]
    rfl

theorem rightmost_append_closings {front : Option Token} (h : ∀ c ∈ cs, c.kind = .closing) :
    rightmost front (ts ++ cs) = rightmost front ts := by
  induction ts generalizing front
  case nil          => exact rightmost_closings h
  case cons t ts hi => rw [List.cons_append, rightmost, hi, owned_append_closings h, rightmost]

theorem check_append_closings (h : ∀ c ∈ cs, c.kind = .closing) : check (ts ++ cs) = check ts := by
  rw [check_eq, check_eq, rightmost_append_closings h, backwards, backwards, all_of, all_of,
    belonging_append_closings h]

end Separators

namespace Yard

variable {y : Yard}

theorem depth_eq_length_opened (h : ts.foldlM step .empty = .ok y) :
    y.depth = (opened ts).length := by
  induction ts using List.reverseRecOn generalizing y
  case nil =>
    cases h
    rfl
  case append_singleton ts t hi =>
    have ⟨mid, hm, hs⟩ := Except.foldlM_concat_eq_ok.mp h
    have hi := hi hm
    by_cases ho : t.kind = .opening
    case pos => rw [opened_opening ho, depth_of_opening hs ho, hi, List.length_cons]
    case neg =>
    by_cases hc : t.kind = .closing
    case pos => rw [opened_closing hc, List.length_tail, ← hi, depth_of_closing hs hc]; rfl
    case neg => rw [opened_other ho hc, depth_of_other hs ⟨ho, hc⟩, hi]

-- A closing bracket puts out no more than what would be put out in the end.
theorem exists_step_closing (hc : c.kind = .closing) (hd : 0 < y.depth) :
    ∃ y', y.step c = .ok y' ∧ y'.finish = y.finish := by
  obtain ⟨held, rest, hw, hl, hn, hr⟩ := exists_release y (!opens ·)
  cases rest
  case nil =>
    rw [depth, hw, List.append_nil, countP_opens_of_held hl] at hd
    contradiction
  case cons o rest =>
    have ho : opens o := by simpa using hn o rfl
    refine ⟨⟨y.out ++ held, rest⟩, by simp only [step, hc, hr], ?_⟩
    simp [finish, hw, ho, List.filter_eq_self.mpr hl]

theorem exists_foldlM_closings (h : ∀ c ∈ cs, c.kind = .closing) (hd : cs.length ≤ y.depth) :
    ∃ y', cs.foldlM step y = .ok y' ∧ y'.finish = y.finish := by
  induction cs generalizing y
  case nil          => exact ⟨y, rfl, rfl⟩
  case cons c cs hi =>
    have ⟨hc, h⟩ := List.forall_mem_cons.mp h
    have ⟨mid, hm, hf⟩ := exists_step_closing hc (Nat.lt_of_lt_of_le (Nat.succ_pos _) hd)
    rw [depth_of_closing hm hc] at hd
    have ⟨y', hy, hf'⟩ := hi h (Nat.le_of_succ_le_succ hd)
    exact ⟨y', by rw [List.foldlM_cons, hm, Except.ok_bind, hy], hf'.trans hf⟩

end Yard

-- Closing the brackets that are open in the end changes neither what the check of separators says nor
-- what tokens are converted to.
theorem Postfix.check_and_ofTokens_closed (ts cs : List Token) (hc : ∀ c ∈ cs, c.kind = .closing)
    (hl : cs.length = (opened ts).length) :
    Separators.check (ts ++ cs) = Separators.check ts ∧
      ∀ out, ofTokens ts = .ok out → ofTokens (ts ++ cs) = .ok out := by
  refine ⟨Separators.check_append_closings hc, fun out h => ?_⟩
  obtain ⟨y, hy, rfl⟩ := Except.map_eq_ok.mp h
  have hd := Yard.depth_eq_length_opened hy
  have ⟨y', hy', hf⟩ := Yard.exists_foldlM_closings hc (Nat.le_of_eq (hl.trans hd.symm))
  rw [ofTokens, List.foldlM_append, hy, Except.ok_bind, hy', Except.map_ok, hf]

theorem Postfix.check_and_ofTokens_closed_call :
    let n : Token  := ⟨.number, "4", ⟨0, 1⟩, by decide⟩
    let m : Token  := ⟨.binary .subtract, "-", ⟨1, 2⟩, by decide⟩
    let f : Token  := ⟨.function .max, "max", ⟨2, 5⟩, by decide⟩
    let o : Token  := ⟨.opening, "[", ⟨5, 6⟩, by decide⟩
    let a : Token  := ⟨.number, "1", ⟨6, 7⟩, by decide⟩
    let s : Token  := ⟨.separator, ",", ⟨7, 8⟩, by decide⟩
    let b : Token  := ⟨.opening, "(", ⟨8, 9⟩, by decide⟩
    let k : Token  := ⟨.constant .e, "e", ⟨9, 10⟩, by decide⟩
    let t : Token  := ⟨.unary .factorial, "!", ⟨10, 11⟩, by decide⟩
    let c : Token  := ⟨.closing, ")", ⟨11, 12⟩, by decide⟩
    let d : Token  := ⟨.closing, "]", ⟨12, 13⟩, by decide⟩
    (∀ c' ∈ [c, d], c'.kind = .closing) ∧ [c, d].length = (opened [n, m, f, o, a, s, b, k, t]).length ∧
    Separators.check ([n, m, f, o, a, s, b, k, t] ++ [c, d]) =
      Separators.check [n, m, f, o, a, s, b, k, t] ∧
    ofTokens [n, m, f, o, a, s, b, k, t] = .ok [n, a, k, t, s, f, m] ∧
    ofTokens ([n, m, f, o, a, s, b, k, t] ++ [c, d]) = .ok [n, a, k, t, s, f, m] := by
  intro n m f o a s b k t c d
  have hc : ∀ c' ∈ [c, d], c'.kind = .closing := by decide
  have hl : [c, d].length = (opened [n, m, f, o, a, s, b, k, t]).length := by decide
  have hr : ofTokens [n, m, f, o, a, s, b, k, t] = .ok [n, a, k, t, s, f, m] := rfl
  have ⟨check, closed⟩ := check_and_ofTokens_closed [n, m, f, o, a, s, b, k, t] [c, d] hc hl
  exact ⟨hc, hl, check, hr, closed _ hr⟩

end Reckoner
