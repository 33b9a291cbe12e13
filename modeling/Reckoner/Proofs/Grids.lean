import Mathlib.Algebra.Ring.Nat
import Reckoner.Decimal.Shortest

namespace Reckoner.Decimal

namespace Nearest

-- The numbers that read back lie around the value, above zero and not further than twice the value.
structure Sound (n : Nearest) : Prop where
  pos   : 0 < n.lower
  left  : n.lower < n.value
  right : n.value < n.upper
  near  : n.upper ≤ 2 * n.value

def margin (n : Nearest) : Nat :=
  if n.closed then 0 else 1

variable {n : Nearest} {unit c k x y z : Nat}

theorem holds_iff : n.holds x ↔ n.lower + n.margin ≤ x ∧ x + n.margin ≤ n.upper := by
  rw [holds, margin]
  cases n.closed
  case true  =>
    rw [if_pos rfl, if_pos rfl, Bool.and_eq_true, decide_eq_true_eq, decide_eq_true_eq]
    rfl
  case false =>
    rw [if_neg nofun, if_neg nofun, Bool.and_eq_true, decide_eq_true_eq, decide_eq_true_eq]
    rfl

theorem holds_of_between (hx : n.holds x) (hz : n.holds z) (hl : x ≤ y) (hr : y ≤ z) :
    n.holds y := by
  rw [holds_iff] at *
  omega

theorem Sound.holds_value (h : n.Sound) : n.holds n.value := by
  have hl := h.left
  have hr := h.right
  have hm : n.margin ≤ 1 := by
    rw [margin]
    split <;> omega
  rw [holds_iff]
  omega

theorem holds_of_onGrid (h : n.onGrid unit = some c) : n.holds (c * unit) := by
  simp only [onGrid] at h
  cases hb : n.holds (n.value / unit * unit) <;>
    cases ha : n.holds ((n.value / unit + 1) * unit) <;> simp only [hb, ha] at h
  case true.true =>
    split at h <;> cases h
    case isTrue  => exact hb
    case isFalse => exact ha
  case false.false => contradiction
  all_goals cases h; assumption

theorem onGrid_ne_none
    (h : n.holds (n.value / unit * unit) ∨ n.holds ((n.value / unit + 1) * unit)) :
    n.onGrid unit ≠ none := by
  intro hn
  simp only [onGrid] at hn
  split at hn <;> simp_all
  split at hn <;> contradiction

theorem Sound.onGrid_ne_none (hn : n.Sound) (hu : 0 < unit) (h : n.holds (c * unit)) :
    n.onGrid unit ≠ none := by
  refine n.onGrid_ne_none ?_
  cases Nat.lt_or_ge n.value (c * unit)
  case inl hc =>
    have hl := Nat.mul_le_mul_right unit <| (Nat.div_lt_iff_lt_mul hu).mpr hc
    have hv := Nat.lt_mul_of_div_lt (Nat.lt_succ_self (n.value / unit)) hu
    exact .inr <| holds_of_between hn.holds_value h (Nat.le_of_lt hv) hl
  case inr hc =>
    have hl := Nat.mul_le_mul_right unit <| (Nat.le_div_iff_mul_le hu).mpr hc
    exact .inl <| holds_of_between h hn.holds_value hl (Nat.div_mul_le_self n.value unit)

theorem Sound.not_dvd (hn : n.Sound) (h : n.onGrid (10 ^ (k + 1)) = none)
    (hc : n.holds (c * 10 ^ k)) : ¬10 ∣ c := by
  rintro ⟨c, rfl⟩
  have hs : 10 * c * 10 ^ k = c * 10 ^ (k + 1) := by
    rw [Nat.pow_succ, Nat.mul_comm 10, Nat.mul_assoc, Nat.mul_comm 10]
  exact hn.onGrid_ne_none (Nat.pow_pos (by decide)) (hs ▸ hc) h

theorem Sound.not_dvd_coarsest (hn : n.Sound) (h : n.onGrid (10 ^ (k + 1)) = none) :
    ¬10 ∣ (n.coarsest k).coefficient := by
  induction k
  case zero      => exact hn.not_dvd h (by simpa [coarsest] using hn.holds_value)
  case succ k hi =>
    rw [coarsest]
    split
    case h_1 c hc => exact hn.not_dvd h (holds_of_onGrid hc)
    case h_2 hc   => exact hi hc

end Nearest

variable {m : Nat}

theorem coefficient_ofBinary_pos (hm : 0 < m) (e : Int) : 0 < (ofBinary m e).coefficient := by
  cases e
  case ofNat e   =>
    rw [ofBinary, Nat.shiftLeft_eq]
    exact Nat.mul_pos hm (Nat.pow_pos (by decide))
  case negSucc e => exact Nat.mul_pos hm (Nat.pow_pos (by decide))

theorem sound_nearest (hm : 0 < m) (e : Int) : (nearest m e).Sound := by
  have hq : 0 < (nearest.quarter e).coefficient := coefficient_ofBinary_pos Nat.one_pos _
  have hb : 1 ≤ nearest.below m e ∧ nearest.below m e ≤ 2 := by
    rw [nearest.below]
    split <;> decide
  refine ⟨Nat.mul_pos (by omega) hq, ?left, ?right, ?near⟩
  case left  => exact Nat.mul_lt_mul_of_pos_right (by omega) hq
  case right => exact Nat.mul_lt_mul_of_pos_right (by omega) hq
  case near  =>
    calc (4 * m + 2) * (nearest.quarter e).coefficient
      _ ≤ 2 * (4 * m) * (nearest.quarter e).coefficient := Nat.mul_le_mul_right _ (by omega)
      _ = 2 * (4 * m * (nearest.quarter e).coefficient) := Nat.mul_assoc ..

theorem not_dvd_shortest (hm : 0 < m) (e : Int) : ¬10 ∣ (shortest m e).coefficient := by
  have hn := sound_nearest hm e
  refine hn.not_dvd_coarsest <| Option.eq_none_iff_forall_ne_some.mpr fun c hc => ?_
  -- The coarsest grid of all has zero and numbers that are too great.
  obtain ⟨hl, hr⟩ := Nearest.holds_iff.mp (Nearest.holds_of_onGrid hc)
  have hv : (nearest m e).value < 10 ^ (Nat.toDigits 10 (nearest m e).value).length :=
    (Nat.length_toDigits_le_iff (by decide) Nat.length_toDigits_pos).mp (Nat.le_refl _)
  have hnear := hn.near
  have hpos := hn.pos
  have hc : 0 < c := by
    refine Nat.pos_of_ne_zero ?_
    rintro rfl
    omega
  have hu := Nat.mul_le_mul_right (10 ^ ((Nat.toDigits 10 (nearest m e).value).length + 1)) hc
  rw [Nat.one_mul, Nat.pow_succ] at hu
  rw [Nat.pow_succ] at hr
  omega

end Reckoner.Decimal
