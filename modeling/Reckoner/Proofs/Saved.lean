import Mathlib.Data.List.Basic
import Mathlib.Data.List.Infix
import Mathlib.Data.List.TakeWhile
import Reckoner.History
import Reckoner.Proofs.Grids
import Reckoner.Proofs.Reading

namespace Reckoner

open Float.Model.UnpackedFloat (Sign)
open Decimal

def Decimal.ofFloat? (x : Float) : Option (Sign × Decimal) :=
  match x.toModel.unpack with
  | .zero s         => some (s, ⟨0, 0⟩)
  | .finite s m e _ => some (s, .shortest m e)
  | _               => none

variable {x : Float} {s : Sign} {d : Decimal} {l : Layout} {c : Char} {u v w : List Char}

theorem Decimal.exists_ofFloat? (hx : x.isFinite) :
    ∃ s d, ofFloat? x = some (s, d) ∧ (0 ≤ d.exponent ∨ ¬10 ∣ d.coefficient) := by
  have hx : x.toModel.unpack.isFinite := hx
  rw [ofFloat?]
  cases hu : x.toModel.unpack
  case zero s         => exact ⟨s, ⟨0, 0⟩, rfl, .inl (Int.le_refl 0)⟩
  case finite s m e h => exact ⟨s, .shortest m e, rfl, .inr (not_dvd_shortest h e)⟩
  all_goals
    rw [hu] at hx
    contradiction

namespace Layout

theorem toList_text (l : Layout) (h : ofFloat? x = some (s, d)) :
    (l.text x).toList = minus s ++ l.decimal d := by
  rw [ofFloat?] at h
  rw [text]
  cases hu : x.toModel.unpack <;> rw [hu] at h <;> cases h <;> exact String.toList_ofList

theorem number?_text (l : Layout) (h : ofFloat? x = some (s, d)) :
    number? (l.text x).toList = some (s, d.value) := by
  rw [l.toList_text h, number?_decimal]

theorem not_mem_minus (hc : c ≠ '-') : c ∉ minus s := by
  cases s <;> simp [minus, hc]

theorem not_mem_exponent (l : Layout) (e : Int) : 'e' ∉ l.exponent e := by
  rw [exponent_eq, List.mem_append, not_or, exponent.sign]
  refine ⟨?_, fun h => absurd ((l.spells_magnitude e).right 'e' h) (by decide)⟩
  split
  case isTrue  => decide
  case isFalse => split <;> decide

theorem mem_plain (h : c ∈ l.plain d) : c.isDigit ∨ c = '.' := by
  cases he : d.exponent
  case ofNat n   =>
    rw [l.plain_ofNat he, List.mem_append, List.mem_append] at h
    rcases h with (h | h) | h
    · exact .inl ((spells_digits d).right c h)
    · exact .inl (isDigit_zeros n c h)
    · split at h
      case isTrue  => exact (List.mem_cons.mp h).symm.imp_left (isDigit_zeros 1 c)
      case isFalse => contradiction
  case negSucc n =>
    rw [l.plain_negSucc he, List.mem_append, List.mem_cons] at h
    rcases h with h | h | h
    · exact .inl (d.isDigit_padded (n + 1) c (List.mem_of_mem_take h))
    · exact .inr h
    · exact .inl (d.isDigit_padded (n + 1) c (List.mem_of_mem_drop h))

theorem mem_mantissa {ds : List Char} (hd : ∀ c ∈ ds, c.isDigit)
    (h : c ∈ scientific.mantissa ds) : c.isDigit ∨ c = '.' := by
  rcases ds with _ | ⟨first, _ | ⟨second, rest⟩⟩
  case nil       => exact .inl (hd c h)
  case cons.nil  => exact .inl (hd c h)
  case cons.cons =>
    rcases List.mem_cons.mp h with rfl | h
    · exact .inl (hd c List.mem_cons_self)
    · exact (List.mem_cons.mp h).symm.imp_left fun h => hd c (List.mem_cons_of_mem first h)

theorem not_mem_plain (s : Sign) (l : Layout) (d : Decimal) : 'e' ∉ minus s ++ l.plain d := by
  rw [List.mem_append, not_or]
  exact ⟨not_mem_minus (by decide), fun h => absurd (mem_plain h) (by decide)⟩

theorem not_mem_mantissa (s : Sign) (d : Decimal) :
    'e' ∉ minus s ++ scientific.mantissa d.digits := by
  rw [List.mem_append, not_or]
  exact ⟨not_mem_minus (by decide), fun h =>
    absurd (mem_mantissa (spells_digits d).right h) (by decide)⟩

theorem minus_scientific (s : Sign) (l : Layout) (d : Decimal) : minus s ++ l.scientific d =
    minus s ++ scientific.mantissa d.digits ++ 'e' :: l.exponent d.leading :=
  (List.append_assoc ..).symm

theorem exponent_of_decimal (h : minus s ++ l.decimal d = u ++ 'e' :: v) :
    ∃ e, v = l.exponent e := by
  rw [decimal] at h
  split at h
  case isTrue  =>
    have hm : 'e' ∈ u ++ 'e' :: v := List.mem_append_right u List.mem_cons_self
    exact absurd (h ▸ hm) (not_mem_plain s l d)
  case isFalse =>
    rw [minus_scientific] at h
    obtain ⟨_, _, hv⟩ := (List.append_cons_inj_of_notMem (not_mem_mantissa s d)
      (l.not_mem_exponent d.leading)).mp h
    exact ⟨d.leading, hv.symm⟩

theorem le_length_magnitude (l : Layout) (e : Int) : l.exponentDigits ≤ (l.magnitude e).length := by
  rw [magnitude, List.length_append, List.length_replicate]
  omega

theorem not_suffix_plain (hw : l.wholePoint = false) (hd : 0 ≤ d.exponent ∨ ¬10 ∣ d.coefficient) :
    ¬['.', '0'] <:+ minus s ++ l.plain d := by
  intro h
  cases he : d.exponent
  case ofNat n   =>
    have hp : '.' ∈ minus s ++ l.plain d := h.subset List.mem_cons_self
    rw [l.plain_ofNat he, hw, if_neg nofun, List.append_nil] at hp
    rcases List.mem_append.mp hp with hp | hp
    · exact not_mem_minus (by decide) hp
    · have hz := List.forall_mem_append.mpr ⟨(spells_digits d).right, isDigit_zeros n⟩
      exact absurd (hz '.' hp) (by decide)
  case negSucc n =>
    let places := (d.padded (n + 1)).drop ((d.padded (n + 1)).length - (n + 1))
    have hc : ¬10 ∣ d.coefficient := hd.resolve_left <| by
      rw [he]
      exact Int.not_le.mpr (Int.negSucc_lt_zero n)
    have hz : ['0'] <:+ minus s ++ l.plain d := (List.suffix_cons '.' ['0']).trans h
    have hp : places <:+ minus s ++ l.plain d := by
      rw [l.plain_negSucc he]
      exact (List.suffix_cons '.' places).trans <|
        (List.suffix_append _ _).trans (List.suffix_append _ _)
    have hl : ['0'].length ≤ places.length := by
      have := d.lt_length_padded (n + 1)
      rw [List.length_singleton, List.length_drop]
      omega
    obtain ⟨q, hq⟩ := (List.suffix_of_suffix_length_le hz hp hl).trans (List.drop_suffix _ _)
    refine hc ⟨ofDigits q, ?_⟩
    rw [← d.ofDigits_padded (n + 1), ← hq, ← List.replicate_one, ofDigits_append_zeros, Nat.pow_one,
      Nat.mul_comm]

theorem not_suffix_scientific (he : 2 ≤ l.exponentDigits) :
    ¬['.', '0'] <:+ minus s ++ l.scientific d := by
  intro h
  have hm : l.magnitude d.leading <:+ minus s ++ l.scientific d := by
    rw [scientific, exponent_eq]
    exact (List.suffix_append _ _).trans <| (List.suffix_cons _ _).trans <|
      (List.suffix_append _ _).trans (List.suffix_append _ _)
  have hl : ['.', '0'].length ≤ (l.magnitude d.leading).length :=
    he.trans (l.le_length_magnitude d.leading)
  have hp := (List.suffix_of_suffix_length_le h hm hl).subset List.mem_cons_self
  exact absurd ((l.spells_magnitude d.leading).right '.' hp) (by decide)

theorem not_suffix_decimal (hw : l.wholePoint = false) (he : 2 ≤ l.exponentDigits)
    (hd : 0 ≤ d.exponent ∨ ¬10 ∣ d.coefficient) : ¬['.', '0'] <:+ minus s ++ l.decimal d := by
  rw [decimal]
  split
  case isTrue  => exact not_suffix_plain hw hd
  case isFalse => exact not_suffix_scientific he

def trimmed (text : List Char) : List Char :=
  (text.dropSuffix? ['.', '0']).getD text

-- A text of a number as it is saved: with a sign and two digits in its exponent, and trimmed where it
-- has none.
def restyled (text : List Char) : List Char :=
  match text.span (· != 'e') with
  | (_, [])        => trimmed text
  | (mantissa, r) => match power? r with
    | none   => trimmed text
    | some e => mantissa ++ 'e' :: saved.exponent e

theorem trimmed_append (w : List Char) : trimmed (w ++ ['.', '0']) = w := by
  have h : (w ++ ['.', '0']).dropSuffix? ['.', '0'] = some w :=
    List.dropSuffix?_eq_some_iff.mpr ⟨_, rfl, beq_self_eq_true _⟩
  rw [trimmed, h, Option.getD_some]

theorem trimmed_eq_self (h : ¬['.', '0'] <:+ w) : trimmed w = w := by
  cases hd : w.dropSuffix? ['.', '0']
  case none   => rw [trimmed, hd, Option.getD_none]
  case some p =>
    obtain ⟨t, hw, ht⟩ := List.dropSuffix?_eq_some_iff.mp hd
    rw [beq_iff_eq] at ht
    exact absurd ⟨p, (ht ▸ hw).symm⟩ h

theorem bne_of_not_mem (h : 'e' ∉ w) : ∀ c ∈ w, c != 'e' :=
  fun _ hc => bne_iff_ne.mpr fun he => h (he ▸ hc)

theorem restyled_of_not_mem (h : 'e' ∉ w) : restyled w = trimmed w := by
  rw [restyled, List.span_eq_takeWhile_dropWhile,
    List.takeWhile_eq_self_iff.mpr (bne_of_not_mem h),
    List.dropWhile_eq_nil_iff.mpr (bne_of_not_mem h)]

theorem restyled_exponent (l : Layout) (e : Int) (h : 'e' ∉ w) :
    restyled (w ++ 'e' :: l.exponent e) = w ++ 'e' :: saved.exponent e := by
  have hs : (w ++ 'e' :: l.exponent e).span (· != 'e') = (w, 'e' :: l.exponent e) := by
    rw [List.span_eq_takeWhile_dropWhile, List.takeWhile_append_of_pos (bne_of_not_mem h),
      List.dropWhile_append_of_pos (bne_of_not_mem h)]
    simp
  rw [restyled, hs]
  simp only [power?_exponent]

theorem restyled_decimal (s : Sign) (hd : 0 ≤ d.exponent ∨ ¬10 ∣ d.coefficient) :
    restyled (minus s ++ standard.decimal d) = minus s ++ saved.decimal d := by
  have hn := not_suffix_plain (l := saved) (s := s) rfl hd
  have hs : saved.decimal d = if standard.plainFrom ≤ d.leading ∧ d.leading < standard.plainBelow then
      saved.plain d else saved.scientific d := rfl
  rw [decimal, hs]
  split
  case isTrue  =>
    rw [restyled_of_not_mem (not_mem_plain s standard d)]
    cases he : d.exponent
    case ofNat n   =>
      have hp : standard.plain d = saved.plain d ++ ['.', '0'] := by
        rw [standard.plain_ofNat he, saved.plain_ofNat he]
        simp [standard, saved]
      rw [hp, ← List.append_assoc, trimmed_append]
    case negSucc n =>
      have hp : standard.plain d = saved.plain d := by
        rw [standard.plain_negSucc he, saved.plain_negSucc he]
      rw [hp, trimmed_eq_self hn]
  case isFalse =>
    rw [minus_scientific, restyled_exponent _ _ (not_mem_mantissa s d), minus_scientific]

theorem toList_text_saved (x : Float) :
    (saved.text x).toList = restyled (standard.text x).toList := by
  by_cases hx : x.isFinite
  case pos =>
    obtain ⟨s, d, h, hd⟩ := exists_ofFloat? hx
    rw [toList_text _ h, toList_text _ h, restyled_decimal s hd]
  case neg =>
    have hx : ¬x.toModel.unpack.isFinite := hx
    rw [text, text]
    cases hu : x.toModel.unpack <;> rw [hu] at hx
    case notANumber => decide
    case infinity s => cases s <;> decide
    all_goals exact absurd rfl hx

end Layout

-- The number that a text reads back as, if numbers are read by their sign and their magnitude.
def Decimal.readBack? (nearest : Sign → ℚ → Float) (text : String) : Option Float :=
  (number? text.toList).map fun (s, q) => nearest s q

-- One way to read them: the floating point number that is nearest to a quotient of two whole numbers.
def Decimal.rounded (s : Sign) (q : ℚ) : Float :=
  .ofModel <| .pack <| if h : 0 < q.num.natAbs then
    .div Float.Model.Format.binary64 (.finite s q.num.natAbs 0 h) (.finite .positive q.den 0 q.den_pos)
  else .zero s

theorem Entry.exponent_of_result (h : ofFloat? x = some (s, d)) (expression : String)
    (hr : (Entry.of expression x).result.toList = u ++ 'e' :: v) :
    ∃ sign ds, v = sign :: ds ∧ sign ∈ ['+', '-'] ∧ 2 ≤ ds.length ∧ ∀ c ∈ ds, c.isDigit := by
  rw [Entry.of, Layout.toList_text _ h] at hr
  obtain ⟨e, rfl⟩ := Layout.exponent_of_decimal hr
  have hs : ∃ sign ∈ ['+', '-'], Layout.exponent.sign .saved e = [sign] := by
    rw [Layout.exponent.sign]
    split
    case isTrue  => exact ⟨'-', by decide, rfl⟩
    case isFalse => exact ⟨'+', by decide, rfl⟩
  obtain ⟨sign, hm, hs⟩ := hs
  exact ⟨sign, Layout.saved.magnitude e, by rw [Layout.exponent_eq, hs]; rfl, hm,
    Layout.saved.le_length_magnitude e, (Layout.saved.spells_magnitude e).right⟩

-- The result in the history is the text of a number in another style. Where the text of a finite
-- number reads back as the number, so does the result. It denotes the same number with the same sign,
-- its exponent has a sign and two digits, it does not end in a point and a zero, and no other number
-- has the same result.
theorem Entry.result_faithful (nearest : Sign → ℚ → Float) (expression : String) (x : Float)
    (hx : x.isFinite) (hr : readBack? nearest (Layout.standard.text x) = some x) :
    let result := (Entry.of expression x).result
    result.toList = Layout.restyled (Layout.standard.text x).toList ∧
    (∃ s d, ofFloat? x = some (s, d) ∧ number? result.toList = some (s, d.value) ∧
      number? (Layout.standard.text x).toList = some (s, d.value)) ∧
    readBack? nearest result = some x ∧
    (∀ u v, result.toList = u ++ 'e' :: v → ∃ sign ds, v = sign :: ds ∧ sign ∈ ['+', '-'] ∧
      2 ≤ ds.length ∧ ∀ c ∈ ds, c.isDigit) ∧
    ¬['.', '0'] <:+ result.toList ∧
    ∀ expression' y, y.isFinite → readBack? nearest (Layout.standard.text y) = some y →
      (Entry.of expression' y).result = result → y = x := by
  have same {y : Float} (hy : y.isFinite) (expression : String) :
      readBack? nearest (Entry.of expression y).result =
        readBack? nearest (Layout.standard.text y) := by
    obtain ⟨s, d, h, _⟩ := exists_ofFloat? hy
    rw [readBack?, readBack?, Entry.of, Layout.number?_text _ h, Layout.number?_text _ h]
  obtain ⟨s, d, h, hd⟩ := exists_ofFloat? hx
  have hb := (same hx expression).trans hr
  refine ⟨Layout.toList_text_saved x, ⟨s, d, h, Layout.number?_text _ h, Layout.number?_text _ h⟩, hb,
    fun u v => exponent_of_result h expression, ?_, fun expression' y hy hry he => ?_⟩
  · rw [Entry.of, Layout.toList_text _ h]
    exact Layout.not_suffix_decimal rfl (by decide) hd
  · have hb' := (same hy expression').trans hry
    rw [he, hb] at hb'
    exact (Option.some.inj hb').symm

theorem Entry.result_faithful_exponent :
    let x : Float := -2.5e-5
    x.isFinite ∧ readBack? rounded (Layout.standard.text x) = some x ∧
    (Entry.of "-2.5/10^5" x).result = "-2.5e-05" ∧ readBack? rounded "-2.5e-05" = some x ∧
    ¬['.', '0'] <:+ "-2.5e-05".toList ∧ (Entry.of "-0" (-0.0)).result ≠ (Entry.of "0" 0).result := by
  intro x
  have hx : x.isFinite := by decide +kernel
  have hr : readBack? rounded (Layout.standard.text x) = some x := by decide +kernel
  have he : (Entry.of "-2.5/10^5" x).result = "-2.5e-05" := by decide +kernel
  obtain ⟨_, _, hb, _, hn, _⟩ := result_faithful rounded "-2.5/10^5" x hx hr
  obtain ⟨_, _, _, _, _, hz⟩ := result_faithful rounded "0" 0 (by decide +kernel) (by decide +kernel)
  rw [he] at hb hn
  refine ⟨hx, hr, he, hb, hn, fun hs => ?_⟩
  have h0 : (-0.0 : Float) = 0 := hz "-0" (-0.0) (by decide +kernel) (by decide +kernel) hs
  exact absurd h0 (by decide +kernel)

end Reckoner
