import Mathlib.Algebra.Field.Rat
import Reckoner.Decimal.Layout
import Reckoner.Proofs.Numerals

namespace Reckoner

open Float.Model.UnpackedFloat (Sign)

namespace Decimal

def value (d : Decimal) : ℚ :=
  d.coefficient * 10 ^ d.exponent

def power? (s : List Char) : Option Int :=
  (exponent? s).or <| match s with
    | []     => none
    | e :: s => (exponent?.magnitude? e s).map fun (n : Nat) => n

def ofText? (s : List Char) : Option Decimal :=
  match s.span Char.isDigit with
  | ([], _)    => none
  | (whole, r) => do
    let (places, r) ← fraction? r
    let e ← power? r
    return ⟨ofDigits (whole ++ places), e - places.length⟩

def signed : List Char → Sign × List Char
  | '-' :: s => (.negative, s)
  | s        => (.positive, s)

def number? (text : List Char) : Option (Sign × ℚ) :=
  (ofText? (signed text).2).map ((signed text).1, ·.value)

open Kind (numeral)

variable {ds u v x : List Char} {n : Nat} {e : Int} {d : Decimal}

theorem ofDigits_append (u v : List Char) :
    ofDigits (u ++ v) = ofDigits u * 10 ^ v.length + ofDigits v := by
  have h : ofDigits (u ++ v) = Nat.ofDigitChars 10 v (ofDigits u) := Nat.ofDigitChars_append 0
  rw [h, Nat.ofDigitChars_eq_ofDigitChars_zero, Nat.mul_comm]
  rfl

theorem ofDigits_zeros (n : Nat) : ofDigits (.replicate n '0') = 0 :=
  Nat.ofDigitChars_replicate_zero.trans (Nat.mul_zero _)

theorem ofDigits_append_zeros (u : List Char) (n : Nat) :
    ofDigits (u ++ .replicate n '0') = ofDigits u * 10 ^ n := by
  rw [ofDigits_append, ofDigits_zeros, List.length_replicate, Nat.add_zero]

theorem ofDigits_zeros_append (n : Nat) (u : List Char) :
    ofDigits (.replicate n '0' ++ u) = ofDigits u := by
  rw [ofDigits_append, ofDigits_zeros, Nat.zero_mul, Nat.zero_add]

theorem ofDigits_toDigits (n : Nat) : ofDigits (Nat.toDigits 10 n) = n :=
  Nat.ofDigitChars_ten_toDigits

theorem ofDigits_digits (d : Decimal) : ofDigits d.digits = d.coefficient :=
  ofDigits_toDigits d.coefficient

theorem value_shift (c n : Nat) (e : Int) : value ⟨c * 10 ^ n, e⟩ = value ⟨c, n + e⟩ := by
  rw [value, value, Nat.cast_mul, Nat.cast_pow, mul_assoc, Nat.cast_ofNat, ← zpow_natCast,
    ← zpow_add₀ (by simp)]

theorem spells_toDigits (n : Nat) : numeral.digits.Spells (Nat.toDigits 10 n) :=
  ⟨Nat.toDigits_ne_nil, fun _ hc => Nat.isDigit_of_mem_toDigits (by decide) (by decide) hc⟩

theorem spells_digits_iff : numeral.digits.Spells ds ↔ ds ≠ [] ∧ ∀ c ∈ ds, c.isDigit :=
  Iff.rfl

theorem spells_append_iff : numeral.digits.Spells (u ++ v) ↔
    (u ≠ [] ∨ v ≠ []) ∧ (∀ c ∈ u, c.isDigit) ∧ ∀ c ∈ v, c.isDigit := by
  rw [spells_digits_iff, ne_eq, List.append_eq_nil_iff, not_and_or, List.forall_mem_append]

theorem isDigit_zeros (n : Nat) : ∀ c ∈ List.replicate n '0', c.isDigit := by
  intro c hc
  rw [List.eq_of_mem_replicate hc]
  rfl

theorem magnitude?_eq (hd : numeral.digits.Spells ds) :
    exponent?.magnitude? 'e' ds = some (ofDigits ds) :=
  if_pos ⟨.inl rfl, hd.left, List.all_eq_true.mpr hd.right⟩

theorem power?_digits (hd : numeral.digits.Spells ds) : power? ('e' :: ds) = some ↑(ofDigits ds) := by
  obtain ⟨c, cs, rfl⟩ := List.exists_cons_of_ne_nil hd.left
  have hc : c.isDigit := hd.right c List.mem_cons_self
  have hn : exponent? ('e' :: c :: cs) = none := by
    rw [exponent?]
    · exact List.cons_ne_nil _ _
    all_goals
      rintro _ _ he
      cases he
      contradiction
  rw [power?, hn, Option.none_or]
  simp only [magnitude?_eq hd, Option.map_some]

theorem ofText?_eq (hu : numeral.digits.Spells u)
    (hv : (Pattern.opt <| .seq (.one <| .char '.') numeral.digits).Spells v)
    (hx : ∀ c ∈ x.head?, ¬c.isDigit ∧ c ≠ '.') (he : power? x = some e) :
    ofText? (u ++ (v ++ x)) = some ⟨ofDigits (u ++ v.tail), e - v.tail.length⟩ := by
  have hs := span_digits hu (Kind.head_of_fraction hv fun c hc => (hx c hc).left)
  have ⟨c, cs, hc⟩ := List.exists_cons_of_ne_nil hu.left
  rw [hc] at hs ⊢
  rw [ofText?, hs]
  simp [fraction?_append hv hx, he]

-- The digits of a number that has some places behind the point and a digit or more in front of it.
def padded (d : Decimal) (places : Nat) : List Char :=
  .replicate (places + 1 - d.digits.length) '0' ++ d.digits

theorem ofDigits_padded (d : Decimal) (n : Nat) : ofDigits (d.padded n) = d.coefficient :=
  (ofDigits_zeros_append _ _).trans d.ofDigits_digits

theorem isDigit_padded (d : Decimal) (n : Nat) : ∀ c ∈ d.padded n, c.isDigit :=
  List.forall_mem_append.mpr ⟨isDigit_zeros _, (spells_toDigits _).right⟩

theorem lt_length_padded (d : Decimal) (n : Nat) : n < (d.padded n).length := by
  rw [padded, List.length_append, List.length_replicate]
  omega

end Decimal

namespace Layout

open Decimal
open Kind (numeral)

def magnitude (l : Layout) (e : Int) : List Char :=
  .replicate (l.exponentDigits - (Nat.toDigits 10 e.natAbs).length) '0' ++ Nat.toDigits 10 e.natAbs

theorem exponent_eq (l : Layout) (e : Int) : l.exponent e = exponent.sign l e ++ l.magnitude e :=
  List.append_assoc ..

theorem spells_magnitude (l : Layout) (e : Int) : numeral.digits.Spells (l.magnitude e) :=
  spells_append_iff.mpr ⟨.inr Nat.toDigits_ne_nil, isDigit_zeros _, (spells_toDigits _).right⟩

theorem ofDigits_magnitude (l : Layout) (e : Int) : ofDigits (l.magnitude e) = e.natAbs :=
  (ofDigits_zeros_append _ _).trans (ofDigits_toDigits _)

theorem power?_exponent (l : Layout) (e : Int) : power? ('e' :: l.exponent e) = some e := by
  rw [exponent_eq, exponent.sign]
  have hm := magnitude?_eq (l.spells_magnitude e)
  rw [ofDigits_magnitude] at hm
  split
  case isTrue he  =>
    simp only [List.singleton_append, power?, exponent?, hm, Option.map_some, Option.some_or,
      Option.some.injEq]
    omega
  case isFalse he =>
    have hn : (e.natAbs : Int) = e := Int.natAbs_of_nonneg (Int.not_lt.mp he)
    split
    case isTrue  =>
      simp only [List.singleton_append, power?, exponent?, hm, Option.map_some, Option.some_or, hn]
    case isFalse =>
      rw [List.nil_append, power?_digits (l.spells_magnitude e), ofDigits_magnitude, hn]

-- What a number looks like: digits, perhaps a point and digits, and behind them an exponent where the
-- layout asks for one. Together they are the decimal.
inductive Written (l : Layout) (d : Decimal) : List Char → Prop
  | plain {u v : List Char} : numeral.digits.Spells u →
      (Pattern.opt <| .seq (.one <| .char '.') numeral.digits).Spells v →
      value ⟨ofDigits (u ++ v.tail), -v.tail.length⟩ = d.value → Written l d (u ++ v)
  | scientific {u v : List Char} {e : Int} : numeral.digits.Spells u →
      (Pattern.opt <| .seq (.one <| .char '.') numeral.digits).Spells v →
      value ⟨ofDigits (u ++ v.tail), e - v.tail.length⟩ = d.value →
      Written l d (u ++ (v ++ 'e' :: l.exponent e))

variable {l : Layout} {d : Decimal}

theorem spells_fraction {ds : List Char} (h : numeral.digits.Spells ds) :
    (Pattern.opt <| .seq (.one <| .char '.') numeral.digits).Spells ('.' :: ds) :=
  .inl ⟨['.'], ds, ⟨'.', Text.sameLetter_refl '.', rfl⟩, h, rfl⟩

theorem spells_digits (d : Decimal) : numeral.digits.Spells d.digits :=
  spells_toDigits d.coefficient

theorem plain_ofNat {n : Nat} (l : Layout) (h : d.exponent = .ofNat n) :
    l.plain d = d.digits ++ .replicate n '0' ++ if l.wholePoint then ['.', '0'] else [] := by
  rw [plain, h]

theorem plain_negSucc {n : Nat} (l : Layout) (h : d.exponent = .negSucc n) :
    l.plain d = (d.padded (n + 1)).take ((d.padded (n + 1)).length - (n + 1)) ++
      '.' :: (d.padded (n + 1)).drop ((d.padded (n + 1)).length - (n + 1)) := by
  rw [plain, h]
  rfl

theorem written_plain (l : Layout) (d : Decimal) : Written l d (l.plain d) := by
  cases he : d.exponent
  case ofNat n   =>
    have hw : numeral.digits.Spells (d.digits ++ .replicate n '0') :=
      spells_append_iff.mpr ⟨.inl (spells_digits d).left, (spells_digits d).right, isDigit_zeros n⟩
    have hv : value ⟨d.coefficient, n⟩ = d.value := by rw [value, value, he, Int.ofNat_eq_natCast]
    rw [l.plain_ofNat he]
    split
    case isTrue  =>
      have hz : numeral.digits.Spells ['0'] := ⟨List.cons_ne_nil _ _, isDigit_zeros 1⟩
      refine .plain hw (spells_fraction hz) ?_
      rw [List.tail_cons, ← List.replicate_one, List.append_assoc, List.replicate_append_replicate,
        ofDigits_append_zeros, ofDigits_digits, value_shift, ← hv]
      simp
    case isFalse =>
      refine .plain hw (.inr rfl) ?_
      rw [List.tail_nil, List.append_nil, ofDigits_append_zeros, ofDigits_digits, value_shift, ← hv]
      simp
  case negSucc n =>
    have hl := d.lt_length_padded (n + 1)
    have hc := d.isDigit_padded (n + 1)
    rw [l.plain_negSucc he]
    refine .plain ⟨?whole, fun c hm => hc c (List.mem_of_mem_take hm)⟩
      (spells_fraction ⟨?places, fun c hm => hc c (List.mem_of_mem_drop hm)⟩) ?value
    case whole  => exact List.ne_nil_of_length_pos (by rw [List.length_take]; omega)
    case places => exact List.ne_nil_of_length_pos (by rw [List.length_drop]; omega)
    case value  =>
      rw [List.tail_cons, List.take_append_drop, ofDigits_padded, List.length_drop,
        Nat.sub_sub_self hl.le, value, value, he]
      rfl

theorem written_scientific (l : Layout) (d : Decimal) : Written l d (l.scientific d) := by
  have hd := spells_digits d
  have hc := ofDigits_digits d
  have hl : d.leading = d.digits.length - 1 + d.exponent := rfl
  rw [scientific]
  generalize d.digits = ds at hd hc hl
  rcases ds with _ | ⟨c, _ | ⟨c', cs⟩⟩
  case nil       => exact absurd rfl hd.left
  case cons.nil  =>
    refine .scientific (u := [c]) (v := []) hd (.inr rfl) ?_
    rw [List.tail_nil, List.append_nil, hc, hl]
    simp [value]
  case cons.cons =>
    obtain ⟨_, hc', hcs⟩ := spells_append_iff (u := [c]).mp hd
    refine .scientific ⟨List.cons_ne_nil _ _, hc'⟩ (spells_fraction ⟨List.cons_ne_nil _ _, hcs⟩) ?_
    rw [List.tail_cons, List.singleton_append, hc, hl]
    simp [value]

theorem written_decimal (l : Layout) (d : Decimal) : Written l d (l.decimal d) := by
  rw [decimal]
  split
  case isTrue  => exact l.written_plain d
  case isFalse => exact l.written_scientific d

namespace Written

variable {s : List Char}

theorem ofText? (h : Written l d s) : ∃ d', Decimal.ofText? s = some d' ∧ d'.value = d.value := by
  cases h
  case plain u v hu hv hd            =>
    have hr := ofText?_eq (x := []) (e := 0) hu hv nofun rfl
    rw [List.append_nil, Int.zero_sub] at hr
    exact ⟨_, hr, hd⟩
  case scientific u v e hu hv hd =>
    have hx : ∀ c ∈ ('e' :: l.exponent e).head?, ¬c.isDigit ∧ c ≠ '.' := by
      rintro _ ⟨⟩
      decide
    exact ⟨_, ofText?_eq hu hv hx (l.power?_exponent e), hd⟩

theorem head_isDigit (h : Written l d s) : ∃ c cs, s = c :: cs ∧ c.isDigit := by
  cases h
  case plain u v hu _ _            =>
    obtain ⟨c, cs, rfl⟩ := List.exists_cons_of_ne_nil hu.left
    exact ⟨c, cs ++ v, rfl, hu.right c List.mem_cons_self⟩
  case scientific u v e hu _ _ =>
    obtain ⟨c, cs, rfl⟩ := List.exists_cons_of_ne_nil hu.left
    exact ⟨c, _, rfl, hu.right c List.mem_cons_self⟩

end Written

theorem number?_decimal (l : Layout) (d : Decimal) (s : Sign) :
    number? (minus s ++ l.decimal d) = some (s, d.value) := by
  obtain ⟨d', hd, hv⟩ := (l.written_decimal d).ofText?
  obtain ⟨c, cs, hs, hc⟩ := (l.written_decimal d).head_isDigit
  have hm : signed (minus s ++ l.decimal d) = (s, l.decimal d) := by
    cases s
    case negative => rfl
    case positive =>
      rw [hs, minus, List.nil_append, signed]
      rintro _ ⟨⟩
      contradiction
  rw [number?, hm, hd, Option.map_some, hv]

end Layout
end Reckoner
