import Mathlib.Data.List.TakeDrop
import Reckoner.Decimal.Numeral
import Reckoner.Proofs.Preference

namespace Reckoner

variable {c : Char} {u v w x rest : List Char}

theorem Text.eq_of_sameLetter_e (h : sameLetter 'e' c) : c = 'e' ∨ c = 'E' := by
  have hf : fold c = 'e' := (beq_iff_eq.mp h).symm
  rw [fold] at hf
  split at hf
  case isTrue  => contradiction
  case isFalse =>
    split at hf
    case isTrue  => contradiction
    case isFalse =>
      delta Char.toLower at hf
      split at hf
      case isFalse => exact .inl hf
      case isTrue hu =>
        have hv := congrArg Char.val hf
        refine .inr <| Char.ext ?_
        simp [← UInt32.toNat_inj, UInt32.le_iff_toNat_le] at hu hv ⊢
        omega

namespace Decimal

open Kind (numeral head_of_exponent head_of_fraction)

theorem span_digits (hw : numeral.digits.Spells w) (hr : ∀ c ∈ rest.head?, ¬c.isDigit) :
    (w ++ rest).span Char.isDigit = (w, rest) := by
  have hd : ∀ c ∈ w, c.isDigit := hw.right
  have hn : rest.takeWhile Char.isDigit = [] ∧ rest.dropWhile Char.isDigit = rest := by
    cases rest <;> simp_all
  rw [List.span_eq_takeWhile_dropWhile, List.takeWhile_append_of_pos hd,
    List.dropWhile_append_of_pos hd, hn.left, hn.right, List.append_nil]

theorem exponent?_isSome (h : (Pattern.opt <| .seq (.one <| .char 'e') <|
    .seq numeral.sign numeral.digits).Spells x) : (exponent? x).isSome := by
  rcases h with ⟨_, _, ⟨e, he, rfl⟩, ⟨s, ds, hs, hd, rfl⟩, rfl⟩ | rfl
  case inr => rfl
  case inl =>
    have hm : (exponent?.magnitude? e ds).isSome := by
      rw [exponent?.magnitude?, if_pos]
      · rfl
      · exact ⟨Text.eq_of_sameLetter_e he, hd.left, List.all_eq_true.mpr hd.right⟩
    cases hs
    case inl hs =>
      rw [(Kind.spells_sign_iff (by decide) (by decide)).mp hs]
      simpa [exponent?] using hm
    case inr hs =>
      rw [(Kind.spells_sign_iff (by decide) (by decide)).mp hs]
      simpa [exponent?] using hm

theorem fraction?_append (h : (Pattern.opt <| .seq (.one <| .char '.') numeral.digits).Spells v)
    (hr : ∀ c ∈ rest.head?, ¬c.isDigit ∧ c ≠ '.') :
    fraction? (v ++ rest) = some (v.tail, rest) := by
  rcases h with ⟨_, ds, ⟨c, hc, rfl⟩, hd, rfl⟩ | rfl
  case inl =>
    have hs := span_digits hd fun c hc => (hr c hc).left
    have ⟨d, ds, he⟩ := List.exists_cons_of_ne_nil hd.left
    rw [he] at hs ⊢
    rw [Kind.eq_point hc, List.append_assoc, List.singleton_append, fraction?, hs]
    rfl
  case inr =>
    cases rest
    case nil      => rfl
    case cons c s =>
      rw [List.nil_append, fraction?]
      · rfl
      · exact fun _ he => (hr c rfl).right (List.cons.inj he).left

theorem ofNumeral?_isSome (h : numeral.Spells w) : (ofNumeral? w).isSome := by
  obtain ⟨u, _, hu, ⟨v, x, hv, hx, rfl⟩, rfl⟩ := h
  have hx' : ∀ c ∈ (x ++ []).head?, ¬c.isDigit ∧ c ≠ '.' := head_of_exponent hx nofun
  rw [List.append_nil] at hx'
  have hs := span_digits hu (head_of_fraction hv fun c hc => (hx' c hc).left)
  have ⟨d, ds, he⟩ := List.exists_cons_of_ne_nil hu.left
  have ⟨e, hxe⟩ := Option.isSome_iff_exists.mp (exponent?_isSome hx)
  rw [he] at hs ⊢
  rw [ofNumeral?, hs]
  simp [fraction?_append hv hx', hxe]

end Decimal

end Reckoner
