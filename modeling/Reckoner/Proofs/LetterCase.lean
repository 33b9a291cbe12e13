import Mathlib.Data.List.TakeDrop
import Mathlib.Data.List.TakeWhile
import Reckoner.Proofs.Selection

namespace Reckoner

namespace Text

def capitals : List Char :=
  (List.range' 65 26).map Char.ofNat

def lower (s : List Char) : List Char :=
  s.map Char.toLower

def Alike (s s' : List Char) : Prop :=
  lower s = lower s'

instance (s s' : List Char) : Decidable (Alike s s') :=
  inferInstanceAs <| Decidable (lower s = lower s')

variable {α : Type} {c d : Char} {s s' : List Char}

theorem toLower_eq_or_mem (c : Char) : c.toLower = c ∨ c ∈ capitals := by
  delta Char.toLower
  split
  case isFalse   => exact .inl rfl
  case isTrue hc =>
    refine .inr <| List.mem_map.mpr ⟨c.toNat, List.mem_range'_1.mpr ?_, Char.ofNat_toNat c⟩
    simpa [UInt32.le_iff_toNat_le, Nat.lt_succ_iff] using hc

theorem toLower_congr [DecidableEq α] {f : Char → α}
    (h : capitals.all fun c => f c.toLower = f c) (c : Char) : f c.toLower = f c := by
  cases toLower_eq_or_mem c
  case inl hc => rw [hc]
  case inr hc => exact of_decide_eq_true <| List.all_eq_true.mp h c hc

theorem fold_toLower (c : Char) : fold c.toLower = fold c :=
  toLower_congr (by decide) c

theorem isDigit_toLower (c : Char) : c.toLower.isDigit = c.isDigit :=
  toLower_congr (f := Char.isDigit) (by decide) c

theorem isBlank_toLower (c : Char) : isBlank c.toLower = isBlank c :=
  toLower_congr (by decide) c

theorem utf8Size_toLower (c : Char) : c.toLower.utf8Size = c.utf8Size :=
  toLower_congr (f := Char.utf8Size) (by decide) c

theorem toLower_eq_iff (hd : capitals.all fun c => c ≠ d ∧ c.toLower ≠ d) :
    c.toLower = d ↔ c = d := by
  cases toLower_eq_or_mem c
  case inl hc => rw [hc]
  case inr hc =>
    have ⟨hn, hl⟩ := of_decide_eq_true <| List.all_eq_true.mp hd c hc
    exact iff_of_false hl hn

theorem toLower_eq_newline : c.toLower = '\n' ↔ c = '\n' :=
  toLower_eq_iff (by decide)

theorem not_mem_lower (h : '\n' ∉ s) : '\n' ∉ lower s := by
  intro hc
  obtain ⟨c, hm, hc⟩ := List.mem_map.mp hc
  exact h (toLower_eq_newline.mp hc ▸ hm)

theorem toLower_of_isDigit (h : c.isDigit) : c.toLower = c := by
  refine (toLower_eq_or_mem c).resolve_right fun hc => ?_
  have hn := List.all_eq_true.mp (by decide : capitals.all fun c => !c.isDigit) c hc
  rw [h] at hn
  contradiction

@[simp]
theorem lower_eq_nil_iff : lower s = [] ↔ s = [] :=
  List.map_eq_nil_iff

@[simp]
theorem isEmpty_lower (s : List Char) : (lower s).isEmpty = s.isEmpty :=
  List.isEmpty_map

@[simp]
theorem length_lower (s : List Char) : (lower s).length = s.length :=
  List.length_map _

theorem lower_append (s s' : List Char) : lower (s ++ s') = lower s ++ lower s' :=
  List.map_append

theorem lower_reverse (s : List Char) : lower s.reverse = (lower s).reverse :=
  List.map_reverse

theorem lower_take (n : Nat) (s : List Char) : lower (s.take n) = (lower s).take n :=
  List.map_take

theorem lower_drop (n : Nat) (s : List Char) : lower (s.drop n) = (lower s).drop n :=
  List.map_drop

theorem stripped_lower (s : List Char) : stripped (lower s) = lower (stripped s) := by
  simp [stripped, lower, List.filter_map, Function.comp_def, isBlank_toLower]

theorem width_lower (s : List Char) : width (lower s) = width s := by
  induction s
  case nil         => rfl
  case cons c s hi =>
    rw [lower, List.map_cons, ← lower, width_cons, width_cons, utf8Size_toLower, hi]

namespace Alike

theorem congr {f : List Char → α} (hf : ∀ s, f (lower s) = f s) (h : Alike s s') : f s = f s' := by
  rw [← hf s, h, hf]

theorem stripped (h : Alike s s') : Alike (stripped s) (stripped s') := by
  rw [Alike, ← stripped_lower, h, stripped_lower]

end Alike
end Text

open Text (lower)

theorem CharSet.holds_toLower (set : CharSet) (c : Char) : set.holds c.toLower = set.holds c := by
  cases set
  case char d   => simp [holds, Text.sameLetter, Text.fold_toLower]
  case among cs => simp [holds, Text.sameLetter, Text.fold_toLower]
  case digit    => exact Text.isDigit_toLower c
  case line     => simp [holds, bne, Text.toLower_eq_newline]

namespace Pattern

def Cursor.lower (cur : Cursor) : Cursor :=
  ⟨Text.lower cur.rest, cur.fresh⟩

variable {set : CharSet} {cur : Cursor} {s : List Char}

theorem step_lower : step set (lower s) = (step set s).map Cursor.lower := by
  cases s
  case nil      => rfl
  case cons c s =>
    simp only [lower, List.map_cons, step, set.holds_toLower]
    split <;> rfl

theorem run_lower (found : List Cursor) :
    run set (found.map Cursor.lower) (lower s) = (run set found s).map Cursor.lower := by
  induction s generalizing found
  case nil         => rfl
  case cons c s hi =>
    simp only [lower, List.map_cons, run, set.holds_toLower]
    split
    case isTrue  => exact hi (⟨s, false⟩ :: found)
    case isFalse => rfl

theorem reads_lower (p : Pattern) (cur : Cursor) :
    p.reads cur.lower = (p.reads cur).map Cursor.lower := by
  induction p generalizing cur
  case start         => cases hf : cur.fresh <;> simp [reads, Cursor.lower, hf]
  case stop          => cases hs : cur.rest.isEmpty <;> simp [reads, Cursor.lower, hs]
  case one set       => exact step_lower
  case many set      => exact run_lower []
  case seq p q hp hq => simp [reads, hp, hq, List.flatMap_map, List.map_flatMap]
  case alt p q hp hq => simp [reads, hp, hq]
  case opt p hp      => simp [reads, hp]

theorem reads_at_lower (p : Pattern) (s : List Char) :
    p.reads (.at (lower s)) = (p.reads (.at s)).map Cursor.lower :=
  p.reads_lower (.at s)

theorem accepts_lower (p : Pattern) (s : List Char) : p.accepts (lower s) = p.accepts s := by
  simp [accepts, reads_at_lower, Function.comp_def, Cursor.lower]

theorem opens_lower (p : Pattern) (s : List Char) : p.opens (lower s) = p.opens s := by
  simp [opens, reads_at_lower]

theorem closes_lower (p : Pattern) (behind : List Char) :
    p.closes (lower behind) = p.closes behind :=
  p.reverse.opens_lower behind

theorem length?_lower (p : Pattern) (s : List Char) : p.length? (lower s) = p.length? s := by
  simp [length?, reads_at_lower, Function.comp_def, Cursor.lower]

end Pattern

namespace Rule

variable (r : Rule) (k : Kind) (behind ahead : List Char)

theorem fitsBehind_lower : r.fitsBehind (lower behind) = r.fitsBehind behind := by
  simp only [fitsBehind, Pattern.closes_lower]

theorem fitsAhead_lower : r.fitsAhead (lower ahead) = r.fitsAhead ahead := by
  simp only [fitsAhead, Pattern.opens_lower]

theorem shorter?_lower (n : Nat) : r.shorter? k (lower ahead) n = r.shorter? k ahead n := by
  have hl (m : Nat) :
      (r.fitsAhead ((lower ahead).drop m) && k.pattern.accepts ((lower ahead).take m)) =
        (r.fitsAhead (ahead.drop m) && k.pattern.accepts (ahead.take m)) := by
    rw [← Text.lower_drop, ← Text.lower_take, fitsAhead_lower, Pattern.accepts_lower]
  induction n using shorter?.induct r k ahead <;> rw [shorter?, shorter?]
  case case3 n hc    => rw [hl, if_pos hc, if_pos hc]
  case case4 n hc hi => rw [hl, if_neg hc, if_neg hc, hi]

theorem length?_lower : r.length? k (lower ahead) = r.length? k ahead := by
  simp only [length?, Pattern.length?_lower, ← Text.lower_drop, fitsAhead_lower, shorter?_lower]

theorem match?_lower : r.match? (lower behind) (lower ahead) = r.match? behind ahead := by
  simp only [match?, fitsBehind_lower, length?_lower]

end Rule

def Match.lower (m : Match) : Match :=
  { m with text := .ofList (Text.lower m.text.toList) }

namespace Match

theorem of_lower (rule : String × Rule) (offset : Nat) (w : List Char) :
    Match.of rule offset (Text.lower w) = (Match.of rule offset w).lower := by
  have hw : (String.ofList (Text.lower w)).utf8ByteSize = (String.ofList w).utf8ByteSize :=
    Text.width_lower w
  simp [Match.of, lower, hw]

theorem kind_lower (m : Match) : m.lower.kind = m.kind := by
  simp only [kind, lower, Kind.accepts, String.toList_ofList, Pattern.accepts_lower]

end Match

namespace Grammar

variable (g : Grammar)

theorem first?_lower (behind ahead : List Char) :
    g.first? (lower behind) (lower ahead) = g.first? behind ahead := by
  simp only [first?, Rule.match?_lower]

variable {g} {offset : Nat} {behind ahead : List Char} {ms ms' : List Match}

theorem Divides.lower (h : g.Divides offset behind ahead ms) :
    g.Divides offset (Text.lower behind) (Text.lower ahead) (ms.map Match.lower) := by
  induction h
  case done    => exact .done
  case pass hi => exact .pass hi
  case take offset behind w s rule ms hw hl hf _ hi =>
    rw [← g.first?_lower, Text.lower_append, ← Text.length_lower w] at hf
    rw [← Text.width_lower, Text.lower_append, Text.lower_reverse] at hi
    rw [Text.lower_append, List.map_cons, ← Match.of_lower]
    exact .take (by simpa using hw) (Text.not_mem_lower hl) hf hi

theorem find_lower (g : Grammar) (s : List Char) :
    g.find (Text.lower s) = (g.find s).map Match.lower :=
  (g.divides 0 [] s).lower.eq_divide.symm

end Grammar

namespace Decimal

variable {s : List Char}

theorem lower_of_digits (h : ∀ c ∈ s, c.isDigit) : lower s = s := by
  rw [lower, List.map_congr_left fun c hc => Text.toLower_of_isDigit (h c hc), List.map_id']

theorem span_lower (s : List Char) :
    (lower s).span Char.isDigit = (s.span Char.isDigit).map id lower := by
  have hd : Char.isDigit ∘ Char.toLower = Char.isDigit := funext Text.isDigit_toLower
  have ht : lower (s.takeWhile Char.isDigit) = s.takeWhile Char.isDigit :=
    lower_of_digits fun _ => List.mem_takeWhile_imp
  rw [List.span_eq_takeWhile_dropWhile, List.span_eq_takeWhile_dropWhile]
  simp only [lower, List.takeWhile_map, List.dropWhile_map, hd] at ht ⊢
  rw [ht]
  rfl

theorem fraction?_lower (s : List Char) :
    fraction? (lower s) = (fraction? s).map (·.map id lower) := by
  cases s
  case nil      => rfl
  case cons c s =>
    by_cases hc : c = '.'
    case pos =>
      subst hc
      rw [lower, List.map_cons, show ('.').toLower = '.' by decide, fraction?, fraction?, ← lower,
        span_lower]
      rcases s.span Char.isDigit with ⟨_ | _, _⟩ <;> rfl
    case neg =>
      have hl : c.toLower ≠ '.' := mt (Text.toLower_eq_iff (by decide)).mp hc
      simp [fraction?, lower, hc, hl]

theorem magnitude?_lower (e : Char) (s : List Char) :
    exponent?.magnitude? e.toLower (lower s) = exponent?.magnitude? e s := by
  have he : (e.toLower = 'e' ∨ e.toLower = 'E') ↔ (e = 'e' ∨ e = 'E') :=
    decide_eq_decide.mp <| Text.toLower_congr (f := fun e => decide (e = 'e' ∨ e = 'E')) (by decide) e
  have hd : (lower s).all Char.isDigit = s.all Char.isDigit := by
    simp [lower, Function.comp_def, Text.isDigit_toLower]
  by_cases hs : s.all Char.isDigit
  case pos => simp only [exponent?.magnitude?, he, lower_of_digits (List.all_eq_true.mp hs)]
  case neg => simp only [exponent?.magnitude?, hd, hs, and_false, Bool.false_eq_true, if_false]

theorem exponent?_lower (s : List Char) : exponent? (lower s) = exponent? s := by
  rcases s with _ | ⟨e, _ | ⟨c, s⟩⟩
  case nil       => rfl
  case cons.nil  => rfl
  case cons.cons =>
    have hm := magnitude?_lower e s
    by_cases hp : c = '+'
    case pos =>
      subst hp
      exact congrArg (Option.map _) hm
    case neg =>
      have hpl : c.toLower ≠ '+' := mt (Text.toLower_eq_iff (by decide)).mp hp
      by_cases hn : c = '-'
      case pos =>
        subst hn
        exact congrArg (Option.map _) hm
      case neg =>
        have hnl : c.toLower ≠ '-' := mt (Text.toLower_eq_iff (by decide)).mp hn
        simp [exponent?, lower, hp, hpl, hn, hnl]

theorem ofNumeral?_lower (s : List Char) : ofNumeral? (lower s) = ofNumeral? s := by
  rw [ofNumeral?, ofNumeral?, span_lower]
  rcases s.span Char.isDigit with ⟨_ | ⟨d, ds⟩, r⟩
  case nil  => rfl
  case cons =>
    simp only [Prod.map_apply, id_eq, fraction?_lower]
    cases fraction? r
    case none   => rfl
    case some p => simp [exponent?_lower]

end Decimal
end Reckoner
