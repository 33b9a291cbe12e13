import Mathlib.Data.List.Forall2
import Reckoner.Proofs.Arrangement
import Reckoner.Proofs.LetterCase
import Reckoner.Proofs.Transparency

namespace Except

variable {α β γ δ ε : Type} {r : ε → ε → Prop} {p : α → β → Prop} {q : γ → δ → Prop}

-- Two computations that both come to a value or both fail, and to what is related.
inductive LiftRel (r : ε → ε → Prop) (p : α → β → Prop) : Except ε α → Except ε β → Prop
  | ok    {a b} : p a b → LiftRel r p (.ok a) (.ok b)
  | error {e f} : r e f → LiftRel r p (.error e) (.error f)

namespace LiftRel

theorem refl (hr : ∀ e, r e e) (x : Except ε α) : LiftRel r Eq x x := by
  cases x
  case ok a    => exact .ok rfl
  case error e => exact .error (hr e)

theorem bind {x : Except ε α} {y : Except ε β} {f : α → Except ε γ} {g : β → Except ε δ}
    (h : LiftRel r p x y) (hf : ∀ a b, p a b → LiftRel r q (f a) (g b)) :
    LiftRel r q (x >>= f) (y >>= g) := by
  cases h
  case ok h    => exact hf _ _ h
  case error h => exact .error h

theorem map {x : Except ε α} {y : Except ε β} {f : α → γ} {g : β → δ} (h : LiftRel r p x y)
    (hf : ∀ a b, p a b → q (f a) (g b)) : LiftRel r q (f <$> x) (g <$> y) := by
  cases h
  case ok h    => exact .ok (hf _ _ h)
  case error h => exact .error h

theorem foldlM {f : γ → α → Except ε γ} {g : δ → β → Except ε δ} {as : List α} {bs : List β} {c : γ}
    {d : δ} (hf : ∀ c d a b, q c d → p a b → LiftRel r q (f c a) (g d b)) (hc : q c d)
    (h : List.Forall₂ p as bs) : LiftRel r q (as.foldlM f c) (bs.foldlM g d) := by
  induction h generalizing c d
  case nil => exact .ok hc
  case cons ha _ hi =>
    rw [List.foldlM_cons, List.foldlM_cons]
    exact (hf _ _ _ _ hc ha).bind fun _ _ hm => hi hm

end LiftRel
end Except

namespace List.Forall₂

variable {α β : Type} {r : α → β → Prop} {as : List α} {bs : List β} {p : α → Bool} {q : β → Bool}

theorem takeWhile (hp : ∀ a b, r a b → p a = q b) (h : Forall₂ r as bs) :
    Forall₂ r (as.takeWhile p) (bs.takeWhile q) := by
  induction h
  case nil => exact .nil
  case cons a b as bs hr _ hi =>
    rw [List.takeWhile_cons, List.takeWhile_cons, hp a b hr]
    split
    case isTrue  => exact .cons hr hi
    case isFalse => exact .nil

theorem dropWhile (hp : ∀ a b, r a b → p a = q b) (h : Forall₂ r as bs) :
    Forall₂ r (as.dropWhile p) (bs.dropWhile q) := by
  induction h
  case nil => exact .nil
  case cons a b as bs hr h hi =>
    rw [List.dropWhile_cons, List.dropWhile_cons, hp a b hr]
    split
    case isTrue  => exact hi
    case isFalse => exact .cons hr h

end List.Forall₂

namespace Reckoner

open Except (LiftRel)

structure Token.Alike (t t' : Token) : Prop where
  kind : t.kind = t'.kind
  span : t.span = t'.span
  text : Text.Alike t.text.toList t'.text.toList

inductive Fault.Alike : Fault → Fault → Prop
  | same (f) : Alike f f
  | unrecognized {text text' span} : Text.Alike text.toList text'.toList →
      Alike (.unrecognized text span) (.unrecognized text' span)
  | unbalanced {text text' span} : Text.Alike text.toList text'.toList →
      Alike (.unbalanced text span) (.unbalanced text' span)
  | count {text text' arity n positions} : Text.Alike text.toList text'.toList →
      Alike (.separators (.count text arity n) positions)
        (.separators (.count text' arity n) positions)

def Postfix.FailsAt (ts : List Token) (n : Nat) (f : Fault) : Prop :=
  ∃ before t after y, ts = before ++ t :: after ∧ before.length = n ∧
    before.foldlM Yard.step .empty = .ok y ∧ y.step t = .error f

variable {ts ts' : List Token} {t t' : Token}

namespace Token.Alike

theorem unrecognized (h : t.Alike t') : t.unrecognized.Alike t'.unrecognized := by
  rw [Token.unrecognized, Token.unrecognized, h.span]
  exact .unrecognized h.text

theorem unbalanced (h : t.Alike t') : t.unbalanced.Alike t'.unbalanced := by
  rw [Token.unbalanced, Token.unbalanced, h.span]
  exact .unbalanced h.text

theorem value? (h : t.Alike t') : t.value? = t'.value? := by
  have hn : Decimal.ofNumeral? t.text.toList = Decimal.ofNumeral? t'.text.toList :=
    h.text.congr Decimal.ofNumeral?_lower
  rw [Token.value?, Token.value?, h.kind, hn]

theorem opens (h : t.Alike t') : Yard.opens t = Yard.opens t' := by
  rw [Yard.opens, Yard.opens, h.kind]

end Token.Alike

namespace Grammar

variable {g : Grammar} {m m' : Match} {ms ms' : List Match} {s s' : List Char}

theorem token_alike (h : m.lower = m'.lower) (ht : m.token = .ok t) (ht' : m'.token = .ok t') :
    t.Alike t' := by
  have ⟨hk, hx, hs⟩ := Token.make_eq_ok.mp ht
  have ⟨hk', hx', hs'⟩ := Token.make_eq_ok.mp ht'
  constructor
  case kind => rw [hk, hk', ← m.kind_lower, h, m'.kind_lower]
  case span => exact hs.trans <| (congrArg Match.span h).trans hs'.symm
  case text =>
    have hl := congrArg (·.text.toList) h
    simp only [Match.lower, String.toList_ofList] at hl
    rwa [hx, hx', Text.Alike]

theorem tokens_alike (h : List.Forall₂ (fun m m' => m.lower = m'.lower) ms ms')
    (hts : ms.mapM Match.token = .ok ts) (hts' : ms'.mapM Match.token = .ok ts') :
    List.Forall₂ Token.Alike ts ts' := by
  induction h generalizing ts ts'
  case nil =>
    cases hts
    cases hts'
    exact .nil
  case cons hm _ hi =>
    obtain ⟨t, us, ht, hu, rfl⟩ := Except.mapM_cons_eq_ok.mp hts
    obtain ⟨t', us', ht', hu', rfl⟩ := Except.mapM_cons_eq_ok.mp hts'
    exact .cons (token_alike hm ht ht') (hi hu hu')

theorem find_alike (g : Grammar) (h : Text.Alike s s') :
    ∃ ts ts', (g.find s).mapM Match.token = .ok ts ∧ (g.find s').mapM Match.token = .ok ts' ∧
      List.Forall₂ Token.Alike ts ts' := by
  have ⟨ts, hts, _⟩ := (g.divides 0 [] s).exists_tokens
  have ⟨ts', hts', _⟩ := (g.divides 0 [] s').exists_tokens
  refine ⟨ts, ts', hts, hts', tokens_alike ?_ hts hts'⟩
  have hm : (g.find s).map Match.lower = (g.find s').map Match.lower := by
    rw [← g.find_lower, h, g.find_lower]
  rw [← List.forall₂_eq_eq_eq] at hm
  rwa [List.forall₂_map_left_iff, List.forall₂_map_right_iff] at hm

end Grammar

structure Yard.Alike (y y' : Yard) : Prop where
  out     : List.Forall₂ Token.Alike y.out y'.out
  waiting : List.Forall₂ Token.Alike y.waiting y'.waiting

namespace Yard.Alike

variable {y y' : Yard}

theorem put (h : y.Alike y') (ht : t.Alike t') :
    Alike ⟨y.out ++ [t], y.waiting⟩ ⟨y'.out ++ [t'], y'.waiting⟩ :=
  ⟨List.rel_append h.out (.cons ht .nil), h.waiting⟩

theorem hold (h : y.Alike y') (ht : t.Alike t') : (y.hold t).Alike (y'.hold t') :=
  ⟨h.out, .cons ht h.waiting⟩

theorem release {leaves leaves' : Token → Bool} (hl : ∀ t t', t.Alike t' → leaves t = leaves' t')
    (h : y.Alike y') : (y.release leaves).Alike (y'.release leaves') :=
  ⟨List.rel_append h.out (h.waiting.takeWhile hl), h.waiting.dropWhile hl⟩

theorem step (h : y.Alike y') (ht : t.Alike t') :
    LiftRel Fault.Alike Alike (y.step t) (y'.step t') := by
  rw [Yard.step, Yard.step, ← ht.kind]
  cases t.kind
  case number | constant              => exact .ok (h.put ht)
  case opening | function             => exact .ok (h.hold ht)
  case separator | binary | unary     =>
    exact .ok ((h.release fun _ _ hu => by rw [hu.kind]).hold ht)
  case textStart | textEnd | anything => exact .error ht.unrecognized
  case closing =>
    have hr := h.release fun _ _ hu => congrArg not hu.opens
    generalize y.release _ = z, y'.release _ = z' at hr
    obtain ⟨out, waiting⟩ := z
    obtain ⟨out', waiting'⟩ := z'
    obtain ⟨ho, hw⟩ := hr
    cases hw
    case nil       => exact .error ht.unbalanced
    case cons _ hw => exact .ok ⟨ho, hw⟩

theorem finish (h : y.Alike y') : List.Forall₂ Token.Alike y.finish y'.finish := by
  refine List.rel_append h.out <| List.rel_filter (fun u u' hu => ?_) h.waiting
  simp only [hu.opens]

end Yard.Alike

namespace Postfix

theorem ofTokens_eq_error_iff_failsAt {f : Fault} :
    ofTokens ts = .error f ↔ ∃ n, FailsAt ts n f := by
  rw [ofTokens_eq_error_iff]
  constructor
  case mp =>
    rintro ⟨before, t, after, y, hs, h⟩
    exact ⟨before.length, before, t, after, y, hs, rfl, h⟩
  case mpr =>
    rintro ⟨n, before, t, after, y, hs, _, h⟩
    exact ⟨before, t, after, y, hs, h⟩

theorem foldlM_alike (h : List.Forall₂ Token.Alike ts ts') :
    LiftRel Fault.Alike Yard.Alike (ts.foldlM Yard.step .empty) (ts'.foldlM Yard.step .empty) :=
  .foldlM (fun _ _ _ _ hy ht => hy.step ht) ⟨.nil, .nil⟩ h

theorem ofTokens_alike (h : List.Forall₂ Token.Alike ts ts') :
    LiftRel Fault.Alike (List.Forall₂ Token.Alike) (ofTokens ts) (ofTokens ts') :=
  (foldlM_alike h).map fun _ _ hy => hy.finish

theorem FailsAt.alike {n : Nat} {f : Fault} (h : List.Forall₂ Token.Alike ts ts')
    (hf : FailsAt ts n f) : ∃ f', FailsAt ts' n f' ∧ f.Alike f' := by
  obtain ⟨before, t, after, y, rfl, rfl, hb, hs⟩ := hf
  have hb' := foldlM_alike (List.forall₂_take before.length h)
  have ht := List.forall₂_drop before.length h
  rw [List.take_left, hb] at hb'
  rw [List.drop_left] at ht
  obtain ⟨t', after', ht, _, hd⟩ := List.forall₂_cons_left_iff.mp ht
  generalize hr : (ts'.take before.length).foldlM Yard.step .empty = r at hb'
  cases hb'
  case ok y' hy =>
    have hs' := hy.step ht
    rw [hs] at hs'
    generalize he : y'.step t' = r' at hs'
    cases hs'
    case error f' hf =>
      refine ⟨f', ⟨ts'.take before.length, t', after', y', ?_, ?_, hr, he⟩, hf⟩
      · rw [← hd, List.take_append_drop]
      · rw [List.length_take_of_le]
        simp [← h.length_eq]

end Postfix

namespace Checks

theorem recognized_alike (h : List.Forall₂ Token.Alike ts ts') :
    LiftRel Fault.Alike Eq (recognized ts) (recognized ts') := by
  induction h
  case nil => exact .ok rfl
  case cons t t' ts ts' ht _ hi =>
    rw [recognized, recognized, List.find?_cons, List.find?_cons, ht.kind]
    cases decide (t'.kind = .anything)
    case true  => exact .error ht.unrecognized
    case false => exact hi

end Checks

namespace Separators

theorem checkOwned_alike {front front' : Option Token} (h : Option.Rel Token.Alike front front')
    (positions : List Nat) :
    LiftRel Fault.Alike Eq (checkOwned front positions) (checkOwned front' positions) := by
  cases h
  case none         => exact .refl .same _
  case some t t' ht =>
    rw [checkOwned, checkOwned, Option.bind_some, Option.bind_some, ht.kind]
    cases t'.kind.function?
    case none   => exact .refl .same _
    case some f =>
      simp only [Option.map_some]
      split
      case isTrue  => exact .ok rfl
      case isFalse => exact .error (.count ht.text)

theorem backwards_alike (f : Frames) (h : List.Forall₂ Token.Alike ts ts') :
    LiftRel Fault.Alike Eq (backwards f ts) (backwards f ts') := by
  induction h generalizing f
  case nil => exact .refl .same _
  case cons t t' ts ts' ht h hi =>
    rw [backwards, backwards, ht.kind, ht.span]
    cases t'.kind
    case closing   => exact hi f.enter
    case separator => exact hi (f.add t'.span.start)
    case opening   =>
      have hf : Option.Rel Token.Alike ts.head? ts'.head? := by
        cases h
        case nil       => exact .none
        case cons hu _ => exact .some hu
      exact (checkOwned_alike hf f.inner).bind fun _ _ _ => hi f.leave
    all_goals exact hi f

theorem check_alike (h : List.Forall₂ Token.Alike ts ts') :
    LiftRel Fault.Alike Eq (check ts) (check ts') :=
  backwards_alike .empty (List.forall₂_reverse_iff.mpr h)

end Separators

namespace Execution

theorem step_alike (o : Options) (stack : List Operand) (h : t.Alike t') :
    LiftRel Fault.Alike Eq (step o stack t) (step o stack t') := by
  have hp : pair t stack = pair t' stack := by
    rcases stack with _ | ⟨_, _ | _⟩ <;> simp only [pair, h.kind]
  rw [step, step, h.kind, h.value?]
  cases t'.kind
  case number | constant =>
    cases t'.value?
    case none   => exact .error h.unrecognized
    case some x => exact .refl .same _
  case separator | binary =>
    rw [hp]
    exact .refl .same _
  case unary | function => exact .refl .same _
  all_goals exact .error h.unrecognized

theorem execute_alike (o : Options) (h : List.Forall₂ Token.Alike ts ts') :
    LiftRel Fault.Alike Eq (execute o ts) (execute o ts') := by
  have hr : LiftRel Fault.Alike Eq (run o ts) (run o ts') :=
    .foldlM (fun stack _ _ _ hs ht => hs ▸ step_alike o stack ht) rfl h
  exact hr.bind fun x y he => he ▸ .refl .same _

end Execution

namespace Lexer

variable {e e' : String}

theorem parse_alike (g : Grammar) (h : Text.Alike e.toList e'.toList) :
    LiftRel Fault.Alike (List.Forall₂ Token.Alike) ((Lexer.mk g Checks.standard).parse e)
      ((Lexer.mk g Checks.standard).parse e') := by
  obtain ⟨ts, ts', hts, hts', ht⟩ := g.find_alike h.stripped
  rw [parse, parse, tokenize, tokenize, hts, hts', Except.ok_bind, Except.ok_bind]
  refine LiftRel.bind (p := Eq) ?_ fun _ _ _ => .ok ht
  exact (Checks.recognized_alike ht).bind fun _ _ _ =>
    (Separators.check_alike ht).bind fun _ _ _ => .ok rfl

theorem compile_alike (g : Grammar) (h : Text.Alike e.toList e'.toList) :
    LiftRel Fault.Alike (List.Forall₂ Token.Alike) ((Lexer.mk g Checks.standard).compile e)
      ((Lexer.mk g Checks.standard).compile e') :=
  (parse_alike g h).bind fun _ _ => Postfix.ofTokens_alike

end Lexer

theorem answer_alike (o : Options) (h : List.Forall₂ Token.Alike ts ts') :
    LiftRel Fault.Alike Eq (answer o ts) (answer o ts') :=
  (Execution.execute_alike o h).map fun _ _ => congrArg _

-- Two expressions that differ in nothing but the case of their letters have tokens that differ in
-- nothing else, whatever the grammar is. Both are converted, or both fail at the same token, and a
-- session that checks what is checked as a rule comes to the same value of both, or to the same fault.
theorem Session.evaluate_alike {σ : Type} [Memory σ] [Memory.Lawful σ] (g : Grammar) (e e' : String)
    (h : Text.Alike e.toList e'.toList) (o : Options) :
    let l : Lexer := ⟨g, Checks.standard⟩
    (∃ ts ts', l.tokenize (Text.stripped e.toList) = .ok ts ∧
      l.tokenize (Text.stripped e'.toList) = .ok ts' ∧ List.Forall₂ Token.Alike ts ts' ∧
      ((∃ out out', Postfix.ofTokens ts = .ok out ∧ Postfix.ofTokens ts' = .ok out' ∧
          List.Forall₂ Token.Alike out out') ∨
        ∃ n f f', Postfix.ofTokens ts = .error f ∧ Postfix.ofTokens ts' = .error f' ∧
          Postfix.FailsAt ts n f ∧ Postfix.FailsAt ts' n f' ∧ f.Alike f')) ∧
    ∀ s : Session σ, s.Coherent → s.lexer.toLexer = l → ∀ keep,
      LiftRel Fault.Alike Eq (s.evaluate e keep o).1 (s.evaluate e' keep o).1 := by
  intro l
  constructor
  case left =>
    obtain ⟨ts, ts', hts, hts', ht⟩ := g.find_alike h.stripped
    refine ⟨ts, ts', hts, hts', ht, ?_⟩
    have hc := Postfix.ofTokens_alike ht
    generalize hr : Postfix.ofTokens ts = r, hr' : Postfix.ofTokens ts' = r' at hc
    cases hc
    case ok out out' hp => exact .inl ⟨out, out', rfl, rfl, hp⟩
    case error f _ _ =>
      obtain ⟨n, hn⟩ := Postfix.ofTokens_eq_error_iff_failsAt.mp hr
      obtain ⟨f', hn', hf⟩ := hn.alike ht
      have he := Postfix.ofTokens_eq_error_iff_failsAt.mpr ⟨n, hn'⟩
      exact .inr ⟨n, f, f', rfl, hr'.symm.trans he, hn, hn', hf⟩
  case right =>
    intro s hs hl keep
    rw [evaluate_fst hs, evaluate_fst hs, hs.fresh.compile, hs.fresh.compile, hl]
    exact (Lexer.compile_alike g h).bind fun _ _ => answer_alike o

theorem Session.evaluate_alike_letters :
    Text.Alike "Sin(pi)+2e+1".toList "SIN(Pi)+2E+1".toList ∧
    LiftRel Fault.Alike Eq (Session.standard.evaluate "Sin(pi)+2e+1" true .empty).1
      (Session.standard.evaluate "SIN(Pi)+2E+1" true .empty).1 := by
  have ha : Text.Alike "Sin(pi)+2e+1".toList "SIN(Pi)+2E+1".toList := by decide
  exact ⟨ha, (evaluate_alike ⟨Standard.rules⟩ _ _ ha .empty).right .standard .standard rfl true⟩

end Reckoner
