import Reckoner.Session
import Reckoner.Proofs.Brackets
import Reckoner.Proofs.Derivation
import Reckoner.Proofs.Juxtaposition

namespace Reckoner

open Standard

-- The tokens of an expression in which functions have as many arguments as they take. Closing
-- brackets may be missing at the end.
def Sentence (ts : List Token) : Prop :=
  ∃ (e : Expr .sum) (cs : List Token),
    e.tokens = ts ++ cs ∧ (∀ c ∈ cs, c.kind = .closing) ∧ e.Fits

def Awaited.kinds : Awaited → List Kind
  | operand  => operandStart
  | operator => operandEnd

def Kind.awaits : Kind → Awaited
  | number | constant _ | closing | unary .factorial => .operator
  | _                                                => .operand

theorem Kind.awaits_of_textEnd :
    ∀ k : Kind, .textEnd ∈ follow (some k) → k.awaits = .operator := by
  decide

section

variable {a a' : Awaited} {d d' : Nat} {ts us cs : List Token} {t : Token} {front : Option Kind}
  {prev : Option Token} {ks : List Kind}

theorem completes_iff : Completes .operand 0 ts ∧ owned ts 0 = [] ↔
    ∃ e : Expr .sum, e.tokens = ts ∧ e.Fits := by
  constructor
  case mp =>
    rintro ⟨h, ho⟩
    obtain ⟨y, rest, hy, hf, h⟩ := h.operand_append
    obtain ⟨as, rest, has, hf, h, hc⟩ := h.prolonged_append (.one <| .term <| .factor y) hf
    have hr : rest = [] := by
      cases h
      case done             => rfl
      case factorial ts t _ => exact absurd t.2 (hc t rfl ▸ by decide)
      case joiner ts t _    => exact absurd t.2 (hc t rfl ▸ by decide)
    rw [hr, List.append_nil] at has
    have hts : ts = as.tokens := hy.trans has
    have hn := (as.owned_append []).left
    rw [List.append_nil, ← hts, ho] at hn
    obtain ⟨e, he⟩ := as.eq_one_of_count (hn.trans (Nat.zero_add _)).symm
    subst he
    exact ⟨e, hts.symm, hf⟩
  case mpr =>
    rintro ⟨e, rfl, hf⟩
    have h := e.completes hf .done
    have ho := e.owned_append []
    rw [List.append_nil] at h ho
    exact ⟨h, ho ▸ rfl⟩

theorem ordered_cons (t : Token.Of ks)
    (hk : ∀ k ∈ ks, k ∈ a.kinds ∧ k.lead ≠ .none ∧ a'.kinds ⊆ follow (some k))
    (ha : a.kinds ⊆ follow front)
    (hi : ∀ {front : Option Kind}, a'.kinds ⊆ follow front → Ordered front ts) :
    Ordered front (t :: ts) :=
  have ⟨hka, hn, hf⟩ := hk t.1.kind t.2
  ⟨ha hka, hn, hi hf⟩

theorem Completes.ordered (h : Completes a d ts) (ha : a.kinds ⊆ follow front) :
    Ordered front ts := by
  induction h generalizing front
  case done             => exact ha (by decide)
  case operand t _ hi   => exact ordered_cons t (by decide) ha hi
  case negation t _ hi  => exact ordered_cons t (by decide) ha hi
  case bracket o _ _ hi => exact ordered_cons o (by decide) ha hi
  case call f o _ _ hi  =>
    have ⟨hf, hn, hl⟩ := (by decide : ∀ k ∈ Kind.functions, k ∈ Awaited.operand.kinds ∧
      k.lead ≠ .none ∧ .opening ∈ follow (some k)) f.1.kind f.2
    have ho := List.mem_singleton.mp o.2
    exact ⟨ha hf, hn, by rwa [ho], by rw [ho]; decide, hi (by rw [ho]; decide)⟩
  case factorial t _ hi => exact ordered_cons t (by decide) ha hi
  case closing c _ hi   => exact ordered_cons c (by decide) ha hi
  case joiner t _ hi    => exact ordered_cons t (by decide) ha hi

theorem Ordered.of_append (hc : ∀ c ∈ cs, c.kind = .closing) (h : Ordered front (ts ++ cs)) :
    Ordered front ts := by
  induction ts generalizing front
  case cons t ts hi => exact ⟨h.left, h.right.left, hi h.right.right⟩
  case nil =>
    cases cs
    case nil       => exact h
    case cons c cs =>
      have hf : .closing ∈ follow front := hc c List.mem_cons_self ▸ h.left
      cases front
      case none   => exact (by decide : .textEnd ∈ follow none)
      case some k => exact (by decide : ∀ k : Kind, .closing ∈ follow (some k) →
        .textEnd ∈ follow (some k)) k hf

theorem Guarded.of_append (hc : ∀ c ∈ cs, c.kind = .closing) (h : Guarded prev (ts ++ cs)) :
    Guarded prev ts := by
  induction ts generalizing prev
  case nil          => trivial
  case cons t ts hi =>
    have ⟨ho, hg⟩ := h
    rw [List.append_eq, owned_append_closings hc] at ho
    exact ⟨ho, hi hg⟩

-- Tokens that are left where an operand or an operator is awaited, behind a kind and a token. They
-- follow one another and own what they are to own, and no numeral stands behind a factorial.
structure Remains (a : Awaited) (front : Option Kind) (prev : Option Token) (ts : List Token) :
    Prop where
  ordered  : Ordered front ts
  guarded  : Guarded prev ts
  separate : juxtapositions ts = 0
  awaited  : ∀ t ∈ ts.head?, t.kind ∈ a.kinds
  ended    : ts = [] → a = .operator

theorem Remains.tail (h : Remains a front prev (t :: ts)) :
    Remains t.kind.awaits (some t.kind) (some t) ts := by
  have ho := h.ordered.right.right
  have hg := h.guarded.right
  cases ts
  case nil =>
    exact ⟨ho, hg, rfl, by simp, fun _ => Kind.awaits_of_textEnd t.kind ho⟩
  case cons u ts =>
    have ⟨hf, hj⟩ := Nat.add_eq_zero_iff.mp h.separate
    refine ⟨ho, hg, hj, ?_, by simp⟩
    rintro _ ⟨⟩
    exact (by decide : ∀ k l : Kind, l ∈ follow (some k) → l.lead ≠ .none →
      ¬(k = .unary .factorial ∧ l = .number) → l ∈ k.awaits.kinds) t.kind u.kind ho.left
      ho.right.left fun hk => by simp [hk] at hf

def Completable (a : Awaited) (d : Nat) (ts : List Token) : Prop :=
  ∃ cs, (∀ c ∈ cs, c.kind = .closing) ∧ Completes a d (ts ++ cs)

theorem Completable.map (h : Completable a d ts)
    (f : ∀ cs, (∀ c ∈ cs, c.kind = .closing) → Completes a d (ts ++ cs) →
      Completes a' d' (us ++ cs)) : Completable a' d' us :=
  have ⟨cs, hc, h⟩ := h
  ⟨cs, hc, f cs hc h⟩

def Token.closer : Token.Of [.closing] :=
  ⟨⟨.closing, ")", .nowhere, by decide⟩, by decide⟩

theorem completable_nil : Completable .operator d [] := by
  refine ⟨List.replicate d Token.closer.1, fun c hc => List.eq_of_mem_replicate hc ▸ rfl, ?_⟩
  induction d
  case zero      => exact .done
  case succ d hi => exact .closing _ hi

theorem exists_opening_of_function {k : Kind} (hk : k ∈ Kind.functions)
    (ho : Ordered (some k) ts) : ∃ o us, ts = o :: us ∧ o.kind = .opening := by
  have hf := (by decide : ∀ k ∈ Kind.functions, follow (some k) = [.opening]) k hk
  cases ts
  case nil       =>
    rw [Ordered, hf] at ho
    exact absurd ho (by decide)
  case cons o us => exact ⟨o, us, rfl, List.mem_singleton.mp (hf ▸ ho.left)⟩

-- Tokens in order are those of an expression up to closing brackets that are missing, if their
-- separators stand where they may and their brackets are paired.
theorem Remains.completable {y y' : Yard} {ts : List Token} {a : Awaited} {front : Option Kind}
    {prev : Option Token} (h : Remains a front prev ts) (hp : ∀ f ∈ prev, f.kind ∉ Kind.functions)
    (hy : ts.foldlM Yard.step y = .ok y') : Completable a y.depth ts := by
  cases ts
  case nil       => exact h.ended rfl ▸ completable_nil
  case cons t ts =>
    rw [List.foldlM_cons] at hy
    have ⟨mid, hm, hy⟩ := Except.bind_eq_ok.mp hy
    have rest {a : Awaited} (ha : t.kind.awaits = a) (ht : t.kind ∉ Kind.functions) :
        Completable a mid.depth ts :=
      ha ▸ h.tail.completable (by rintro _ ⟨⟩; exact ht) hy
    cases a
    case operand =>
      have ht := (by decide : ∀ k ∈ operandStart, k ∈ Kind.operands ∨ k = .unary .negate ∨
        k = .opening ∨ k ∈ Kind.functions) t.kind (h.awaited t rfl)
      rcases ht with ht | ht | ht | ht
      · have ⟨ha, hf⟩ := (by decide : ∀ k ∈ Kind.operands, k.awaits = .operator ∧
          k ∉ Kind.functions) t.kind ht
        rw [← Yard.depth_of_other hm (Kind.not_bracket_of_operand ht)]
        exact (rest ha hf).map fun _ _ => .operand ⟨t, ht⟩
      · rw [← Yard.depth_of_other hm (by simp [ht])]
        exact (rest (by rw [ht]; rfl) (by rw [ht]; decide)).map fun _ _ =>
          .negation ⟨t, List.mem_singleton.mpr ht⟩
      · have hs := (Separators.checkOwned_other hp).mp (h.guarded.left ht)
        have hr : Completable .operand mid.depth ts :=
          rest (by rw [ht]; rfl) (by rw [ht]; decide)
        rw [Yard.depth_of_opening hm ht] at hr
        exact hr.map fun cs hc => .bracket ⟨t, List.mem_singleton.mpr ht⟩
          (by rwa [owned_append_closings hc])
      · have ha := (by decide : ∀ k ∈ Kind.functions, k.awaits = .operand) t.kind ht
        have ⟨o, us, hu, hok⟩ := exists_opening_of_function ht h.ordered.right.right
        subst hu
        rw [List.foldlM_cons] at hy
        have ⟨next, hn, hy⟩ := Except.bind_eq_ok.mp hy
        have hs := (Separators.checkOwned_function ht).mp (h.guarded.right.left hok)
        have hr : Completable .operand next.depth us :=
          (hok ▸ h.tail.tail).completable (by rintro _ ⟨⟩; rw [hok]; decide) hy
        rw [Yard.depth_of_opening hn hok,
          Yard.depth_of_other hm (Kind.not_bracket_of_function ht)] at hr
        exact hr.map fun cs hc => .call ⟨t, ht⟩ ⟨o, List.mem_singleton.mpr hok⟩
          (by rwa [owned_append_closings hc])
    case operator =>
      have ht := (by decide : ∀ k ∈ operandEnd, k.lead ≠ .none → k = .unary .factorial ∨
        k = .closing ∨ k ∈ Kind.binaries) t.kind (h.awaited t rfl) h.ordered.right.left
      rcases ht with ht | ht | ht
      · rw [← Yard.depth_of_other hm (by simp [ht])]
        exact (rest (by rw [ht]; rfl) (by rw [ht]; decide)).map fun _ _ =>
          .factorial ⟨t, List.mem_singleton.mpr ht⟩
      · rw [Yard.depth_of_closing hm ht]
        exact (rest (by rw [ht]; rfl) (by rw [ht]; decide)).map fun _ _ =>
          .closing ⟨t, List.mem_singleton.mpr ht⟩
      · have ⟨ha, hf⟩ := (by decide : ∀ k ∈ Kind.binaries, k.awaits = .operand ∧
          k ∉ Kind.functions) t.kind ht
        rw [← Yard.depth_of_other hm (Kind.not_bracket_of_operator <| .inl ht)]
        exact (rest ha hf).map fun _ _ => .joiner ⟨t, ht⟩
termination_by ts.length

theorem Sentence.compiles (h : Sentence ts) :
    Ordered none ts ∧ Separators.check ts = .ok () ∧ ∃ out, Postfix.ofTokens ts = .ok out := by
  have ⟨e, cs, he, hc, hf⟩ := h
  have ⟨hx, _⟩ := completes_iff.mpr ⟨e, he, hf⟩
  refine ⟨.of_append hc <| hx.ordered (by decide), ?_, ?_⟩
  · have hg := (e.guarded_append []).mpr ⟨hf, trivial⟩
    rw [List.append_nil, he] at hg
    refine Separators.check_iff.mpr ⟨hg.of_append hc, fun d => ?_⟩
    have ho := e.owned_append []
    rw [List.append_nil, he, owned_append_closings hc] at ho
    exact congrFun ho d
  · have ⟨y, hy, _⟩ := Except.map_eq_ok.mp e.ofTokens_tokens
    rw [he, List.foldlM_append] at hy
    have ⟨y, hy, _⟩ := Except.bind_eq_ok.mp hy
    exact ⟨y.finish, Except.map_eq_ok.mpr ⟨y, hy, rfl⟩⟩

theorem head_of_compiles {out : List Token} (ho : Ordered none (t :: ts))
    (hs : Separators.check (t :: ts) = .ok ()) (hp : Postfix.ofTokens (t :: ts) = .ok out) :
    t.kind ∈ operandStart ∨ t.kind.lead = .operator ∨ t.kind.lead = .bang := by
  have hk := (by decide : ∀ k ∈ follow none, k.lead ≠ .none → k = .closing ∨ k = .separator ∨
    k ∈ operandStart ∨ k.lead = .operator ∨ k.lead = .bang) t.kind ho.left ho.right.left
  rcases hk with hk | hk | hk
  · have ⟨y, hy, _⟩ := Except.map_eq_ok.mp hp
    rw [List.foldlM_cons] at hy
    have ⟨mid, hm, _⟩ := Except.bind_eq_ok.mp hy
    have hd := Yard.depth_of_closing hm hk
    contradiction
  · have hown := (Separators.check_iff.mp hs).right 0
    rw [owned_separator hk] at hown
    contradiction
  · exact hk

theorem sentence_of_compiles {out : List Token} (ho : Ordered none ts)
    (hs : Separators.check ts = .ok ()) (hp : Postfix.ofTokens ts = .ok out) (hn : ts ≠ [])
    (hj : juxtapositions ts = 0)
    (hl : ∀ t ∈ ts.head?, ¬(t.kind.lead = .operator ∨ t.kind.lead = .bang)) :
    Sentence ts := by
  have ⟨hg, hown⟩ := Separators.check_iff.mp hs
  have ⟨y, hy, _⟩ := Except.map_eq_ok.mp hp
  have hw : ∀ t ∈ ts.head?, t.kind ∈ Awaited.operand.kinds := by
    intro t ht
    have ⟨us, hu⟩ := List.head?_eq_some_iff.mp ht
    subst hu
    exact (head_of_compiles ho hs hp).resolve_right (hl t rfl)
  have hr : Remains .operand none none ts := ⟨ho, hg, hj, hw, (absurd · hn)⟩
  have ⟨cs, hc, hx⟩ := hr.completable (by simp) hy
  have ⟨e, he, hf⟩ := completes_iff.mp ⟨hx, by rw [owned_append_closings hc, hown]⟩
  exact ⟨e, cs, he, hc, hf⟩

end

-- What a text that is compiled consists of. A numeral directly behind a factorial, and an operator
-- in front of the text, are let through as well, and are left out here.
theorem Lexer.compile_standard_iff (expression : String)
    (hj : ∀ d, d.isDigit → ¬['!', d] <:+: Text.stripped expression.toList)
    (hl : ∀ c ∈ (Text.stripped expression.toList).head?, c ∉ ['+', '*', '/', '%', '^', '!']) :
    ((∃ out, Lexer.standard.compile expression = .ok out) ↔
      Text.stripped expression.toList = [] ∨ ∃ ts, Sentence ts ∧ Laid 0 ts ∧
        spelling ts = Text.stripped expression.toList) ∧
    ∀ ts, Sentence ts → Laid 0 ts → spelling ts = Text.stripped expression.toList →
      Lexer.standard.parse expression = .ok ts := by
  have parse {ts : List Token} (h : Sentence ts) (hd : Laid 0 ts)
      (hw : spelling ts = Text.stripped expression.toList) :
      Lexer.standard.parse expression = .ok ts ∧ ∃ out, Postfix.ofTokens ts = .ok out :=
    have ⟨ho, hs, hp⟩ := h.compiles
    ⟨Lexer.parse_iff.mpr ⟨⟨ho, hd, hw⟩, hs⟩, hp⟩
  refine ⟨⟨?_, ?_⟩, fun ts h hd hw => (parse h hd hw).left⟩
  · rintro ⟨out, h⟩
    have ⟨ts, hts, hp⟩ := Except.bind_eq_ok.mp h
    have ⟨⟨ho, hd, hw⟩, hs⟩ := Lexer.parse_iff.mp hts
    by_cases hn : ts = []
    · exact .inl (by rw [← hw, hn]; rfl)
    · refine .inr ⟨ts, sentence_of_compiles ho hs hp hn ?_ ?_, hd, hw⟩
      · rw [← juxtaposed_spelling ho, hw, Text.juxtaposed_eq_zero_iff.mpr hj]
      · intro t ht
        have ⟨us, hu⟩ := List.head?_eq_some_iff.mp ht
        subst hu
        have ⟨c, s, hs, hc⟩ := exists_cons_of_ordered ho
        have hm : c ∉ Lead.trailing := hl c <| by rw [← hw, hs]; rfl
        rw [← Lead.of_trailing_iff, hc] at hm
        exact hm
  · rintro (hn | ⟨ts, h, hd, hw⟩)
    · have ho : Ordered none [] := (by decide : Kind.textEnd ∈ follow none)
      exact ⟨[], Except.bind_eq_ok.mpr ⟨[], Lexer.parse_iff.mpr ⟨⟨ho, trivial, hn.symm⟩, rfl⟩, rfl⟩⟩
    · have ⟨hts, out, hp⟩ := parse h hd hw
      exact ⟨out, Except.bind_eq_ok.mpr ⟨ts, hts, hp⟩⟩

theorem Lexer.compile_standard_call :
    (∀ d, d.isDigit → ¬['!', d] <:+: Text.stripped "max( -2!".toList) ∧
    (∀ c ∈ (Text.stripped "max( -2!".toList).head?, c ∉ ['+', '*', '/', '%', '^', '!']) ∧
    ∃ ts, Sentence ts ∧ Lexer.standard.parse "max( -2!" = .ok ts ∧
      ∃ out, Lexer.standard.compile "max( -2!" = .ok out := by
  have hj : ∀ d, d.isDigit → ¬['!', d] <:+: Text.stripped "max( -2!".toList :=
    Text.juxtaposed_eq_zero_iff.mp (by decide)
  have hl : ∀ c ∈ (Text.stripped "max( -2!".toList).head?, c ∉ ['+', '*', '/', '%', '^', '!'] := by
    rw [show (Text.stripped "max( -2!".toList).head? = some 'm' by decide]
    rintro _ ⟨⟩
    decide
  let f : Token.Of Kind.functions      := ⟨⟨.function .max, "max", ⟨0, 3⟩, by decide⟩, by decide⟩
  let o : Token.Of [.opening]          := ⟨⟨.opening, "(", ⟨3, 4⟩, by decide⟩, by decide⟩
  let m : Token.Of [.unary .negate]    := ⟨⟨.unary .negate, "-", ⟨4, 5⟩, by decide⟩, by decide⟩
  let n : Token.Of Kind.operands       := ⟨⟨.number, "2", ⟨5, 6⟩, by decide⟩, by decide⟩
  let b : Token.Of [.unary .factorial] := ⟨⟨.unary .factorial, "!", ⟨6, 7⟩, by decide⟩, by decide⟩
  let x : Expr .power := .negation m <| .base <| .factorial (.atom <| .operand n) b
  let e : Expr .sum := .term <| .factor <| .base <| .atom <|
    .call f o (.one <| .term <| .factor x) Token.closer
  have h : Sentence [f, o, m, n, b] := ⟨e, [Token.closer.1], rfl, by decide, by decide, trivial⟩
  have hd : Laid 0 [f.1, o, m, n, b] :=
    ⟨by decide, by decide, by decide, by decide, by decide, trivial⟩
  have hw : spelling [f, o, m, n, b] = Text.stripped "max( -2!".toList := by decide
  have ⟨hc, hp⟩ := compile_standard_iff "max( -2!" hj hl
  exact ⟨hj, hl, _, h, hp _ h hd hw, hc.mpr <| .inr ⟨_, h, hd, hw⟩⟩

end Reckoner
