import Reckoner.Checks
import Reckoner.Proofs.Cover
import Reckoner.Proofs.Lexeme

namespace Reckoner

open Standard

def Laid : Nat → List Token → Prop
  | _,      []      => True
  | offset, t :: ts => t.span = ⟨offset, offset + t.text.utf8ByteSize⟩ ∧ Laid t.span.stop ts

-- Tokens of kinds that may follow one another, behind a kind or at the beginning of a text.
def Ordered : Option Kind → List Token → Prop
  | front, []      => .textEnd ∈ follow front
  | front, t :: ts => t.kind ∈ follow front ∧ t.kind.lead ≠ .none ∧ Ordered (some t.kind) ts

section

variable {front : Option Kind} {k : Kind} {behind ahead s w rest : List Char} {offset n : Nat}
  {rule : String × Rule} {t : Token} {ts : List Token} {g : Grammar} {m : Match} {ms : List Match}

namespace Token

theorem spells (t : Token) (h : t.kind.lead ≠ .none) : t.kind.pattern.Spells t.text.toList :=
  (Pattern.accepts_iff <| Kind.unanchored_of_lead t.kind h).mp t.spelled

end Token

theorem lexeme_of_match (offset : Nat) (hb : Between front behind ahead) (hr : rule ∈ rules)
    (h : (Grammar.mk rules).first? behind ahead = some (rule, n)) :
    0 < n ∧ n ≤ ahead.length ∧
      Lexeme front (Match.of rule offset (ahead.take n)).kind (ahead.take n) (ahead.drop n) := by
  obtain ⟨_, _, _, hm, _⟩ := Grammar.first?_eq_some h
  obtain ⟨_, l, hl, hm⟩ := Rule.match?_eq_some hm
  have hu := Kind.unanchored_of_lead l (after_eq rule hr l hl).right
  obtain ⟨hn, hle, hw, _⟩ := Rule.length?_eq_some hu hm
  have accepts_iff {k : Kind} (hk : k ∈ rule.2.identity) :
      k.accepts (.ofList <| ahead.take n) ↔ k.pattern.Spells (ahead.take n) := by
    rw [Kind.accepts, String.toList_ofList]
    exact Pattern.accepts_iff (Kind.unanchored_of_lead k (after_eq rule hr k hk).right)
  have hf : (rule.2.identity.find? (·.accepts <| .ofList <| ahead.take n)).isSome :=
    List.find?_isSome.mpr ⟨l, hl, (accepts_iff hl).mpr hw⟩
  obtain ⟨k, hk⟩ := Option.isSome_iff_exists.mp hf
  have hm : (Match.of rule offset (ahead.take n)).kind = k := by rw [Match.kind]; exact hk ▸ rfl
  have hi := List.mem_of_find?_eq_some hk
  have ha := List.find?_some (p := fun l : Kind => l.accepts <| .ofList <| ahead.take n) hk
  exact ⟨hn, hle, hm ▸ lexeme_of_first? hb hr h hi ((accepts_iff hi).mp ha)⟩

theorem lexeme_of_ordered (h : Ordered front (t :: ts)) :
    Lexeme front t.kind t.text.toList (spelling ts) := by
  have ⟨hf, hn, ho⟩ := h
  refine ⟨hf, hn, t.spells hn, List.any_eq_true.mpr ?_⟩
  cases ts
  case nil       => exact ⟨.textEnd, ho, rfl⟩
  case cons u ts =>
    have ⟨hu, hn, _⟩ := ho
    exact ⟨u.kind, hu, (Pattern.opens_iff <| Kind.unanchored_of_lead _ hn).mpr
      ⟨u.text.toList, spelling ts, u.spells hn, rfl⟩⟩

theorem exists_cons_of_ordered (h : Ordered front (t :: ts)) :
    ∃ c s, spelling (t :: ts) = c :: s ∧ Lead.of c = t.kind.lead := by
  have ⟨c, w, hw, hc⟩ := Kind.exists_cons_of_spells h.right.left (t.spells h.right.left)
  exact ⟨c, w ++ spelling ts, by rw [spelling_cons, hw]; rfl, hc⟩

theorem divide_of_ordered (hb : Between front behind (spelling ts)) (ho : Ordered front ts)
    (hl : Laid offset ts) :
    ((Grammar.mk rules).divide offset behind (spelling ts)).mapM Match.token = .ok ts := by
  induction ts generalizing front behind offset
  case nil          => rw [spelling, List.flatMap_nil, Grammar.divide]; rfl
  case cons t ts hi =>
    have hx := lexeme_of_ordered ho
    rw [spelling_cons] at hb ⊢
    obtain ⟨r, hr, _, hm⟩ := hx.exists_match? hb
    obtain ⟨r, hr, n, hf⟩ := Grammar.first?_of_match? (g := ⟨rules⟩) hr hm
    obtain ⟨hn, hle, hy⟩ := lexeme_of_match offset hb hr hf
    obtain ⟨hk, hw⟩ := hy.unique hx (List.take_append_drop _ _)
    have hd : (t.text.toList ++ spelling ts).drop n = spelling ts :=
      List.append_cancel_left <| (hw ▸ List.take_append_drop n (t.text.toList ++ spelling ts))
    have ht : (Match.of r offset t.text.toList).token = .ok t := by
      rw [hw] at hk
      refine Token.make_eq_ok.mpr ⟨hk.symm, by simp [Match.of], ?_⟩
      simp [Match.of, hl.left]
    have hs : (Match.of r offset t.text.toList).span.stop = t.span.stop := by
      simp [Match.of, hl.left]
    have hts : ((Grammar.mk rules).divide t.span.stop (t.text.toList.reverse ++ behind)
        (spelling ts)).mapM Match.token = .ok ts := hi hx.between ho.right.right hl.right
    rw [Grammar.divide_of_first? hf hn hle, hw, hd, hs, List.mapM_cons, ht, hts]
    rfl

theorem Between.textEnd_mem_follow (hb : Between front behind []) : .textEnd ∈ follow front := by
  cases hb
  case start       => decide
  case after _ _ h => exact (h.cases.resolve_right (by simp)).right

-- Matches with the tokens that are made of them, behind a kind or at the beginning of a text. The
-- kinds may follow one another, up to something that is not recognized.
inductive Linked : Option Kind → List Match → List Token → Prop
  | done {f} : .textEnd ∈ follow f → Linked f [] []
  | stray {f m t} : t.kind = .anything → Linked f [m] [t]
  | next {f m t r ms ts} : t.kind ∈ follow f → t.kind.lead ≠ .none → m.token = .ok t →
      (m.rule, r) ∈ rules → r.after = follow (some t.kind) → Linked (some t.kind) ms ts →
      Linked f (m :: ms) (t :: ts)

theorem linked_of_divides (h : (Grammar.mk rules).Divides offset behind ahead ms)
    (hb : Between front behind ahead) (hl : '\n' ∉ ahead) (hts : ms.mapM Match.token = .ok ts) :
    Linked front ms ts := by
  induction h generalizing front ts
  case done =>
    cases hts
    exact .done hb.textEnd_mem_follow
  case pass => exact absurd List.mem_cons_self hl
  case take offset behind w s rule ms hw _ hf hd hi =>
    obtain ⟨t, us, ht, hu, rfl⟩ := Except.mapM_cons_eq_ok.mp hts
    have ⟨hk, _, _⟩ := Token.make_eq_ok.mp ht
    have ⟨_, _, hg, hr⟩ : ∃ rule n, (Grammar.mk rules).first? behind (w ++ s) = some (rule, n) ∧ _ :=
      Grammar.exists_first? (by simp [hw]) hl
    cases hf.symm.trans hg
    cases hr
    case inl hr =>
      have ⟨_, _, hx⟩ := lexeme_of_match offset hb hr hf
      rw [List.take_left, List.drop_left] at hx
      have hm := Match.kind_mem (m := .of rule offset w) fun he => hx.lead (he ▸ rfl)
      rw [← hk] at hx hm
      exact .next hx.follows hx.lead ht hr (after_eq rule hr t.kind hm).left <|
        hi hx.between (fun hc => hl (List.mem_append_right w hc)) hu
    case inr hr =>
      have hs : s = [] := by simpa using hr.right
      subst hs
      rw [hd.eq_nil] at hu ⊢
      cases hu
      refine .stray ?_
      rw [hk, hr.left]
      simp only [Match.kind, Match.of, Rule.catchAll, List.find?]
      split <;> rfl

theorem Linked.ordered (h : Linked front ms ts) (hr : ∀ t ∈ ts, t.kind ≠ .anything) :
    Ordered front ts := by
  induction h
  case done h                => exact h
  case stray h               => exact absurd h (hr _ List.mem_cons_self)
  case next hf hn _ _ _ _ hi => exact ⟨hf, hn, hi fun t ht => hr t (List.mem_cons_of_mem _ ht)⟩

theorem laid_of_divides (h : g.Divides offset behind ahead ms) (hl : '\n' ∉ ahead)
    (hts : ms.mapM Match.token = .ok ts) : Laid offset ts ∧ spelling ts = ahead := by
  induction h generalizing ts
  case done =>
    cases hts
    exact ⟨trivial, rfl⟩
  case pass => exact absurd List.mem_cons_self hl
  case take offset behind w s rule ms _ _ _ _ hi =>
    obtain ⟨t, us, ht, hu, rfl⟩ := Except.mapM_cons_eq_ok.mp hts
    have ⟨_, ht, hs⟩ := Token.make_eq_ok.mp ht
    have ⟨hd, hw⟩ := hi (fun hc => hl (List.mem_append_right w hc)) hu
    refine ⟨⟨by rw [hs, ht]; rfl, hs ▸ hd⟩, ?_⟩
    rw [spelling_cons, hw, ht, Match.of, String.toList_ofList]

theorem ordered_of_divide (hb : Between front behind ahead) (hl : '\n' ∉ ahead)
    (h : ((Grammar.mk rules).divide offset behind ahead).mapM Match.token = .ok ts)
    (hr : ∀ t ∈ ts, t.kind ≠ .anything) :
    Ordered front ts ∧ Laid offset ts ∧ spelling ts = ahead :=
  have hd := Grammar.divides ⟨rules⟩ offset behind ahead
  ⟨(linked_of_divides hd hb hl h).ordered hr, laid_of_divides hd hl h⟩

theorem lead_of_mem (ho : Ordered front ts) (ht : t ∈ ts) : t.kind.lead ≠ .none := by
  induction ts generalizing front
  case nil          => contradiction
  case cons u ts hi =>
    cases ht
    case head     => exact ho.right.left
    case tail hts => exact hi ho.right.right hts

theorem Lexer.tokenize_iff (hl : '\n' ∉ s) :
    (Lexer.standard.tokenize s = .ok ts ∧ ∀ t ∈ ts, t.kind ≠ .anything) ↔
      Ordered none ts ∧ Laid 0 ts ∧ spelling ts = s := by
  constructor
  · exact fun ⟨h, hr⟩ => ordered_of_divide .start hl h hr
  · rintro ⟨ho, hd, rfl⟩
    exact ⟨divide_of_ordered .start ho hd, fun t ht hk => lead_of_mem ho ht (hk ▸ rfl)⟩

theorem Checks.recognized_iff : recognized ts = .ok () ↔ ∀ t ∈ ts, t.kind ≠ .anything := by
  rw [recognized]
  split
  case h_1 t h =>
    have hk := List.find?_some h
    simp only [reduceCtorEq, false_iff]
    exact fun hn => hn t (List.mem_of_find?_eq_some h) (of_decide_eq_true hk)
  case h_2 h => simpa using h

theorem Lexer.parse_iff {expression : String} :
    Lexer.standard.parse expression = .ok ts ↔ (Ordered none ts ∧ Laid 0 ts ∧
      spelling ts = Text.stripped expression.toList) ∧ Separators.check ts = .ok () := by
  rw [← tokenize_iff Text.not_mem_stripped, ← Checks.recognized_iff, Lexer.parse]
  simp only [Except.bind_eq_ok, Lexer.standard, Checks.standard, List.forM_eq_forM,
    List.forM_cons, List.forM_nil]
  constructor
  · rintro ⟨us, hu, ⟨⟩, ⟨⟨⟩, hr, ⟨⟩, hs, _⟩, ⟨⟩⟩
    exact ⟨⟨hu, hr⟩, hs⟩
  · rintro ⟨⟨hu, hr⟩, hs⟩
    exact ⟨ts, hu, ⟨⟩, ⟨⟨⟩, hr, ⟨⟩, hs, rfl⟩, rfl⟩

end

end Reckoner
