import Reckoner.Lexer
import Reckoner.Proofs.Extent
import Reckoner.Proofs.Outcome

namespace Reckoner

namespace Text

variable {c : Char} {s u : List Char}

def width (s : List Char) : Nat :=
  (String.ofList s).utf8ByteSize

theorem width_append : width (s ++ u) = width s + width u := by
  rw [width, String.ofList_append, String.utf8ByteSize_append]
  rfl

theorem width_cons : width (c :: s) = c.utf8Size + width s := by
  rw [width, String.ofList_cons, String.utf8ByteSize_append, String.utf8ByteSize_singleton]
  rfl

theorem width_pos (h : s ≠ []) : 0 < width s := by
  have ⟨c, t, hs⟩ := List.exists_cons_of_ne_nil h
  rw [hs, width_cons]
  exact Nat.add_pos_left c.utf8Size_pos _

theorem not_mem_stripped : '\n' ∉ stripped s :=
  fun h => absurd (List.mem_filter.mp h).right (by decide)

end Text

open Text (width)

def spelling (ts : List Token) : List Char :=
  ts.flatMap (·.text.toList)

theorem spelling_cons {t : Token} {ts : List Token} :
    spelling (t :: ts) = t.text.toList ++ spelling ts :=
  List.flatMap_cons

theorem Token.make_eq_ok {k : Kind} {text : String} {span : Span} {t : Token} :
    make k text span = .ok t ↔ t.kind = k ∧ t.text = text ∧ t.span = span := by
  rw [make]
  split
  case isTrue h =>
    rw [Except.ok.injEq]
    constructor
    · rintro rfl
      exact ⟨rfl, rfl, rfl⟩
    · rintro ⟨rfl, rfl, rfl⟩
      rfl
  case isFalse h =>
    simp only [reduceCtorEq, false_iff]
    rintro ⟨rfl, rfl, -⟩
    exact h t.spelled

def Span.Tile : Nat → List Span → Nat → Prop
  | start, [],           stop => start = stop
  | start, span :: rest, stop => span.start = start ∧ start < span.stop ∧ Tile span.stop rest stop

def Match.of (rule : String × Rule) (offset : Nat) (lexeme : List Char) : Match :=
  let text := String.ofList lexeme
  ⟨rule.1, rule.2.identity, text, ⟨offset, offset + text.utf8ByteSize⟩⟩

theorem Kind.not_mem_of_spells {k : Kind} {w : List Char} (h : k.pattern.Spells w) : '\n' ∉ w := by
  intro hc
  have hm := Pattern.mentions_of_spells h hc
  rw [(by decide : ∀ k : Kind, k.pattern.mentions '\n' = false) k] at hm
  contradiction

theorem Match.kind_mem {m : Match} (h : m.kind ≠ .anything) : m.kind ∈ m.identity := by
  rw [Match.kind] at h ⊢
  cases hf : m.identity.find? (·.accepts m.text)
  case none   => exact absurd (by rw [hf]; rfl) h
  case some k => exact List.mem_of_find?_eq_some hf

theorem Match.exists_token (rule : String × Rule) (offset : Nat) {w : List Char} (hw : w ≠ [])
    (hl : '\n' ∉ w) : ∃ t, (Match.of rule offset w).token = .ok t := by
  have ha : (Match.of rule offset w).kind.accepts (.ofList w) := by
    rw [Match.kind]
    cases hf : (Match.of rule offset w).identity.find? (·.accepts (.ofList w))
    case some k => exact hf ▸ List.find?_some (p := fun l : Kind => l.accepts (.ofList w)) hf
    case none   =>
      have ha : Kind.anything.accepts (.ofList w) := by
        rw [Kind.accepts, String.toList_ofList]
        exact (Pattern.accepts_iff rfl).mpr (Kind.spells_anything.mpr ⟨hw, hl⟩)
      exact hf ▸ ha
  exact ⟨_, dif_pos ha⟩

namespace Grammar

-- How a grammar divides a text: at each place the first rule that can takes something, and only
-- line breaks are passed over.
inductive Divides (g : Grammar) : Nat → List Char → List Char → List Match → Prop
  | done {offset behind} : Divides g offset behind [] []
  | pass {offset behind s ms} : Divides g (offset + 1) ('\n' :: behind) s ms →
      Divides g offset behind ('\n' :: s) ms
  | take {offset behind w s rule ms} : w ≠ [] → '\n' ∉ w →
      g.first? behind (w ++ s) = some (rule, w.length) →
      Divides g (offset + width w) (w.reverse ++ behind) s ms →
      Divides g offset behind (w ++ s) (.of rule offset w :: ms)

variable {g : Grammar} {offset n : Nat} {behind ahead s : List Char} {rule : String × Rule}
  {c : Char} {m : Match} {ms before after : List Match}

theorem divide_of_first? (h : g.first? behind ahead = some (rule, n)) (hn : 0 < n)
    (hb : n ≤ ahead.length) :
    g.divide offset behind ahead = .of rule offset (ahead.take n) ::
      g.divide (Match.of rule offset (ahead.take n)).span.stop ((ahead.take n).reverse ++ behind)
        (ahead.drop n) := by
  cases ahead
  case nil      => exact absurd (Nat.lt_of_lt_of_le hn hb) (Nat.lt_irrefl 0)
  case cons c s =>
    have ⟨m, hm⟩ := Nat.exists_eq_add_one.mpr hn
    subst hm
    rw [divide, h]
    rfl

theorem bounds_of_first? (h : g.first? behind ahead = some (rule, n)) :
    0 < n ∧ n ≤ ahead.length ∧ '\n' ∉ ahead.take n := by
  have ⟨_, _, _, hm, _⟩ := first?_eq_some h
  have ⟨_, k, _, hk⟩ := Rule.match?_eq_some hm
  have ⟨hp, hb, hw, _⟩ := Rule.length?_eq_some (Rule.unanchored_of_length? hk) hk
  exact ⟨hp, hb, Kind.not_mem_of_spells hw⟩

theorem first?_newline : g.first? behind ('\n' :: s) = none := by
  cases h : g.first? behind ('\n' :: s)
  case none   => rfl
  case some t =>
    have ⟨hp, _, hn⟩ := bounds_of_first? h
    have ⟨n, he⟩ := Nat.exists_eq_add_one.mpr hp
    rw [he, List.take_succ_cons] at hn
    exact absurd List.mem_cons_self hn

theorem first?_isSome (g : Grammar) (behind s : List Char) (h : c ≠ '\n') :
    (g.first? behind (c :: s)).isSome := by
  have hw : Kind.anything.pattern.Spells [c] :=
    Kind.spells_anything.mpr ⟨List.cons_ne_nil c [], fun hc => h (List.mem_singleton.mp hc).symm⟩
  have ha : Rule.catchAll.Admits .anything (c :: s) 1 :=
    ⟨Nat.one_pos, Nat.succ_le_succ (Nat.zero_le _), hw, .inl rfl⟩
  obtain ⟨n, hn, _⟩ := ha.le_length? (List.not_mem_nil)
  have hm : (Rule.catchAll.match? behind (c :: s)).isSome :=
    Rule.match?_isSome rfl (List.mem_singleton_self Kind.anything) hn
  refine List.findSome?_isSome_iff.mpr ⟨(reserved, .catchAll), ?_, by simpa using hm⟩
  exact List.mem_append_right _ (List.mem_singleton_self _)

theorem divide_newline : g.divide offset behind ('\n' :: s) =
    g.divide (offset + 1) ('\n' :: behind) s := by
  rw [divide, first?_newline]
  rfl

theorem divides (g : Grammar) (offset : Nat) (behind ahead : List Char) :
    g.Divides offset behind ahead (g.divide offset behind ahead) := by
  cases ahead
  case nil =>
    rw [divide]
    exact .done
  case cons c s =>
    by_cases hc : c = '\n'
    case pos =>
      subst hc
      rw [divide_newline]
      exact .pass (g.divides _ _ s)
    case neg =>
      obtain ⟨⟨rule, n⟩, hf⟩ := Option.isSome_iff_exists.mp (g.first?_isSome behind s hc)
      obtain ⟨hp, hb, hl⟩ := bounds_of_first? hf
      have hw : (List.take n (c :: s)).length = n := List.length_take_of_le hb
      rw [divide_of_first? hf hp hb]
      have hd := g.divides (offset + width (List.take n (c :: s)))
        ((List.take n (c :: s)).reverse ++ behind) (List.drop n (c :: s))
      have ht := Divides.take (List.ne_nil_of_length_pos (by omega)) hl
        (by rw [List.take_append_drop, hw]; exact hf) hd
      rwa [List.take_append_drop] at ht
termination_by ahead.length
decreasing_by all_goals (simp; try omega)

namespace Divides

theorem eq_divide (h : g.Divides offset behind ahead ms) : ms = g.divide offset behind ahead := by
  induction h
  case done    => rw [divide]
  case pass hi => rw [divide_newline, hi]
  case take hw _ hf _ hi =>
    rw [divide_of_first? hf (List.length_pos_iff.mpr hw) (by simp), List.take_left, List.drop_left,
      hi]
    rfl

theorem eq_nil (h : g.Divides offset behind [] ms) : ms = [] := by
  generalize ha : [] = ahead at h
  cases h
  case done => rfl
  case pass => contradiction
  case take hw _ _ _ => exact absurd (List.append_eq_nil_iff.mp ha.symm).left hw

variable (h : g.Divides offset behind ahead ms)

include h

theorem sliced (hm : m ∈ ms) : m.text ≠ "" ∧ '\n' ∉ m.text.toList ∧
    ∃ u v, ahead = u ++ m.text.toList ++ v ∧
      m.span = ⟨offset + width u, offset + width (u ++ m.text.toList)⟩ := by
  induction h
  case done => contradiction
  case pass offset behind s ms _ hi =>
    have ⟨hn, hl, u, v, hs, hp⟩ := hi hm
    refine ⟨hn, hl, '\n' :: u, v, by rw [hs]; rfl, ?_⟩
    rw [hp, List.cons_append, Text.width_cons, Text.width_cons, ← Nat.add_assoc, ← Nat.add_assoc]
    rfl
  case take offset behind w s rule ms hw hl _ _ hi =>
    cases hm
    case head =>
      have ht : (Match.of rule offset w).text.toList = w := String.toList_ofList
      rw [ht]
      exact ⟨fun he => hw (by rw [← ht, he, String.toList_empty]), hl, [], s, rfl, rfl⟩
    case tail hm =>
      have ⟨hn, hl, u, v, hs, hp⟩ := hi hm
      refine ⟨hn, hl, w ++ u, v, by simp [hs], ?_⟩
      simp only [hp, List.append_assoc, Text.width_append, Nat.add_assoc]

theorem start_le (hm : m ∈ ms) : offset ≤ m.span.start := by
  have ⟨_, _, _, _, _, hp⟩ := h.sliced hm
  rw [hp]
  exact Nat.le_add_right _ _

theorem ordered : ms.Pairwise fun m m' => m.span.stop ≤ m'.span.start := by
  induction h
  case done       => exact .nil
  case pass hi    => exact hi
  case take hd hi => exact .cons (fun m hm => hd.start_le hm) hi

theorem covering {u v : List Char} (hs : ahead = u ++ c :: v) (hc : c ≠ '\n') :
    ∃ m ∈ ms, m.span.start ≤ offset + width u ∧ offset + width u < m.span.stop := by
  induction h generalizing u
  case done => simp at hs
  case pass offset behind s ms _ hi =>
    cases u
    case nil      => exact absurd (List.cons.inj hs).left.symm hc
    case cons d u =>
      have ⟨hd, hs⟩ := List.cons.inj hs
      have ⟨m, hm, hp⟩ := hi hs
      refine ⟨m, hm, ?_⟩
      rw [← hd, Text.width_cons, ← Nat.add_assoc]
      exact hp
  case take offset behind w s rule ms _ _ _ _ hi =>
    have hu : u ++ [c] <+: w ++ s := ⟨v, by simp [hs]⟩
    by_cases hl : w.length ≤ u.length
    case pos =>
      have ⟨x, hx⟩ := List.prefix_of_prefix_length_le (List.prefix_append w s)
        ((List.prefix_append u [c]).trans hu) hl
      rw [← hx, List.append_assoc, List.append_cancel_left_eq] at hs
      have ⟨m, hm, hp⟩ := hi hs
      refine ⟨m, List.mem_cons_of_mem _ hm, ?_⟩
      rwa [← hx, Text.width_append, ← Nat.add_assoc]
    case neg =>
      have ⟨x, hx⟩ := List.prefix_of_prefix_length_le hu (List.prefix_append w s)
        (by rw [List.length_append, List.length_singleton]; omega)
      refine ⟨_, List.mem_cons_self, Nat.le_add_right _ _, Nat.add_lt_add_left ?_ offset⟩
      change width u < width w
      rw [← hx, List.append_assoc, Text.width_append]
      exact Nat.lt_add_of_pos_right <| Text.width_pos <| List.cons_ne_nil c x

theorem joined : ms.flatMap (·.text.toList) = ahead.filter (· ≠ '\n') := by
  induction h
  case done    => rfl
  case pass hi => simpa using hi
  case take offset behind w s rule ms _ hl _ _ hi =>
    have hw : w.filter (· ≠ '\n') = w :=
      List.filter_eq_self.mpr fun c hc => decide_eq_true fun he => hl (he ▸ hc)
    rw [List.flatMap_cons, hi, List.filter_append, hw]
    simp [Match.of]

theorem last (hl : '\n' ∉ ahead) (hr : reserved ∉ g.names) (hms : ms = before ++ m :: after)
    (hm : m.rule = reserved) : after = [] ∧ m.span.stop = offset + width ahead := by
  induction h generalizing before
  case done => simp at hms
  case pass => exact absurd List.mem_cons_self hl
  case take offset behind w s rule ms hw _ hf hd hi =>
    cases before
    case nil =>
      obtain ⟨he, ha⟩ := List.cons.inj hms
      subst he ha
      have ⟨_, _, hg, hc, _⟩ := first?_eq_some hf
      have hrule : rule ∈ g.full := by simp [hg]
      cases List.mem_append.mp hrule
      case inl hrule => exact absurd (List.mem_map.mpr ⟨rule, hrule, hm⟩) hr
      case inr hrule =>
        cases List.mem_singleton.mp hrule
        have hn : w ++ s ≠ [] := by simp [hw]
        rw [Rule.catchAll_match? behind hn hl, Option.some.injEq, List.length_append] at hc
        have hs : s = [] := List.eq_nil_of_length_eq_zero (by omega)
        subst hs
        rw [List.append_nil]
        rw [hd.eq_nil]
        exact ⟨rfl, rfl⟩
    case cons x before =>
      have ⟨_, hms⟩ := List.cons.inj hms
      have ⟨ha, hs⟩ := hi (fun hc => hl (List.mem_append_right w hc)) hms
      exact ⟨ha, by rw [hs, Text.width_append, Nat.add_assoc]⟩

theorem exists_tokens : ∃ ts, ms.mapM Match.token = .ok ts ∧ ts.map (·.kind) = ms.map Match.kind ∧
    ts.map (·.text) = ms.map (·.text) ∧ ts.map (·.span) = ms.map (·.span) := by
  induction h
  case done    => exact ⟨[], rfl, rfl, rfl, rfl⟩
  case pass hi => exact hi
  case take offset behind w s rule ms hw hl _ _ hi =>
    have ⟨ts, hts, hk, ht, hs⟩ := hi
    have ⟨t, hm⟩ := Match.exists_token rule offset hw hl
    have ⟨hmk, hmt, hms⟩ := Token.make_eq_ok.mp hm
    refine ⟨t :: ts, by rw [List.mapM_cons, hm, hts]; rfl, ?_, ?_, ?_⟩
    · rw [List.map_cons, List.map_cons, hmk, hk]
    · rw [List.map_cons, List.map_cons, hmt, ht]
    · rw [List.map_cons, List.map_cons, hms, hs]

-- A grammar that takes the same parts of a text as another, as the same tokens, makes the same of it.
theorem tokens_of_first? {g' : Grammar} {ts : List Token} (hts : ms.mapM Match.token = .ok ts)
    (hf : ∀ offset behind w rest rule, ∀ t ∈ ts,
      w ≠ [] → g.first? behind (w ++ rest) = some (rule, w.length) →
      (Match.of rule offset w).token = .ok t →
      ∃ rule', g'.first? behind (w ++ rest) = some (rule', w.length) ∧
        (Match.of rule' offset w).token = .ok t) :
    (g'.divide offset behind ahead).mapM Match.token = .ok ts := by
  induction h generalizing ts
  case done    => rwa [divide]
  case pass hi => rw [divide_newline]; exact hi hts hf
  case take offset behind w s rule ms hw _ hrule _ hi =>
    obtain ⟨t, us, ht, hu, rfl⟩ := Except.mapM_cons_eq_ok.mp hts
    obtain ⟨rule', hrule', ht'⟩ := hf offset behind w s rule t List.mem_cons_self hw hrule ht
    have hus := hi hu fun o b v r rule u hu => hf o b v r rule u (List.mem_cons_of_mem _ hu)
    rw [divide_of_first? hrule' (List.length_pos_iff.mpr hw) (by simp), List.take_left,
      List.drop_left]
    exact Except.mapM_cons_eq_ok.mpr ⟨t, us, ht', hus, rfl⟩

theorem tile (hl : '\n' ∉ ahead) :
    Span.Tile offset (ms.map (·.span)) (offset + width ahead) := by
  induction h
  case done => rfl
  case pass => exact absurd List.mem_cons_self hl
  case take offset behind w s rule ms hw _ _ _ hi =>
    have hs := hi fun hc => hl (List.mem_append_right w hc)
    rw [Nat.add_assoc, ← Text.width_append] at hs
    exact ⟨rfl, Nat.lt_add_of_pos_right (Text.width_pos hw), hs⟩

end Divides

-- Matches that leave nothing of a text but its line breaks.
structure Lossless (s : List Char) (ms : List Match) : Prop where
  nonempty : ∀ m ∈ ms, m.text ≠ ""
  unbroken : ∀ m ∈ ms, '\n' ∉ m.text.toList
  sliced   : ∀ m ∈ ms, ∃ u v, s = u ++ m.text.toList ++ v ∧
               m.span = ⟨width u, width (u ++ m.text.toList)⟩
  ordered  : ms.Pairwise fun m m' => m.span.stop ≤ m'.span.start
  covering : ∀ u c v, s = u ++ c :: v → c ≠ '\n' →
               ∃ m ∈ ms, m.span.start ≤ width u ∧ width u < m.span.stop
  joined   : ms.flatMap (·.text.toList) = s.filter (· ≠ '\n')

theorem lossless_find (g : Grammar) (s : List Char) : Lossless s (g.find s) where
  nonempty _ hm       := ((g.divides 0 [] s).sliced hm).left
  unbroken _ hm       := ((g.divides 0 [] s).sliced hm).right.left
  sliced _ hm         := by simpa using ((g.divides 0 [] s).sliced hm).right.right
  ordered             := (g.divides 0 [] s).ordered
  covering _ _ _ hs h := by simpa [find] using (g.divides 0 [] s).covering hs h
  joined              := (g.divides 0 [] s).joined

theorem reserved_not_mem_put {rules : List (String × Rule)} {name : String} {r : Rule}
    (hn : isName name) (h : reserved ∉ rules.map (·.1)) :
    reserved ∉ (put name r rules).map (·.1) := by
  have hr : reserved ≠ name := by
    rintro rfl
    contradiction
  induction rules
  case nil                => simpa [put] using hr
  case cons rule rules hi =>
    rw [List.map_cons, List.mem_cons, not_or] at h
    rw [put]
    split <;> rw [List.map_cons, List.mem_cons, not_or]
    case isTrue  => exact ⟨hr, h.right⟩
    case isFalse => exact ⟨h.left, hi h.right⟩

theorem reserved_not_mem_extend (h : reserved ∉ g.names) (rules : List (String × Rule)) :
    reserved ∉ (g.extend rules).2.names := by
  induction rules generalizing g
  case nil                => exact h
  case cons rule rules hi =>
    rw [extend, insert]
    by_cases hn : isName rule.1
    case pos => rw [if_pos hn]; exact hi (reserved_not_mem_put hn h)
    case neg => rwa [if_neg hn]

-- Whatever its rules are, a grammar loses nothing of a text, what the last rule takes is the end of
-- the text, and every expression is divided into tokens side by side.
theorem find_lossless (g : Grammar) :
    (∀ s, Lossless s (g.find s)) ∧
    (reserved ∉ g.names → ∀ s, '\n' ∉ s → ∀ before m after, g.find s = before ++ m :: after →
      m.rule = reserved → after = [] ∧ m.span.stop = width s) ∧
    ∀ checks (expression : String), ∃ ts,
      (Lexer.mk g checks).tokenize (Text.stripped expression.toList) = .ok ts ∧
      Span.Tile 0 (ts.map (·.span)) (width <| Text.stripped expression.toList) ∧
      ts.map (·.text) = (g.find <| Text.stripped expression.toList).map (·.text) := by
  refine ⟨g.lossless_find, fun hr s hl before m after hm h => ?last,
    fun checks expression => ?tokens⟩
  case last =>
    have hd := (g.divides 0 [] s).last hl hr hm h
    rwa [Nat.zero_add] at hd
  case tokens =>
    have hd := g.divides 0 [] (Text.stripped expression.toList)
    have ⟨ts, hts, _, ht, hs⟩ := hd.exists_tokens
    have hl := hd.tile Text.not_mem_stripped
    rw [Nat.zero_add, ← hs] at hl
    exact ⟨ts, hts, hl, ht⟩

theorem find_lossless_unfinished :
    let g := (empty.extend [("number", ⟨[.number], [], [.binary .add], by decide⟩)]).2
    reserved ∉ g.names ∧ '\n' ∉ ['2', '+', 'é'] ∧
    g.find ['2', '+', 'é'] =
      [⟨"number", [.number], "2", ⟨0, 1⟩⟩] ++ ⟨reserved, [.anything], "+é", ⟨1, 4⟩⟩ :: [] ∧
    width ['2', '+', 'é'] = 4 := by
  intro g
  have hr : reserved ∉ g.names := reserved_not_mem_extend List.not_mem_nil _
  have hl : '\n' ∉ ['2', '+', 'é'] := by decide
  have hf : g.find ['2', '+', 'é'] =
      [⟨"number", [.number], "2", ⟨0, 1⟩⟩] ++ ⟨reserved, [.anything], "+é", ⟨1, 4⟩⟩ :: [] := by
    have hn : g.first? [] ['2', '+', 'é'] =
        some (("number", ⟨[.number], [], [.binary .add], by decide⟩), 1) := by rfl
    have hc : g.first? (['2'].reverse ++ []) ['+', 'é'] = some ((reserved, .catchAll), 2) := by rfl
    rw [find, divide_of_first? hn (by decide) (by decide), List.take_succ_cons, List.take_zero,
      List.drop_succ_cons, List.drop_zero, divide_of_first? hc (by decide) (by decide),
      List.drop_of_length_le (by decide), divide]
    rfl
  exact ⟨hr, hl, hf, ((find_lossless g).right.left hr _ hl _ _ _ hf rfl).right.symm⟩

end Grammar
end Reckoner
