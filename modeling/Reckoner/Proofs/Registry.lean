import Mathlib.Data.List.Induction
import Mathlib.Data.List.TakeWhile
import Reckoner.Proofs.Entries
import Reckoner.Lexer

namespace Reckoner

def Identifier (name : String) : Prop :=
  ∃ c s, name.toList = c :: s ∧ (letter c ∨ c = '_') ∧
    ∀ d ∈ s, letter d ∨ digit d ∨ d = '_'
where
  letter c := 'a' ≤ c ∧ c ≤ 'z' ∨ 'A' ≤ c ∧ c ≤ 'Z'
  digit c  := '0' ≤ c ∧ c ≤ '9'

namespace Grammar

variable {rules : List (String × Rule)} {calls : List (List (String × Rule))} {rule : String × Rule}
  {name : String} {f : Fault}

theorem isName_iff : isName name ↔ name ≠ reserved ∧ Identifier name := by
  have letter (c : Char) : c.isAlpha ↔ Identifier.letter c := by
    delta Char.isAlpha Char.isUpper Char.isLower
    simp [Identifier.letter, Char.le_def, or_comm]
  have digit (c : Char) : c.isDigit ↔ Identifier.digit c := by
    simp [Char.isDigit, Identifier.digit, Char.le_def]
  rw [isName, Identifier]
  cases name.toList
  case nil      => simp
  case cons c s => simp [Char.isAlphanum, letter, digit, or_assoc]

-- What a call that gives rules comes to: the first name that is none is told.
def verdict (rules : List (String × Rule)) : Except Fault Unit :=
  (rules.find? (!isName ·.1)).elim (.ok ()) fun rule => .error <| .ruleName rule.1

-- Rules given one after the other, as an ordered map: names stand in the order in which they came
-- first, each with the rule that came last.
def ofBindings (bindings : List (String × Rule)) : Grammar :=
  ⟨(bindings.map (·.1)).eraseDups.filterMap fun name =>
    (bindings.reverse.lookup name).map (name, ·)⟩

def putAll (bindings rules : List (String × Rule)) : List (String × Rule) :=
  bindings.foldl (fun rules binding => put binding.1 binding.2 rules) rules

theorem extend_eq (g : Grammar) (rules : List (String × Rule)) :
    g.extend rules = (verdict rules, ⟨putAll (rules.takeWhile (isName ·.1)) g.rules⟩) := by
  induction rules generalizing g
  case nil                => rfl
  case cons rule rest hi =>
    rw [extend, insert]
    by_cases hn : isName rule.1
    case pos => simp [hn, hi, verdict, putAll]
    case neg => simp [hn, verdict, putAll]

theorem map_fst_put (name : String) (r : Rule) (rules : List (String × Rule)) :
    (put name r rules).map (·.1) =
      if name ∈ rules.map (·.1) then rules.map (·.1) else rules.map (·.1) ++ [name] := by
  induction rules
  case nil               => rfl
  case cons rule rest hi =>
    rw [put]
    by_cases he : rule.1 = name
    case pos => simp [he]
    case neg =>
      rw [if_neg he, List.map_cons, hi, List.map_cons]
      by_cases hm : name ∈ rest.map (·.1)
      case pos => rw [if_pos hm, if_pos (List.mem_cons_of_mem _ hm)]
      case neg => rw [if_neg hm, if_neg (by simp_all [eq_comm]), List.cons_append]

theorem lookup_put (name other : String) (r : Rule) (rules : List (String × Rule)) :
    (put name r rules).lookup other = if other = name then some r else rules.lookup other := by
  induction rules
  case nil               => simp [put, Entries.lookup_cons]
  case cons rule rest hi =>
    rw [put]
    by_cases he : rule.1 = name
    case pos =>
      rw [if_pos he, Entries.lookup_cons, Entries.lookup_cons, he]
      split <;> rfl
    case neg =>
      rw [if_neg he, Entries.lookup_cons, hi, Entries.lookup_cons]
      split <;> split <;> simp_all

theorem putAll_concat (bindings rules : List (String × Rule)) (name : String) (r : Rule) :
    putAll (bindings ++ [(name, r)]) rules = put name r (putAll bindings rules) := by
  simp [putAll]

theorem eraseDups_concat (names : List String) (name : String) : (names ++ [name]).eraseDups =
    if name ∈ names then names.eraseDups else names.eraseDups ++ [name] := by
  rw [List.eraseDups_append]
  by_cases h : name ∈ names <;> simp [List.removeAll, List.eraseDups_cons, h]

theorem map_fst_putAll (bindings : List (String × Rule)) :
    (putAll bindings []).map (·.1) = (bindings.map (·.1)).eraseDups := by
  induction bindings using List.reverseRecOn
  case nil                     => rfl
  case append_singleton bs b hi =>
    rw [putAll_concat, map_fst_put, hi, List.map_append, List.map_cons, List.map_nil,
      eraseDups_concat]
    simp only [List.mem_eraseDups]

theorem nodup_putAll (bindings : List (String × Rule)) :
    ((putAll bindings []).map (·.1)).Nodup := by
  induction bindings using List.reverseRecOn
  case nil                     => exact List.nodup_nil
  case append_singleton bs b hi =>
    rw [putAll_concat, map_fst_put]
    split
    case isTrue    => exact hi
    case isFalse h =>
      refine List.nodup_append.mpr ⟨hi, List.pairwise_singleton .., ?_⟩
      rintro name hm _ hb rfl
      exact h (List.mem_singleton.mp hb ▸ hm)

theorem lookup_putAll (bindings : List (String × Rule)) (name : String) :
    (putAll bindings []).lookup name = bindings.reverse.lookup name := by
  induction bindings using List.reverseRecOn
  case nil                     => rfl
  case append_singleton bs b hi =>
    rw [putAll_concat, lookup_put, hi, List.reverse_concat, Entries.lookup_cons]

theorem putAll_eq (bindings : List (String × Rule)) :
    putAll bindings [] = (ofBindings bindings).rules := by
  rw [← Entries.filterMap_lookup (nodup_putAll bindings), map_fst_putAll, ofBindings]
  simp only [lookup_putAll]

theorem putAll_ofBindings (bindings rules : List (String × Rule)) :
    putAll rules (ofBindings bindings).rules = (ofBindings (bindings ++ rules)).rules := by
  rw [← putAll_eq, ← putAll_eq, putAll, putAll, putAll, List.foldl_append]

theorem ofBindings_again (bindings rules : List (String × Rule)) :
    ofBindings (bindings ++ rules ++ rules) = ofBindings (bindings ++ rules) := by
  have hn : ((bindings ++ rules ++ rules).map (·.1)).eraseDups =
      ((bindings ++ rules).map (·.1)).eraseDups := by
    have hr : (rules.map (·.1)).removeAll ((bindings ++ rules).map (·.1)) = [] := by
      simp +contextual [List.removeAll, List.filter_eq_nil_iff]
    rw [List.map_append, List.eraseDups_append, hr, List.eraseDups_nil, List.append_nil]
  have hl (name : String) : (bindings ++ rules ++ rules).reverse.lookup name =
      (bindings ++ rules).reverse.lookup name := by
    simp only [List.reverse_append, List.lookup_append]
    rw [← Option.or_assoc, Option.or_self]
  simp only [ofBindings, hn, hl]

theorem names_ofBindings (bindings : List (String × Rule)) :
    (ofBindings bindings).names = (bindings.map (·.1)).eraseDups := by
  rw [names, ← putAll_eq, map_fst_putAll]

theorem nodup_names_ofBindings (bindings : List (String × Rule)) :
    (ofBindings bindings).names.Nodup := by
  rw [names, ← putAll_eq]
  exact nodup_putAll bindings

theorem lookup_ofBindings (bindings : List (String × Rule)) (name : String) :
    (ofBindings bindings).rules.lookup name = bindings.reverse.lookup name := by
  rw [← putAll_eq, lookup_putAll]

theorem verdict_eq_ok : verdict rules = .ok () ↔ ∀ rule ∈ rules, isName rule.1 := by
  rw [verdict]
  cases hf : rules.find? (!isName ·.1)
  case none      => exact iff_of_true rfl (by simpa using hf)
  case some rule =>
    have hm : rule ∈ rules := List.mem_of_find?_eq_some hf
    have hn : !isName rule.1 := List.find?_some (p := fun rule : String × Rule => !isName rule.1) hf
    exact iff_of_false nofun fun h => by simp [h rule hm] at hn

def accepted (calls : List (List (String × Rule))) : List (String × Rule) :=
  (calls.filter fun rules => (verdict rules).isOk).flatten

theorem accepted_cons_of_ok (h : verdict rules = .ok ()) :
    accepted (rules :: calls) = rules ++ accepted calls := by
  rw [accepted, List.filter_cons_of_pos (by rw [h]; rfl), List.flatten_cons, accepted]

theorem accepted_cons_of_error (h : verdict rules = .error f) :
    accepted (rules :: calls) = accepted calls := by
  rw [accepted, List.filter_cons_of_neg (by rw [h]; exact Bool.false_ne_true), accepted]

theorem isName_of_mem_accepted (h : rule ∈ accepted calls) : isName rule.1 := by
  have ⟨rules, hm, hr⟩ := List.mem_flatten.mp h
  have hv := (List.mem_filter.mp hm).right
  cases hc : verdict rules
  case error => rw [hc] at hv; contradiction
  case ok    => exact verdict_eq_ok.mp hc rule hr

def extendAll (g : Grammar) (calls : List (List (String × Rule))) : Grammar :=
  calls.foldl (fun g rules => (g.extend rules).2) g

theorem extendAll_ofBindings (bindings : List (String × Rule))
    (calls : List (List (String × Rule))) : (ofBindings bindings).extendAll calls =
      ofBindings (bindings ++ calls.flatMap (·.takeWhile (isName ·.1))) := by
  induction calls generalizing bindings
  case nil                 => rw [List.flatMap_nil, List.append_nil]; rfl
  case cons rules calls hi =>
    rw [extendAll, List.foldl_cons, extend_eq, putAll_ofBindings, ← extendAll, hi, List.flatMap_cons,
      List.append_assoc]

end Grammar

theorem Lexer.addRules_eq (l : Lexer) (rules : List (String × Rule)) : l.addRules rules =
    (fun _ => { l with grammar := ⟨Grammar.putAll rules l.grammar.rules⟩ }) <$>
      Grammar.verdict rules := by
  rw [addRules, Grammar.extend_eq]
  cases hv : Grammar.verdict rules
  case error => rfl
  case ok    => rw [List.takeWhile_eq_self_iff.mpr (Grammar.verdict_eq_ok.mp hv)]; rfl

namespace Prepared

def setAll (p : Prepared) : List (List (String × Rule)) → List (Except Fault Unit) × Prepared
  | []             => ([], p)
  | rules :: calls =>
    let (reply, p)   := p.setRules rules
    let (replies, p) := p.setAll calls
    (reply :: replies, p)

-- What is kept was compiled from the rules as they are.
def Fresh (p : Prepared) : Prop :=
  ∀ find ∈ p.matcher, find = p.grammar.find

variable {p : Prepared} {rules bindings : List (String × Rule)} {f : Fault}

theorem Fresh.parse (h : p.Fresh) (expression : String) :
    p.parse expression = p.toLexer.parse expression := by
  have hm : p.matcher.getD p.grammar.find = p.grammar.find := by
    cases hm : p.matcher
    case none      => rfl
    case some find => exact h find hm
  rw [Prepared.parse, hm]
  rfl

theorem fresh_new (checks : List Check) : (new checks).Fresh :=
  nofun

theorem fresh_of (l : Lexer) : (of l).Fresh := by
  rintro find ⟨⟩
  rfl

theorem setRules_of_ok (hg : p.grammar = .ofBindings bindings)
    (h : Grammar.verdict rules = .ok ()) : p.setRules rules =
      (.ok (), of ⟨.ofBindings (bindings ++ rules), p.checks⟩) := by
  rw [setRules, Lexer.addRules_eq, h, hg, Grammar.putAll_ofBindings]
  rfl

theorem setRules_of_error (h : Grammar.verdict rules = .error f) :
    p.setRules rules = (.error f, p) := by
  rw [setRules, Lexer.addRules_eq, h]
  rfl

theorem setAll_eq (hg : p.grammar = .ofBindings bindings) (hf : p.Fresh)
    (calls : List (List (String × Rule))) :
    (p.setAll calls).1 = calls.map Grammar.verdict ∧
    (p.setAll calls).2.toLexer =
      ⟨.ofBindings (bindings ++ Grammar.accepted calls), p.checks⟩ ∧
    (p.setAll calls).2.Fresh := by
  induction calls generalizing p bindings
  case nil                 =>
    have ha : bindings ++ Grammar.accepted [] = bindings := List.append_nil bindings
    exact ⟨rfl, by rw [setAll, ha, ← hg], hf⟩
  case cons rules calls hi =>
    rw [setAll, List.map_cons]
    cases hv : Grammar.verdict rules
    case error f =>
      obtain ⟨hr, hl, hm⟩ := hi hg hf
      rw [setRules_of_error hv, Grammar.accepted_cons_of_error hv]
      exact ⟨congrArg _ hr, hl, hm⟩
    case ok =>
      rw [setRules_of_ok hg hv, Grammar.accepted_cons_of_ok hv, ← List.append_assoc]
      obtain ⟨hr, hl, hm⟩ :=
        hi (p := of ⟨.ofBindings (bindings ++ rules), p.checks⟩) rfl (fresh_of _)
      exact ⟨congrArg _ hr, hl, hm⟩

structure Registered (checks : List Check) (calls : List (List (String × Rule)))
    (replies : List (Except Fault Unit)) (p : Prepared) : Prop where
  replies : replies = calls.map Grammar.verdict
  lexer   : p.toLexer = ⟨.ofBindings (Grammar.accepted calls), checks⟩
  order   : p.grammar.names = ((Grammar.accepted calls).map (·.1)).eraseDups
  latest  : ∀ name, p.grammar.rules.lookup name =
    (Grammar.accepted calls).reverse.lookup name
  once    : p.grammar.names.Nodup
  named   : ∀ name ∈ p.grammar.names, name ≠ Grammar.reserved ∧ Identifier name
  again   : ∀ rules q, p.setRules rules = (.ok (), q) → q.setRules rules = (.ok (), q)
  parses  : ∀ expression, p.parse expression =
    (Lexer.mk (.ofBindings (Grammar.accepted calls)) checks).parse expression

theorem setRules_again (hg : p.grammar = .ofBindings bindings) {q : Prepared}
    (h : p.setRules rules = (.ok (), q)) : q.setRules rules = (.ok (), q) := by
  cases hv : Grammar.verdict rules
  case error f =>
    rw [setRules_of_error hv] at h
    exact absurd (congrArg Prod.fst h) nofun
  case ok =>
    rw [setRules_of_ok hg hv] at h
    obtain ⟨-, rfl⟩ := Prod.mk.inj h
    rw [setRules_of_ok rfl hv, Grammar.ofBindings_again]
    rfl

theorem registered (checks : List Check) (calls : List (List (String × Rule))) :
    Registered checks calls ((new checks).setAll calls).1 ((new checks).setAll calls).2 := by
  have hn : (new checks).grammar = .ofBindings [] := rfl
  have ⟨hr, hl, hf⟩ := setAll_eq hn (fresh_new checks) calls
  have hg : ((new checks).setAll calls).2.grammar =
      .ofBindings (Grammar.accepted calls) :=
    congrArg Lexer.grammar hl
  refine ⟨hr, hl, ?order, ?latest, ?once, ?named, fun _ _ => setRules_again hg, ?parses⟩
  case order  => rw [hg, Grammar.names_ofBindings]
  case latest => exact fun name => by rw [hg, Grammar.lookup_ofBindings]
  case once   => exact hg ▸ Grammar.nodup_names_ofBindings _
  case named  =>
    intro name hm
    rw [hg, Grammar.names_ofBindings, List.mem_eraseDups] at hm
    have ⟨rule, hr, he⟩ := List.mem_map.mp hm
    exact he ▸ Grammar.isName_iff.mp (Grammar.isName_of_mem_accepted hr)
  case parses =>
    intro expression
    rw [hf.parse, hl]
    rfl

-- Of calls that give rules to a lexer, those that name every rule well are made good, and no other.
-- Of rules that are given to a grammar, those in front of the first bad name are.
theorem setAll_registers (checks : List Check) (calls : List (List (String × Rule))) :
    Registered checks calls ((new checks).setAll calls).1 ((new checks).setAll calls).2 ∧
    (∀ (g : Grammar) (rules), (g.extend rules).1 = Grammar.verdict rules) ∧
    Grammar.empty.extendAll calls =
      .ofBindings (calls.flatMap (·.takeWhile (Grammar.isName ·.1))) ∧
    ∀ name, Grammar.isName name ↔ name ≠ Grammar.reserved ∧ Identifier name :=
  ⟨registered checks calls, fun g rules => by rw [Grammar.extend_eq],
    Grammar.extendAll_ofBindings [] calls, fun _ => Grammar.isName_iff⟩

end Prepared

namespace Renamed

def operand : Rule :=
  ⟨[.number, .constant .pi], [], [], List.cons_ne_nil _ _⟩

def signed : Rule :=
  ⟨[.unary .negate], [], [.number], List.cons_ne_nil _ _⟩

def calls : List (List (String × Rule)) :=
  [[("value", signed), ("part", operand)], [("part", signed), ("2nd", operand)]]

def last : List (String × Rule) :=
  [("value", operand)]

def lexer : Lexer :=
  ⟨⟨[("value", operand), ("part", operand)]⟩, []⟩

end Renamed

theorem Prepared.setAll_registers_renamed :
    let run := (new []).setAll Renamed.calls
    run.1 = [.ok (), .error (.ruleName "2nd")] ∧
    run.2.setRules Renamed.last = (.ok (), of Renamed.lexer) ∧
    (of Renamed.lexer).setRules Renamed.last = (.ok (), of Renamed.lexer) := by
  intro run
  have h := (setAll_registers [] Renamed.calls).left
  have hl : run.2.setRules Renamed.last = (.ok (), of Renamed.lexer) := by
    rw [setRules_of_ok (congrArg Lexer.grammar h.lexer) rfl, h.lexer]
    rfl
  exact ⟨h.replies, hl, h.again _ _ hl⟩

end Reckoner
