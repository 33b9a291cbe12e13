import Mathlib.Data.List.Basic
import Mathlib.Data.List.Induction
import Mathlib.Data.List.Sort
import Reckoner.Proofs.Ownership

namespace Reckoner

-- The places of the brackets that are open behind some tokens, the last one first. A closing bracket
-- closes the last one, and means nothing where none is open.
def opened (ts : List Token) : List Nat :=
  ts.zipIdx.foldl pair []
where
  pair (places : List Nat) : Token × Nat → List Nat
    | (t, place) => match t.kind with
      | .opening => place :: places
      | .closing => places.tail
      | _        => places

-- Where the separators start that belong to the opening bracket at a place, or to none.
def belonging (ts : List Token) (bracket : Option Nat) : List Nat :=
  ts.zipIdx.filterMap fun (t, place) =>
    if t.kind = .separator ∧ (opened (ts.take place)).head? = bracket then some t.span.start
    else none

namespace Frames

variable {f : Frames} {n p : Nat}

def beyond (f : Frames) (n : Nat) : List Nat :=
  ((f.inner :: f.outer).drop n).flatten

theorem beyond_empty : empty.beyond n = [] := by
  cases n <;> simp [beyond, empty]

theorem beyond_enter : f.enter.beyond n = f.beyond (n - 1) := by
  cases n <;> simp [beyond, enter]

theorem beyond_leave : f.leave.beyond n = f.beyond (n + 1) := by
  have ⟨_, outer⟩ := f
  cases outer <;> cases n <;> simp [beyond, leave]

theorem beyond_add :
    (f.add p).beyond n = match n with | 0 => p :: f.beyond 0 | n + 1 => f.beyond (n + 1) := by
  cases n <;> simp [beyond, add]

end Frames

section

variable {ts rest : List Token} {t : Token} {b d : Nat} {bracket : Option Nat}

theorem opened_concat : opened (ts ++ [t]) = opened.pair (opened ts) (t, ts.length) := by
  simp [opened, List.zipIdx_append]

theorem opened_opening (h : t.kind = .opening) : opened (ts ++ [t]) = ts.length :: opened ts := by
  simp only [opened_concat, opened.pair, h]

theorem opened_closing (h : t.kind = .closing) : opened (ts ++ [t]) = (opened ts).tail := by
  simp only [opened_concat, opened.pair, h]

theorem opened_other (ho : t.kind ≠ .opening) (hc : t.kind ≠ .closing) :
    opened (ts ++ [t]) = opened ts := by
  simp only [opened_concat, opened.pair]

theorem mem_opened_concat (h : b ∈ opened (ts ++ [t])) : b = ts.length ∨ b ∈ opened ts := by
  rw [opened_concat, opened.pair] at h
  split at h
  case h_1 => exact List.mem_cons.mp h
  case h_2 => exact .inr (List.mem_of_mem_tail h)
  case h_3 => exact .inr h

theorem lt_of_mem_opened (h : b ∈ opened ts) : b < ts.length := by
  induction ts using List.reverseRecOn
  case nil                      => contradiction
  case append_singleton ts t hi =>
    rw [List.length_append, List.length_singleton, Nat.lt_succ_iff]
    cases mem_opened_concat h
    case inl h => exact Nat.le_of_eq h
    case inr h => exact Nat.le_of_lt (hi h)

theorem opened_nodup : (opened ts).Nodup := by
  induction ts using List.reverseRecOn
  case nil                      => exact .nil
  case append_singleton ts t hi =>
    rw [opened_concat, opened.pair]
    split
    case h_1 => exact List.nodup_cons.mpr ⟨fun h => Nat.lt_irrefl _ (lt_of_mem_opened h), hi⟩
    case h_2 => exact hi.tail
    case h_3 => exact hi

theorem head?_opened_iff (h : (opened ts)[d]? = some b) : (opened ts).head? = some b ↔ d = 0 := by
  rw [List.head?_eq_getElem?]
  constructor
  case mp  =>
    intro hb
    have hl := (List.getElem?_eq_some_iff.mp h).choose
    exact (List.getElem?_inj hl opened_nodup).mp (h.trans hb.symm)
  case mpr =>
    rintro rfl
    exact h

theorem not_mem_opened_closing (hc : t.kind = .closing) (h : (opened ts).head? = some b) :
    b ∉ opened (ts ++ [t]) := by
  obtain ⟨rest, hb⟩ := List.head?_eq_some_iff.mp h
  rw [opened_closing hc, hb]
  exact (List.nodup_cons.mp (hb ▸ opened_nodup)).left

theorem belonging_concat : belonging (ts ++ [t]) bracket = belonging ts bracket ++
    if t.kind = .separator ∧ (opened ts).head? = bracket then [t.span.start] else [] := by
  have front : ∀ p ∈ ts.zipIdx, (ts ++ [t]).take p.2 = ts.take p.2 := fun p hp =>
    List.take_append_of_le_length <| Nat.le_of_lt <| by simpa using (List.mem_zipIdx hp).right.left
  rw [belonging, List.zipIdx_append, List.filterMap_append, belonging]
  congr 1
  · exact List.filterMap_congr fun p hp => by simp only [front p hp]
  · split <;> simp_all

theorem belonging_concat_other (h : t.kind ≠ .separator) :
    belonging (ts ++ [t]) bracket = belonging ts bracket := by
  rw [belonging_concat, if_neg (h ·.left), List.append_nil]

theorem belonging_eq_nil (h : ts.length ≤ b) : belonging ts (some b) = [] := by
  induction ts using List.reverseRecOn
  case nil                      => rfl
  case append_singleton ts t hi =>
    rw [List.length_append, List.length_singleton] at h
    rw [belonging_concat, hi (Nat.le_of_succ_le h), List.nil_append, if_neg]
    exact fun ⟨_, hb⟩ => absurd (lt_of_mem_opened (List.mem_of_head? hb)) (Nat.not_lt_of_lt h)

theorem belonging_of_closed (hl : b < ts.length) (hb : b ∉ opened ts) :
    belonging (ts ++ rest) (some b) = belonging ts (some b) := by
  induction rest generalizing ts
  case nil            => rw [List.append_nil]
  case cons t rest hi =>
    have hc : b ∉ opened (ts ++ [t]) := fun h => (mem_opened_concat h).elim (Nat.ne_of_lt hl) hb
    rw [List.append_cons, hi (by simpa using Nat.lt_succ_of_lt hl) hc, belonging_concat, if_neg,
      List.append_nil]
    exact fun ⟨_, h⟩ => hb (List.mem_of_head? h)

-- What belongs to an open bracket from here on is told by the tokens that are still to come.
theorem belonging_of_opened (h : (opened ts)[d]? = some b) :
    belonging (ts ++ rest) (some b) = belonging ts (some b) ++ owned rest d := by
  induction rest generalizing ts d
  case nil            => simp [owned]
  case cons t rest hi =>
    rw [List.append_cons]
    cases hk : t.kind
    case opening   =>
      have ho : (opened (ts ++ [t]))[d + 1]? = some b := by rwa [opened_opening hk]
      rw [hi ho, belonging_concat_other (by simp [hk]), owned_opening hk]
    case closing   =>
      have hs : belonging (ts ++ [t]) (some b) = _ := belonging_concat_other (by simp [hk])
      rw [owned_closing hk]
      cases d
      case zero   =>
        have hl := lt_of_mem_opened (List.mem_of_getElem? h)
        have hc := not_mem_opened_closing hk ((head?_opened_iff h).mpr rfl)
        rw [belonging_of_closed (by simpa using Nat.lt_succ_of_lt hl) hc, hs, List.append_nil]
      case succ d =>
        have ho : (opened (ts ++ [t]))[d]? = some b := by
          rwa [opened_closing hk, List.getElem?_tail]
        rw [hi ho, hs]
    case separator =>
      have ho : (opened (ts ++ [t]))[d]? = some b := by
        rwa [opened_other (by simp [hk]) (by simp [hk])]
      rw [hi ho, belonging_concat, owned_separator hk]
      simp only [hk, head?_opened_iff h, true_and]
      cases d <;> simp
    all_goals
      have ho : (opened (ts ++ [t]))[d]? = some b := by
        rwa [opened_other (by simp [hk]) (by simp [hk])]
      rw [hi ho, belonging_concat_other (by simp [hk])]
      rw [owned_other (by simp [hk]) (by simp [hk]) (by simp [hk])]

theorem belonging_bracket (ho : t.kind = .opening) :
    belonging (ts ++ t :: rest) (some ts.length) = owned rest 0 := by
  have hd : (opened (ts ++ [t]))[0]? = some ts.length := by rw [opened_opening ho]; rfl
  rw [List.append_cons, belonging_of_opened hd, belonging_concat_other (by simp [ho]),
    belonging_eq_nil (Nat.le_refl _), List.nil_append]

theorem belonging_none : belonging (ts ++ rest) none =
    belonging ts none ++ (Frames.of rest).beyond (opened ts).length := by
  induction rest generalizing ts
  case nil            =>
    rw [List.append_nil, Frames.of, Frames.beyond_empty, List.append_nil]
  case cons t rest hi =>
    rw [List.append_cons, hi, belonging_concat, List.append_assoc, Frames.of, Frames.read]
    congr 1
    cases hk : t.kind
    case opening   => simp [opened_opening hk, Frames.beyond_leave]
    case closing   => simp [opened_closing hk, Frames.beyond_enter]
    case separator =>
      rw [opened_other (by simp [hk]) (by simp [hk]), Frames.beyond_add]
      cases opened ts <;> simp
    all_goals simp [opened_other, hk]

theorem all_of : (Frames.of ts).all = belonging ts none := by
  have h : belonging ([] ++ ts) none = [] ++ _ := belonging_none
  exact h.symm

end

namespace Separators

-- How many separators may belong to an opening bracket: behind a function one less than the function
-- takes arguments, and elsewhere none.
def Allotted (front : Option Token) (count : Nat) : Prop :=
  match front.bind (·.kind.function?) with
  | some f => f.arity.least - 1 ≤ count ∧ ∀ most ∈ f.arity.most, count ≤ most - 1
  | none   => count = 0

def misuse (front : Option Token) (count : Nat) : Misuse :=
  match front.bind fun t => t.kind.function?.map (t.text, ·) with
  | some (name, f) => .count name f.arity.separators count
  | none           => .outsideFunction

def Offends (ts : List Token) (place : Nat) : Prop :=
  ∃ o ∈ ts[place]?, o.kind = .opening ∧
    ¬Allotted (ts.take place).getLast? (belonging ts (some place)).length

-- What is wrong with separators: the last bracket that offends, or else that some belong to no
-- bracket. The separators in question are told in ascending order.
inductive Told (ts : List Token) : Fault → Prop
  | bracket {place positions} : Offends ts place → (∀ later, place < later → ¬Offends ts later) →
      positions.Perm (belonging ts (some place)) → positions.Pairwise (· ≤ ·) →
      Told ts (.separators (misuse (ts.take place).getLast? positions.length) positions)
  | outside {positions} : (∀ place, ¬Offends ts place) → belonging ts none ≠ [] →
      positions.Perm (belonging ts none) → positions.Pairwise (· ≤ ·) →
      Told ts (.separators .outsideBrackets positions)

section

variable {front : Option Token} {ts before rest : List Token} {t : Token} {positions xs : List Nat}
  {place count : Nat} {m : Misuse} {f : Fault}

instance : Decidable (Allotted front count) :=
  match h : front.bind (·.kind.function?) with
  | some f => decidable_of_iff (f.arity.least - 1 ≤ count ∧ ∀ most ∈ f.arity.most, count ≤ most - 1) <|
    by simp only [Allotted, h]
  | none   => decidable_of_iff (count = 0) <| by simp only [Allotted, h]

instance : Decidable (Offends ts place) :=
  inferInstanceAs <| Decidable (∃ o ∈ ts[place]?, o.kind = .opening ∧
    ¬Allotted (ts.take place).getLast? (belonging ts (some place)).length)

theorem separators_allows {a : Arity} :
    a.separators.allows count ↔ a.least - 1 ≤ count ∧ ∀ most ∈ a.most, count ≤ most - 1 := by
  have ⟨_, most⟩ := a
  cases most <;> simp [Arity.separators, Arity.allows]

theorem checkOwned_eq : checkOwned front positions = if Allotted front positions.length then .ok ()
    else .error <| fault (misuse front positions.length) positions := by
  cases front
  case none   => simp [checkOwned, Allotted, misuse]
  case some t =>
    cases hf : t.kind.function?
    case none   => simp [checkOwned, Allotted, misuse, hf]
    case some g =>
      simp only [checkOwned, Allotted, misuse, hf, Option.bind_some, Option.map_some,
        separators_allows]

def blame (ts : List Token) (place : Nat) : Fault :=
  fault (misuse (ts.take place).getLast? (belonging ts (some place)).length) <|
    belonging ts (some place)

theorem not_offends_of_le (h : ts.length ≤ place) : ¬Offends ts place := by
  rintro ⟨o, ho, _⟩
  rw [List.getElem?_eq_none h] at ho
  contradiction

theorem checkOwned_front (before : List Token) (t : Token) (rest : List Token) :
    (if t.kind = .opening then checkOwned before.getLast? (owned rest 0) else .ok ()) =
      if Offends (before ++ t :: rest) before.length
        then .error <| blame (before ++ t :: rest) before.length else .ok () := by
  have ht : (before ++ t :: rest)[before.length]? = some t := by simp
  by_cases ho : t.kind = .opening
  case neg => simp [Offends, ho]
  case pos => simp [Offends, blame, ho, belonging_bracket ho, checkOwned_eq]

theorem rightmost_cases (before ts : List Token) :
    (rightmost before.getLast? ts = .ok () ∧
      ∀ place, before.length ≤ place → ¬Offends (before ++ ts) place) ∨
    ∃ place, rightmost before.getLast? ts = .error (blame (before ++ ts) place) ∧
      Offends (before ++ ts) place ∧ ∀ later, place < later → ¬Offends (before ++ ts) later := by
  induction ts generalizing before
  case nil          =>
    rw [List.append_nil]
    exact .inl ⟨rfl, fun _ => not_offends_of_le⟩
  case cons t ts hi =>
    have hi := hi (before ++ [t])
    rw [List.getLast?_concat, ← List.append_cons, List.length_append, List.length_singleton] at hi
    rw [rightmost, checkOwned_front]
    rcases hi with ⟨hr, hn⟩ | ⟨place, hr, ho⟩
    case inr => exact .inr ⟨place, by rw [hr]; rfl, ho⟩
    case inl =>
      rw [hr, Except.ok_bind]
      by_cases ho : Offends (before ++ t :: ts) before.length
      case pos => exact .inr ⟨before.length, if_pos ho, ho, hn⟩
      case neg =>
        refine .inl ⟨if_neg ho, fun place hp => ?_⟩
        rcases Nat.eq_or_lt_of_le hp with rfl | hp
        · exact ho
        · exact hn place hp

theorem check_cases (ts : List Token) :
    (check ts = .ok () ∧ (∀ place, ¬Offends ts place) ∧ belonging ts none = []) ∨
    (∃ place, check ts = .error (blame ts place) ∧ Offends ts place ∧
      ∀ later, place < later → ¬Offends ts later) ∨
    (check ts = .error (fault .outsideBrackets (belonging ts none)) ∧
      (∀ place, ¬Offends ts place) ∧ belonging ts none ≠ []) := by
  rw [check_eq]
  rcases rightmost_cases [] ts with ⟨hr, hn⟩ | ⟨place, hr, ho⟩
  case inr => exact .inr <| .inl ⟨place, by rw [show rightmost none ts = _ from hr]; rfl, ho⟩
  case inl =>
    have hn : ∀ place, ¬Offends ts place := fun place => hn place (Nat.zero_le place)
    rw [show rightmost none ts = _ from hr, Except.ok_bind, backwards, all_of]
    by_cases hs : belonging ts none = []
    case pos => exact .inl ⟨by rw [hs]; rfl, hn, hs⟩
    case neg => exact .inr <| .inr ⟨if_neg (by rwa [List.isEmpty_iff]), hn, hs⟩

theorem eq_mergeSort_iff : xs = positions.mergeSort (· ≤ ·) ↔
    xs.Perm positions ∧ xs.Pairwise (· ≤ ·) := by
  have hs := List.pairwise_mergeSort' (· ≤ ·) positions
  have hp := positions.mergeSort_perm (· ≤ ·)
  constructor
  case mp  => exact fun h => h ▸ ⟨hp, hs⟩
  case mpr =>
    exact fun ⟨h, hx⟩ =>
      (h.trans hp.symm).eq_of_pairwise (fun _ _ _ _ => Nat.le_antisymm) hx hs

theorem told_iff : Told ts f ↔
    (∃ place, f = blame ts place ∧ Offends ts place ∧ ∀ later, place < later → ¬Offends ts later) ∨
    (f = fault .outsideBrackets (belonging ts none) ∧ (∀ place, ¬Offends ts place) ∧
      belonging ts none ≠ []) := by
  constructor
  case mp =>
    intro h
    cases h
    case bracket place positions ho hl hp hs =>
      refine .inl ⟨place, ?_, ho, hl⟩
      rw [blame, fault, ← eq_mergeSort_iff.mpr ⟨hp, hs⟩, hp.length_eq]
    case outside positions hn hne hp hs =>
      exact .inr ⟨by rw [fault, ← eq_mergeSort_iff.mpr ⟨hp, hs⟩], hn, hne⟩
  case mpr =>
    rintro (⟨place, rfl, ho, hl⟩ | ⟨rfl, hn, hne⟩)
    case inl =>
      have ⟨hp, hs⟩ := eq_mergeSort_iff.mp <| Eq.refl <|
        (belonging ts (some place)).mergeSort (· ≤ ·)
      rw [blame, ← hp.length_eq]
      exact .bracket ho hl hp hs
    case inr =>
      have ⟨hp, hs⟩ := eq_mergeSort_iff.mp <| Eq.refl <| (belonging ts none).mergeSort (· ≤ ·)
      exact .outside hn hne hp hs

end

-- Separators stand where they may if all of them belong to a bracket, and to every bracket belong as
-- many as what stands in front of it asks for. Otherwise the last bracket for which they do not is
-- told, or else the separators without a bracket.
theorem check_belonging (ts : List Token) :
    (check ts = .ok () ↔ belonging ts none = [] ∧
      ∀ place, ∀ o ∈ ts[place]?, o.kind = .opening →
        Allotted (ts.take place).getLast? (belonging ts (some place)).length) ∧
    ∀ f, check ts = .error f ↔ Told ts f := by
  have hn : (∀ place, ¬Offends ts place) ↔ ∀ place, ∀ o ∈ ts[place]?, o.kind = .opening →
      Allotted (ts.take place).getLast? (belonging ts (some place)).length := by
    simp [Offends]
  rw [← hn]
  rcases check_cases ts with ⟨hc, ho, hs⟩ | ⟨place, hc, ho, hl⟩ | ⟨hc, ho, hs⟩
  all_goals simp only [hc, told_iff, reduceCtorEq, Except.error.injEq, true_iff, false_iff, not_and]
  case inl     => grind
  case inr.inl =>
    refine ⟨fun _ h => h place ho, fun f => ⟨fun h => .inl ⟨place, h.symm, ho, hl⟩, ?_⟩⟩
    rintro (⟨place', rfl, ho', hl'⟩ | ⟨_, hn, _⟩)
    case inl =>
      have hp : place = place' :=
        Nat.le_antisymm (Nat.not_lt.mp (hl' place · ho)) (Nat.not_lt.mp (hl place' · ho'))
      rw [hp]
    case inr => exact absurd ho (hn place)
  case inr.inr => grind

theorem check_belonging_unclosed :
    let c : Token  := ⟨.closing, ")", ⟨0, 1⟩, by decide⟩
    let s : Token  := ⟨.separator, ",", ⟨1, 2⟩, by decide⟩
    let f : Token  := ⟨.function .max, "max", ⟨2, 5⟩, by decide⟩
    let o : Token  := ⟨.opening, "[", ⟨5, 6⟩, by decide⟩
    let n : Token  := ⟨.number, "1", ⟨6, 7⟩, by decide⟩
    let s' : Token := ⟨.separator, ",", ⟨7, 8⟩, by decide⟩
    let b : Token  := ⟨.opening, "(", ⟨8, 9⟩, by decide⟩
    let m : Token  := ⟨.number, "2", ⟨9, 10⟩, by decide⟩
    let t : Token  := ⟨.separator, ",", ⟨10, 11⟩, by decide⟩
    let k : Token  := ⟨.number, "3", ⟨11, 12⟩, by decide⟩
    Told [c, s, f, o, n, s', b, m, t, k] (.separators .outsideFunction [10]) ∧
    check [c, s, f, o, n, s', b, m, t, k] = .error (.separators .outsideFunction [10]) := by
  intro c s f o n s' b m t k
  have later (place : Nat) (hp : 6 < place) : ¬Offends [c, s, f, o, n, s', b, m, t, k] place := by
    by_cases hl : place < 10
    case pos =>
      exact (by decide : ∀ place < 10, 6 < place → ¬Offends [c, s, f, o, n, s', b, m, t, k] place)
        place hl hp
    case neg => exact not_offends_of_le (Nat.not_lt.mp hl)
  have told : Told [c, s, f, o, n, s', b, m, t, k] (.separators .outsideFunction [10]) :=
    .bracket (by decide : Offends _ 6) later (by decide) (by decide)
  exact ⟨told, ((check_belonging _).right _).mpr told⟩

end Separators
end Reckoner
