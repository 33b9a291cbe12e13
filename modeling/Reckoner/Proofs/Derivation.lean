import Reckoner.Proofs.Expression
import Reckoner.Proofs.Ownership

namespace Reckoner

inductive Awaited where
  | operand
  | operator
  deriving DecidableEq

-- The tokens that are left of arguments of which the first ones were read, and by which a number of
-- brackets is closed.
inductive Completes : Awaited → Nat → List Token → Prop
  | done : Completes .operator 0 []
  | operand {d ts} (t : Token.Of Kind.operands) :
      Completes .operator d ts → Completes .operand d (t :: ts)
  | negation {d ts} (t : Token.Of [.unary .negate]) :
      Completes .operand d ts → Completes .operand d (t :: ts)
  | bracket {d ts} (o : Token.Of [.opening]) :
      owned ts 0 = [] → Completes .operand (d + 1) ts → Completes .operand d (o :: ts)
  | call {d ts} (f : Token.Of Kind.functions) (o : Token.Of [.opening]) :
      f.1.kind.arity.any (·.allows ((owned ts 0).length + 1)) → Completes .operand (d + 1) ts →
      Completes .operand d (f :: o :: ts)
  | factorial {d ts} (t : Token.Of [.unary .factorial]) :
      Completes .operator d ts → Completes .operator d (t :: ts)
  | closing {d ts} (c : Token.Of [.closing]) :
      Completes .operator d ts → Completes .operator (d + 1) (c :: ts)
  | joiner {d ts} (t : Token.Of Kind.binaries) :
      Completes .operand d ts → Completes .operator d (t :: ts)

section

variable {ks ks' : List Kind} {rest : List Token}

abbrev Token.Of.widen (t : Token.Of ks) (h : ks ⊆ ks') : Token.Of ks' :=
  ⟨t.1, h t.2⟩

theorem owned_of (t : Token.Of ks) (h : .opening ∉ ks ∧ .closing ∉ ks ∧ .separator ∉ ks) :
    owned (t :: rest) = owned rest :=
  funext fun _ => owned_other (fun hk => h.left (hk ▸ t.2)) (fun hk => h.right.left (hk ▸ t.2))
    (fun hk => h.right.right (hk ▸ t.2))

theorem owned_brackets (o : Token.Of [.opening]) (c : Token.Of [.closing]) {inner : List Token}
    (h : ∀ d, owned (inner ++ c.1 :: rest) (d + 1) = owned (c.1 :: rest) (d + 1)) :
    owned (o.1 :: (inner ++ c.1 :: rest)) = owned rest := by
  funext d
  rw [owned_opening (List.mem_singleton.mp o.2), h, owned_closing (List.mem_singleton.mp c.2)]

end

mutual

theorem Expr.owned_append {l : Layer} : (e : Expr l) → (rest : List Token) →
    owned (e.tokens ++ rest) = owned rest
  | .operand t, _          => owned_of t (by decide)
  | .bracketed o e c, rest => by
    rw [Expr.tokens, List.cons_append, List.append_assoc]
    exact owned_brackets o c fun _ => by rw [e.owned_append]
  | .call f o as c, rest   => by
    rw [Expr.tokens, List.cons_append, List.cons_append, List.append_assoc, owned_of f (by decide)]
    exact owned_brackets o c fun d => (as.owned_append _).right d
  | .atom e, rest          => e.owned_append rest
  | .factorial e t, rest   => by
    rw [Expr.tokens, List.append_assoc, e.owned_append]
    exact owned_of t (by decide)
  | .base e, rest          => e.owned_append rest
  | .power x t y, rest     => by
    rw [Expr.tokens, List.append_assoc, x.owned_append, List.cons_append, owned_of t (by decide),
      y.owned_append]
  | .negation t e, rest    => by
    rw [Expr.tokens, List.cons_append, owned_of t (by decide), e.owned_append]
  | .factor e, rest        => e.owned_append rest
  | .product x t y, rest   => by
    rw [Expr.tokens, List.append_assoc, x.owned_append, List.cons_append, owned_of t (by decide),
      y.owned_append]
  | .term e, rest          => e.owned_append rest
  | .sum x t y, rest       => by
    rw [Expr.tokens, List.append_assoc, x.owned_append, List.cons_append, owned_of t (by decide),
      y.owned_append]

theorem Args.owned_append : (as : Args) → (rest : List Token) →
    (owned (as.tokens ++ rest) 0).length + 1 = (owned rest 0).length + as.count ∧
      ∀ d, owned (as.tokens ++ rest) (d + 1) = owned rest (d + 1)
  | .one e, rest       => by
    rw [Args.tokens, e.owned_append]
    exact ⟨rfl, fun _ => rfl⟩
  | .more as s e, rest => by
    have ⟨h, hd⟩ := as.owned_append (s :: (e.tokens ++ rest))
    have hs (d : Nat) : owned (s :: (e.tokens ++ rest)) d = _ :=
      owned_separator (List.mem_singleton.mp s.2)
    rw [Args.tokens, List.append_assoc, List.cons_append, h]
    refine ⟨?_, fun d => ?_⟩
    · rw [hs 0, e.owned_append, List.length_cons, Args.count, Nat.add_assoc, Nat.add_comm 1]
    · rw [hd, hs (d + 1), e.owned_append]

end

section

variable {front : Option Token} {ks : List Kind} {rest : List Token}

theorem Separators.checkOwned_none {positions : List Nat} :
    checkOwned none positions = .ok () ↔ positions = [] :=
  checkOwned_other fun _ hf => nomatch hf

theorem guarded_congr (h : ∀ f ∈ front, f.kind ∉ Kind.functions) :
    Guarded front rest ↔ Guarded none rest := by
  cases rest
  case nil       => rfl
  case cons t ts =>
    simp only [Guarded, Separators.checkOwned_other h, Separators.checkOwned_none]

theorem guarded_of (t : Token.Of ks) (ho : .opening ∉ ks) (hf : ∀ k ∈ ks, k ∉ Kind.functions) :
    Guarded front (t :: rest) ↔ Guarded none rest := by
  have hk : t.1.kind ≠ .opening := fun hk => ho (hk ▸ t.2)
  rw [Guarded, guarded_congr fun f h => by cases h; exact hf _ t.2]
  simp [hk]

theorem guarded_function (f : Token.Of Kind.functions) :
    Guarded front (f :: rest) ↔ Guarded (some f) rest := by
  have hk : f.1.kind ≠ .opening := fun hk => absurd f.2 (by rw [hk]; decide)
  simp [Guarded, hk]

theorem guarded_opening (o : Token.Of [.opening]) :
    Guarded front (o :: rest) ↔
      Separators.checkOwned front (owned rest 0) = .ok () ∧ Guarded none rest := by
  have hk := List.mem_singleton.mp o.2
  rw [Guarded, guarded_congr fun f h => by cases h; rw [hk]; decide]
  simp [hk]

end

mutual

theorem Expr.guarded_append {l : Layer} : (e : Expr l) → (rest : List Token) →
    (Guarded none (e.tokens ++ rest) ↔ e.Fits ∧ Guarded none rest)
  | .operand t, rest       => by
    rw [Expr.tokens, List.singleton_append, guarded_of t (by decide) (by decide), Expr.Fits,
      true_and]
  | .bracketed o e c, rest => by
    have hc : owned (c :: rest) 0 = [] := owned_closing (List.mem_singleton.mp c.2)
    rw [Expr.tokens, List.cons_append, List.append_assoc, List.singleton_append, guarded_opening,
      e.guarded_append, guarded_of c (by decide) (by decide), e.owned_append, hc,
      Separators.checkOwned_none, Expr.Fits]
    simp
  | .call f o as c, rest   => by
    have hc : owned (c :: rest) 0 = [] := owned_closing (List.mem_singleton.mp c.2)
    have ho := (as.owned_append (c :: rest)).left
    rw [hc, List.length_nil, Nat.zero_add] at ho
    rw [Expr.tokens, List.cons_append, List.cons_append, List.append_assoc, List.singleton_append,
      guarded_function, guarded_opening, as.guarded_append, guarded_of c (by decide) (by decide),
      Separators.checkOwned_function f.2, ho, Expr.Fits, and_assoc]
  | .atom e, rest          => e.guarded_append rest
  | .factorial e t, rest   => by
    rw [Expr.tokens, List.append_assoc, e.guarded_append, List.singleton_append,
      guarded_of t (by decide) (by decide), Expr.Fits]
  | .base e, rest          => e.guarded_append rest
  | .power x t y, rest     => by
    rw [Expr.tokens, List.append_assoc, x.guarded_append, List.cons_append,
      guarded_of t (by decide) (by decide), y.guarded_append, Expr.Fits, and_assoc]
  | .negation t e, rest    => by
    rw [Expr.tokens, List.cons_append, guarded_of t (by decide) (by decide), e.guarded_append,
      Expr.Fits]
  | .factor e, rest        => e.guarded_append rest
  | .product x t y, rest   => by
    rw [Expr.tokens, List.append_assoc, x.guarded_append, List.cons_append,
      guarded_of t (by decide) (by decide), y.guarded_append, Expr.Fits, and_assoc]
  | .term e, rest          => e.guarded_append rest
  | .sum x t y, rest       => by
    rw [Expr.tokens, List.append_assoc, x.guarded_append, List.cons_append,
      guarded_of t (by decide) (by decide), y.guarded_append, Expr.Fits, and_assoc]

theorem Args.guarded_append : (as : Args) → (rest : List Token) →
    (Guarded none (as.tokens ++ rest) ↔ as.Fit ∧ Guarded none rest)
  | .one e, rest       => e.guarded_append rest
  | .more as s e, rest => by
    rw [Args.tokens, List.append_assoc, as.guarded_append, List.cons_append,
      guarded_of s (by decide) (by decide), e.guarded_append, Args.Fit, and_assoc]

end

theorem Separators.check_tokens {l : Layer} (e : Expr l) : check e.tokens = .ok () ↔ e.Fits := by
  have hg := e.guarded_append []
  have ho := e.owned_append []
  rw [List.append_nil] at hg ho
  simp [check_iff, hg, ho, Guarded, owned]

mutual

theorem Expr.completes {l : Layer} {d : Nat} {rest : List Token} : (e : Expr l) → e.Fits →
    Completes .operator d rest → Completes .operand d (e.tokens ++ rest)
  | .operand t, _, h         => .operand t h
  | .bracketed o e c, hf, h  => by
    rw [Expr.tokens, List.cons_append, List.append_assoc]
    refine .bracket o ?_ (e.completes hf <| .closing c h)
    rw [e.owned_append]
    exact owned_closing (List.mem_singleton.mp c.2)
  | .call f o as c, hf, h    => by
    rw [Expr.tokens, List.cons_append, List.cons_append, List.append_assoc]
    refine .call f o ?_ (as.completes hf.right <| .closing c h)
    have hc : owned (c :: rest) 0 = [] := owned_closing (List.mem_singleton.mp c.2)
    have ho := (as.owned_append (c :: rest)).left
    rw [hc, List.length_nil, Nat.zero_add] at ho
    exact ho ▸ hf.left
  | .atom e, hf, h           => e.completes hf h
  | .factorial e t, hf, h    => by
    rw [Expr.tokens, List.append_assoc]
    exact e.completes hf <| .factorial t h
  | .base e, hf, h           => e.completes hf h
  | .power x t y, hf, h      => by
    rw [Expr.tokens, List.append_assoc]
    exact x.completes hf.left <| .joiner (Token.Of.widen t (by decide)) <| y.completes hf.right h
  | .negation t e, hf, h     => .negation t <| e.completes hf h
  | .factor e, hf, h         => e.completes hf h
  | .product x t y, hf, h    => by
    rw [Expr.tokens, List.append_assoc]
    exact x.completes hf.left <| .joiner (Token.Of.widen t (by decide)) <| y.completes hf.right h
  | .term e, hf, h           => e.completes hf h
  | .sum x t y, hf, h        => by
    rw [Expr.tokens, List.append_assoc]
    exact x.completes hf.left <| .joiner (Token.Of.widen t (by decide)) <| y.completes hf.right h

theorem Args.completes {d : Nat} {rest : List Token} : (as : Args) → as.Fit →
    Completes .operator d rest → Completes .operand d (as.tokens ++ rest)
  | .one e, hf, h       => e.completes hf h
  | .more as s e, hf, h => by
    rw [Args.tokens, List.append_assoc]
    exact as.completes hf.left <| .joiner (Token.Of.widen s (by decide)) <| e.completes hf.right h

end

-- Tokens that make an expression of a layer a longer one.
def Extends (l : Layer) (us : List Token) : Prop :=
  ∀ e : Expr l, e.Fits → ∃ e' : Expr l, e'.tokens = e.tokens ++ us ∧ e'.Fits

def Prolongs (us : List Token) : Prop :=
  ∀ as : Args, as.Fit → ∃ as' : Args, as'.tokens = as.tokens ++ us ∧ as'.Fit

namespace Extends

variable {us : List Token}

theorem power (h : ∀ e : Expr .factorial, e.Fits →
    ∃ y : Expr .power, y.tokens = e.tokens ++ us ∧ y.Fits) : Extends .power us
  | .base e, hf       => h e hf
  | .power x t y, hf  =>
    have ⟨y, ht, hy⟩ := power h y hf.right
    ⟨.power x t y, by simp [Expr.tokens, ht], hf.left, hy⟩
  | .negation t e, hf =>
    have ⟨e, ht, he⟩ := power h e hf
    ⟨.negation t e, by simp [Expr.tokens, ht], he⟩

theorem product (h : Extends .power us) : Extends .product us
  | .factor e, hf      =>
    have ⟨e, ht, he⟩ := h e hf
    ⟨.factor e, ht, he⟩
  | .product x t y, hf =>
    have ⟨y, ht, hy⟩ := h y hf.right
    ⟨.product x t y, by simp [Expr.tokens, ht], hf.left, hy⟩

theorem sum (h : Extends .product us) : Extends .sum us
  | .term e, hf    =>
    have ⟨e, ht, he⟩ := h e hf
    ⟨.term e, ht, he⟩
  | .sum x t y, hf =>
    have ⟨y, ht, hy⟩ := h y hf.right
    ⟨.sum x t y, by simp [Expr.tokens, ht], hf.left, hy⟩

theorem prolongs (h : Extends .sum us) : Prolongs us
  | .one e, hf       =>
    have ⟨e, ht, he⟩ := h e hf
    ⟨.one e, ht, he⟩
  | .more as s e, hf =>
    have ⟨e, ht, he⟩ := h e hf.right
    ⟨.more as s e, by simp [Args.tokens, ht], hf.left, he⟩

end Extends

namespace Prolongs

theorem factorial (t : Token.Of [.unary .factorial]) : Prolongs [t] :=
  Extends.prolongs <| .sum <| .product <| .power fun e hf => ⟨.base <| .factorial e t, rfl, hf⟩

theorem joiner (t : Token.Of Kind.binaries) {y : Expr .power} (hy : y.Fits) :
    Prolongs (t.1 :: y.tokens) := by
  have hk := (by decide : ∀ k ∈ Kind.binaries, k ∈ Kind.additive ∨ k ∈ Kind.multiplicative ∨
    k ∈ [.binary .power] ∨ k ∈ [.separator]) t.1.kind t.2
  rcases hk with hk | hk | hk | hk
  · exact Extends.prolongs fun e hf => ⟨.sum e ⟨t, hk⟩ <| .factor y, rfl, hf, hy⟩
  · exact Extends.prolongs <| .sum fun e hf => ⟨.product e ⟨t, hk⟩ y, rfl, hf, hy⟩
  · exact Extends.prolongs <| .sum <| .product <| .power fun e hf =>
      ⟨.power e ⟨t, hk⟩ y, rfl, hf, hy⟩
  · exact fun as hf => ⟨.more as ⟨t, hk⟩ <| .term <| .factor y, rfl, hf, hy⟩

end Prolongs

theorem Args.count_pos (as : Args) : 0 < as.count := by
  cases as <;> exact Nat.succ_pos _

theorem Args.eq_one_of_count : (as : Args) → as.count = 1 → ∃ e, as = .one e
  | .one e,       _ => ⟨e, rfl⟩
  | .more as _ _, h => absurd (Nat.succ.inj h) (Nat.ne_of_gt as.count_pos)

namespace Completes

variable {d : Nat} {ts rest : List Token}

theorem exists_closing (h : Completes .operator (d + 1) rest)
    (hc : ∀ t ∈ rest.head?, t.kind = .closing) :
    ∃ (c : Token.Of [.closing]) (ts : List Token), rest = c.1 :: ts ∧ Completes .operator d ts := by
  cases h
  case closing ts c h   => exact ⟨c, ts, rfl, h⟩
  case factorial ts t _ => exact absurd t.2 (hc t rfl ▸ by decide)
  case joiner ts t _    => exact absurd t.2 (hc t rfl ▸ by decide)

end Completes

mutual

theorem Completes.operand_append {d : Nat} {ts : List Token} (h : Completes .operand d ts) :
    ∃ (y : Expr .power) (rest : List Token),
      ts = y.tokens ++ rest ∧ y.Fits ∧ Completes .operator d rest := by
  cases h
  case operand ts t h   => exact ⟨.base <| .atom <| .operand t, ts, rfl, trivial, h⟩
  case negation ts t h  =>
    have ⟨y, rest, hy, hf, h⟩ := h.operand_append
    exact ⟨.negation t y, rest, by rw [hy]; rfl, hf, h⟩
  case bracket ts o ho h =>
    have ⟨as, c, rest, has, hf, h, hn⟩ := h.enclosed_append
    have ⟨e, he⟩ := as.eq_one_of_count (by rw [← hn, ho]; rfl)
    subst he
    exact ⟨.base <| .atom <| .bracketed o e c, rest, by simp [Expr.tokens, has, Args.tokens], hf, h⟩
  case call ts f o ho h  =>
    have ⟨as, c, rest, has, hf, h, hn⟩ := h.enclosed_append
    exact ⟨.base <| .atom <| .call f o as c, rest, by simp [Expr.tokens, has], ⟨hn ▸ ho, hf⟩, h⟩
termination_by 2 * ts.length
decreasing_by all_goals (subst_vars; simp only [List.length_cons]; omega)

theorem Completes.prolonged_append {d : Nat} {ts : List Token} (h : Completes .operator d ts)
    (as : Args) (hf : as.Fit) :
    ∃ (as' : Args) (rest : List Token), as.tokens ++ ts = as'.tokens ++ rest ∧ as'.Fit ∧
      Completes .operator d rest ∧ ∀ t ∈ rest.head?, t.kind = .closing := by
  cases h
  case done             => exact ⟨as, [], rfl, hf, .done, nofun⟩
  case factorial ts t h =>
    have ⟨as', ht, hf⟩ := Prolongs.factorial t as hf
    have ⟨as', rest, hr, h⟩ := h.prolonged_append as' hf
    exact ⟨as', rest, by simp [← hr, ht], h⟩
  case closing d ts c h =>
    exact ⟨as, c :: ts, rfl, hf, .closing c h, fun t ht => by cases ht; simpa using c.2⟩
  case joiner ts t h    =>
    have ⟨y, rest, hy, hg, h⟩ := h.operand_append
    have hl : rest.length ≤ ts.length := by simp [hy]
    have ⟨as', ht, hf⟩ := Prolongs.joiner t hg as hf
    have ⟨as', rest, hr, h⟩ := h.prolonged_append as' hf
    exact ⟨as', rest, by simp [← hr, ht, hy], h⟩
termination_by 2 * ts.length
decreasing_by all_goals (subst_vars; simp only [List.length_cons]; omega)

theorem Completes.enclosed_append {d : Nat} {ts : List Token} (h : Completes .operand (d + 1) ts) :
    ∃ (as : Args) (c : Token.Of [.closing]) (rest : List Token), ts = as.tokens ++ c.1 :: rest ∧
      as.Fit ∧ Completes .operator d rest ∧ (owned ts 0).length + 1 = as.count := by
  have ⟨y, rest, hy, hf, h⟩ := h.operand_append
  have hl : rest.length ≤ ts.length := by simp [hy]
  have ⟨as, rest, hr, hf, h, hc⟩ := h.prolonged_append (.one <| .term <| .factor y) hf
  have ⟨c, post, hc, hp⟩ := h.exists_closing hc
  subst hc
  have ho : owned (c.1 :: post) 0 = [] := owned_closing (List.mem_singleton.mp c.2)
  have hn := (as.owned_append (c.1 :: post)).left
  rw [ho, ← hr, List.length_nil, Nat.zero_add] at hn
  exact ⟨as, c, post, hy.trans hr, hf, hp, hy ▸ hn⟩
termination_by 2 * ts.length + 1
decreasing_by all_goals omega

end

end Reckoner
