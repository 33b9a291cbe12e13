import Mathlib.Control.Monad.Basic

namespace Except

variable {α β ε : Type} {x : Except ε α} {f : α → Except ε β}

@[simp]
theorem pure_eq_ok (a : α) : (pure a : Except ε α) = .ok a := by
  rfl

@[simp]
theorem throw_eq_error (e : ε) : (throw e : Except ε α) = .error e := by
  rfl

@[simp]
theorem ok_bind (a : α) (f : α → Except ε β) : (.ok a >>= f) = f a :=
  rfl

@[simp]
theorem error_bind (e : ε) (f : α → Except ε β) : (.error e >>= f) = .error e :=
  rfl

@[simp]
theorem bind_ok (x : Except ε α) (g : α → β) : (x >>= fun a => .ok (g a)) = g <$> x := by
  cases x <;> rfl

theorem bind_eq_ok {b : β} : (x >>= f) = .ok b ↔ ∃ a, x = .ok a ∧ f a = .ok b := by
  cases x <;> simp

theorem bind_eq_error {e : ε} :
    (x >>= f) = .error e ↔ x = .error e ∨ ∃ a, x = .ok a ∧ f a = .error e := by
  cases x <;> simp

theorem check_bind_eq_ok {x : Except ε Unit} {y : Except ε β} {b : β} :
    (x >>= fun _ => y) = .ok b ↔ x = .ok () ∧ y = .ok b := by
  cases x <;> simp

theorem map_eq_ok {b : β} {g : α → β} : g <$> x = .ok b ↔ ∃ a, x = .ok a ∧ g a = b := by
  cases x <;> simp

theorem mapM_cons_eq_ok {a : α} {as : List α} {bs : List β} :
    (a :: as).mapM f = .ok bs ↔ ∃ b cs, f a = .ok b ∧ as.mapM f = .ok cs ∧ bs = b :: cs := by
  rw [List.mapM_cons]
  cases f a
  case error => simp
  case ok b  => cases as.mapM f <;> simp [eq_comm]

variable {g : β → α → Except ε β} {as : List α} {a : α} {b c : β}

theorem foldlM_concat_eq_ok :
    (as ++ [a]).foldlM g b = .ok c ↔ ∃ mid, as.foldlM g b = .ok mid ∧ g mid a = .ok c := by
  have last (mid : β) : [a].foldlM g mid = g mid a := by
    rw [List.foldlM_cons]
    cases g mid a <;> rfl
  simp only [List.foldlM_append, bind_eq_ok, last]

theorem foldlM_eq_error {e : ε} : as.foldlM g b = .error e ↔
    ∃ before a after mid, as = before ++ a :: after ∧ before.foldlM g b = .ok mid ∧
      g mid a = .error e := by
  constructor
  case mp =>
    intro h
    induction as generalizing b
    case nil          => contradiction
    case cons a as hi =>
      rw [List.foldlM_cons] at h
      rcases bind_eq_error.mp h with ha | ⟨mid, ha, h⟩
      case inl => exact ⟨[], a, as, b, rfl, rfl, ha⟩
      case inr =>
        have ⟨before, a', after, last, hs, hb, he⟩ := hi h
        exact ⟨a :: before, a', after, last, by rw [hs]; rfl,
          by rw [List.foldlM_cons, ha, ok_bind, hb], he⟩
  case mpr =>
    rintro ⟨before, a, after, mid, rfl, hb, he⟩
    rw [List.foldlM_append, hb, ok_bind, List.foldlM_cons, he, error_bind]

theorem foldlM_keeps {P : β → Prop} (hs : ∀ a ∈ as, ∀ b c, P b → g b a = .ok c → P c) (hb : P b)
    (h : as.foldlM g b = .ok c) : P c := by
  induction as generalizing b
  case nil          => cases h; exact hb
  case cons a as hi =>
    rw [List.foldlM_cons] at h
    have ⟨mid, hm, h⟩ := bind_eq_ok.mp h
    have ⟨ha, hs⟩ := List.forall_mem_cons.mp hs
    exact hi hs (ha b mid hb hm) h

variable {γ : Type} {last : β → Except ε γ}

-- How a run ends, and how many elements it has behind it then: at the first step that fails, or behind
-- all elements, where what it came to is looked at.
def course (g : β → α → Except ε β) (last : β → Except ε γ) (b : β) : List α → Nat × Except ε γ
  | []      => (0, last b)
  | a :: as => match g b a with
    | .ok c    => (course g last c as).map (· + 1) id
    | .error e => (0, .error e)

theorem course_cons_ok (h : g b a = .ok c) :
    course g last b (a :: as) = (course g last c as).map (· + 1) id := by
  rw [course, h]

theorem course_cons_error {e : ε} (h : g b a = .error e) :
    course g last b (a :: as) = (0, .error e) := by
  rw [course, h]

theorem course_snd_eq_error {e : ε} (h : (course g last b as).2 = .error e) :
    (∃ a mid, as[(course g last b as).1]? = some a ∧ g mid a = .error e) ∨
      ∃ c, last c = .error e := by
  induction as generalizing b
  case nil          => exact .inr ⟨b, h⟩
  case cons a as hi =>
    cases hg : g b a
    case error f =>
      rw [course_cons_error hg] at h ⊢
      cases h
      exact .inl ⟨a, b, rfl, hg⟩
    case ok c    =>
      rw [course_cons_ok hg] at h ⊢
      exact hi h

theorem course_snd : (course g last b as).2 = as.foldlM g b >>= last := by
  induction as generalizing b
  case nil          => rfl
  case cons a as hi =>
    rw [List.foldlM_cons]
    cases h : g b a
    case error e => rw [course_cons_error h]; rfl
    case ok c    => rw [course_cons_ok h, ok_bind, ← hi]; rfl

end Except
