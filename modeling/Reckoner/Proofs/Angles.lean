import Reckoner.Proofs.Machine
import Reckoner.Proofs.Transparency

namespace Reckoner

namespace Kind

def trigonometric : List Kind :=
  [.function .sin, .function .cos, .function .tan]

variable {o o' : Options} {k : Kind}

theorem compute?_congr (h : k ∈ trigonometric → o.radians = o'.radians) :
    k.compute? o = k.compute? o' := by
  funext xs
  by_cases hk : k ∈ trigonometric
  case pos =>
    have ha : Numeric.angle o = Numeric.angle o' := by
      funext x
      rw [Numeric.angle, Numeric.angle, h hk]
    simp only [trigonometric, List.mem_cons, List.not_mem_nil, or_false] at hk
    rcases hk with rfl | rfl | rfl <;> simp [compute?, Func.compute, ha]
  case neg =>
    cases k
    case function f     => cases f <;> first | rfl | exact absurd (by decide) hk
    case binary | unary => rcases xs with _ | ⟨x, _ | ⟨y, _ | _⟩⟩ <;> rfl
    all_goals rfl

theorem apply_congr (h : k ∈ trigonometric → o.radians = o'.radians) :
    k.apply o = k.apply o' := by
  funext xs
  rw [apply, apply, compute?_congr h]

end Kind

variable {o o' : Options} {ts : List Token}

namespace Execution

theorem step_congr {t : Token} (h : t.kind ∈ Kind.trigonometric → o.radians = o'.radians)
    (stack : List Operand) : step o stack t = step o' stack t := by
  rw [step_eq, step_eq, stepBy, stepBy, Kind.apply_congr h]

theorem run_congr (h : ∀ t ∈ ts, t.kind ∈ Kind.trigonometric → o.radians = o'.radians)
    (stack : List Operand) : ts.foldlM (step o) stack = ts.foldlM (step o') stack := by
  induction ts generalizing stack
  case nil          => rfl
  case cons t ts hi =>
    have ⟨ht, hs⟩ := List.forall_mem_cons.mp h
    rw [List.foldlM_cons, List.foldlM_cons, step_congr ht]
    exact bind_congr fun stack => hi hs stack

end Execution

theorem execute_congr (h : ∀ t ∈ ts, t.kind ∈ Kind.trigonometric → o.radians = o'.radians) :
    execute o ts = execute o' ts :=
  congrArg (· >>= Execution.result) (Execution.run_congr h [])

namespace Session

variable {σ : Type} [Memory σ] (s : Session σ) (expression : String)

theorem evaluate_cache (keep : Bool) (o : Options) :
    (s.evaluate expression keep o).2.cache = (s.compile expression).2.cache := by
  obtain ⟨history, h⟩ := s.evaluate_snd expression keep o
  rw [h]

theorem evaluate_coherent [Memory.Lawful σ] (h : s.Coherent) (keep : Bool) (o : Options) :
    (s.evaluate expression keep o).2.Coherent ∧
      (s.evaluate expression keep o).2.lexer = s.lexer := by
  obtain ⟨history, he⟩ := s.evaluate_snd expression keep o
  obtain ⟨cache, hc⟩ := s.compile_snd expression
  exact ⟨(evaluate_simulates h expression keep o).coherent, by rw [he, hc]⟩

-- Two computations of the same tokens do not differ where the options agree on the angles, and not at
-- all where there is no function of an angle. Whatever a session was asked for before, it keeps one
-- list of tokens for an expression, which gives the answer for any other options too.
theorem execute_and_evaluate_by_angle {σ : Type} [Memory σ] [Memory.Lawful σ] :
    (∀ (ts : List Token) (o o' : Options), o.flag "rad" = o'.flag "rad" →
      execute o ts = execute o' ts) ∧
    (∀ ts : List Token, (∀ t ∈ ts, t.kind ∉ Kind.trigonometric) →
      ∀ o o', execute o ts = execute o' ts) ∧
    ∀ rs expression keep keep' o o',
      let s := (serveAll Session.serve (.empty : Session σ) rs).2
      let t := (s.evaluate expression keep o).2
      t.cache = (s.evaluate expression keep' o').2.cache ∧
      (s.evaluate expression keep o).1 = s.lexer.compile expression >>= answer o ∧
      (t.evaluate expression keep' o').1 = s.lexer.compile expression >>= answer o' := by
  refine ⟨fun ts o o' h => execute_congr fun _ _ _ => h,
    fun ts h o o' => execute_congr fun t ht hk => absurd hk (h t ht),
    fun rs expression keep keep' o o' => ?_⟩
  intro s t
  have ⟨hc, _, _⟩ := serveAll_simulates (s := (.empty : Session σ)) .empty rs
  have ⟨hc', hl⟩ := s.evaluate_coherent expression hc keep o
  refine ⟨?_, evaluate_fst hc expression keep o, ?_⟩
  · rw [s.evaluate_cache expression keep' o']
    exact s.evaluate_cache expression keep o
  · rw [← hl]
    exact evaluate_fst hc' expression keep' o'

theorem execute_and_evaluate_by_angle_sine :
    let n : Token := ⟨.number, "1", ⟨0, 1⟩, by decide⟩
    let f : Token := ⟨.function .sin, "sin", ⟨1, 4⟩, by decide⟩
    let o := (Options.empty.set "rad" <| .number 2).set "deg" <| .bool true
    let o' := Options.empty.set "rad" <| .text "yes"
    o.flag "rad" = o'.flag "rad" ∧ execute o [n, f] = execute o' [n, f] ∧
    (∀ t ∈ [n], t.kind ∉ Kind.trigonometric) ∧ execute o [n] = execute .empty [n] := by
  intro n f o o'
  have ⟨hf, hn, _⟩ := execute_and_evaluate_by_angle (σ := Cache)
  have ha : o.flag "rad" = o'.flag "rad" := by decide +kernel
  have ht : ∀ t ∈ [n], t.kind ∉ Kind.trigonometric := by decide
  exact ⟨ha, hf [n, f] o o' ha, ht, hn [n] ht o .empty⟩

end Session
end Reckoner
