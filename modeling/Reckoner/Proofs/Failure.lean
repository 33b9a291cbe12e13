import Reckoner.Proofs.Computation
import Reckoner.Proofs.Division
import Reckoner.Proofs.Transparency

namespace Reckoner

def Request.text? : Request → Option String
  | .evaluate expression _ _ => some expression
  | .evaluateBytes bytes _ _ => (Text.Utf8.decode bytes).toOption
  | _                        => none

namespace Session

variable {σ : Type} [Memory σ] {s : Session σ} {expression : String} {keep : Bool} {o : Options}
  {f : Fault} {c : σ} {ts : List Token}

def Used (s : Session σ) : Prop :=
  ∀ c ∈ s.cache, Memory.Used c

namespace Used

theorem map (h : s.Used) {g : σ → σ} (hg : ∀ c : σ, Memory.Used c → Memory.Used (g c)) :
    Used { s with cache := s.cache.map g } :=
  Option.forall_mem_map.mpr fun c hc => hg c (h c hc)

theorem setLexer (h : s.Used) (p : Prepared) : (s.setLexer p).Used :=
  h.map fun _ hc => hc.clear

theorem addRules (h : s.Used) (rules : List (String × Rule)) : (s.addRules rules).2.Used := by
  rw [Session.addRules]
  split
  case h_1 p _ => exact h.setLexer p
  case h_2     => exact h

theorem setCapacity (s : Session σ) (n : Nat) : (s.setCapacity n).Used := by
  intro c hc
  simp only [Session.setCapacity] at hc
  split at hc
  case isTrue     => contradiction
  case isFalse hn => cases hc; exact .ofCapacity hn

theorem lookup (h : s.Used) (expression : String) : (s.lookup expression).2.Used := by
  rw [Session.lookup]
  cases hc : s.cache
  case none   => exact h
  case some c =>
    intro d hd
    cases hd
    exact (h c hc).get expression

theorem compile (h : s.Used) (expression : String) : (s.compile expression).2.Used := by
  have hl := h.lookup expression
  rw [Session.compile]
  split
  case h_1 hs => rwa [hs] at hl
  case h_2 hs =>
    rw [hs] at hl
    split
    case h_1 ts _ => exact hl.map fun _ hc => hc.put expression ts
    case h_2      => exact hl

theorem evaluate (h : s.Used) (expression : String) (keep : Bool) (o : Options) :
    (s.evaluate expression keep o).2.Used := by
  obtain ⟨history, he⟩ := s.evaluate_snd expression keep o
  rw [he]
  exact h.compile expression

theorem serve (h : s.Used) : (r : Request) → (s.serve r).2.Used
  | .addRules rules => h.addRules rules
  | .setChecks _ => h.setLexer _
  | .setCapacity n => .setCapacity s n
  | .evaluate expression keep o => h.evaluate expression keep o
  | .evaluateBytes bytes keep o => by
    simp only [Session.serve, evaluateBytes]
    cases Text.Utf8.decode bytes
    case error         => exact h
    case ok expression => exact h.evaluate expression keep o
  | .evaluateAll _ _ | .clearHistory | .history => h

theorem serveAll (h : s.Used) (rs : List Request) : (serveAll Session.serve s rs).2.Used := by
  induction rs generalizing s
  case nil          => exact h
  case cons r rs hi => exact hi (h.serve r)

end Used

def contents (s : Session σ) : Option (String → Option (List Token)) :=
  s.cache.map fun c key => (Memory.get c key).1

-- An expression that can be converted, and that the cache does not have.
structure Unseen (s : Session σ) (expression : String) (c : σ) (ts : List Token) : Prop where
  cached    : s.cache = some c
  missed    : (Memory.get c expression).1 = none
  converted : s.lexer.compile expression = .ok ts

theorem lookup_of_cache (hc : s.cache = some c) (expression : String) : s.lookup expression =
    ((Memory.get c expression).1, { s with cache := some (Memory.get c expression).2 }) := by
  rw [lookup, hc]
  rfl

theorem evaluate_of_error (h : (s.evaluate expression keep o).1 = .error f) :
    (s.evaluate expression keep o).2 = (s.compile expression).2 := by
  rw [evaluate] at h ⊢
  split at h
  case h_1 t hc => rw [hc]
  case h_2 ts t hc =>
    split at h
    case h_1 => simp_all
    case h_2 => contradiction

variable [Memory.Retentive σ]

theorem Unseen.compile (h : s.Unseen expression c ts) (hs : s.Used) :
    s.compile expression = (.ok ts, { s with cache := some (Memory.put c expression ts) }) := by
  have hg : (Memory.get c expression).2 = c :=
    Memory.Retentive.get_of_none (hs c h.cached) h.missed
  rw [Session.compile, lookup_of_cache h.cached, h.missed, hg]
  simp only [h.converted]
  rfl

theorem contents_compile (h : s.Used) (hn : ∀ c ts, ¬s.Unseen expression c ts) :
    (s.compile expression).2.contents = s.contents := by
  rw [Session.compile]
  cases hc : s.cache
  case none   =>
    have hl : s.lookup expression = (none, s) := by rw [lookup, hc]
    simp only [hl]
    cases s.lexer.compile expression
    case error => rfl
    case ok ts => simp only [contents, remember, hc, Option.map_none]
  case some c =>
    have hs : some (fun key => (Memory.get (Memory.get c expression).2 key).1) = s.contents := by
      rw [contents, hc, Option.map_some]
      exact congrArg some <| funext fun key => Memory.Retentive.get_get (h c hc)
    rw [lookup_of_cache hc]
    cases hm : (Memory.get c expression).1
    case some => exact hs
    case none =>
      cases hx : s.lexer.compile expression
      case error => simp only [hx]; exact hs
      case ok ts => exact absurd ⟨hc, hm, hx⟩ (hn c ts)

-- What a request that fails leaves behind, if it asks to evaluate a text: the grammar, the checks and
-- the history as they were, and the cache as well, unless the text can be converted and was not in the
-- cache. Then it is in the cache afterwards, although it has no value.
structure Trace (s : Session σ) (text? : Option String) (s' : Session σ) : Prop where
  lexer    : s'.lexer = s.lexer
  history  : s'.history = s.history
  contents : s'.contents = s.contents ↔ ∀ e ∈ text?, ∀ c ts, ¬s.Unseen e c ts
  cache    : ∀ e ∈ text?, ∀ c ts, s.Unseen e c ts → s'.cache = some (Memory.put c e ts)

theorem trace_of_evaluate (h : s.Used) (hf : (s.evaluate expression keep o).1 = .error f) :
    Trace s (some expression) (s.evaluate expression keep o).2 := by
  rw [evaluate_of_error hf]
  by_cases hn : ∀ c ts, ¬s.Unseen expression c ts
  case pos =>
    obtain ⟨cache, hc⟩ := s.compile_snd expression
    refine ⟨by rw [hc], by rw [hc], iff_of_true (contents_compile h hn) ?_, ?_⟩
    · rintro e ⟨⟩
      exact hn
    · rintro e ⟨⟩ c ts hx
      exact absurd hx (hn c ts)
  case neg =>
    simp only [not_forall, Classical.not_not] at hn
    obtain ⟨c, ts, hx⟩ := hn
    rw [hx.compile h]
    refine ⟨rfl, rfl, iff_of_false (fun he => ?_) fun ha => ha expression rfl c ts hx, ?_⟩
    · have he : (Memory.get (Memory.put c expression ts) expression).1 =
          (Memory.get c expression).1 :=
        congrFun (Option.some.inj (he.trans (congrArg _ hx.cached))) expression
      rw [Memory.Retentive.get_put_self (h c hx.cached), hx.missed] at he
      contradiction
    · rintro e ⟨⟩ d us hy
      cases hx.cached.symm.trans hy.cached
      cases hx.converted.symm.trans hy.converted
      rfl

-- This holds of every session that began without a cache, whatever it was asked for since.
theorem serveAll_trace {σ : Type} [Memory σ] [Memory.Retentive σ] (s₀ : Session σ)
    (h₀ : s₀.cache = none) (rs : List Request) (r : Request) (f : Fault) :
    let s := (serveAll serve s₀ rs).2
    (s.serve r).1 = .value (.error f) → Trace s r.text? (s.serve r).2 := by
  intro s hr
  have hs : s.Used := Used.serveAll (by simp [Used, h₀]) rs
  cases r
  case evaluate expression keep o => exact trace_of_evaluate hs (by simpa [serve] using hr)
  case evaluateBytes bytes keep o =>
    simp only [serve, evaluateBytes, Request.text?] at hr ⊢
    cases hd : Text.Utf8.decode bytes
    case error flaw    => exact ⟨rfl, rfl, by simp [Except.toOption], by simp [Except.toOption]⟩
    case ok expression =>
      rw [hd] at hr
      exact trace_of_evaluate hs (by simpa using hr)
  all_goals simp [serve] at hr

end Session

namespace Overdivided

def expression : String :=
  "1/0"

def one : Token :=
  ⟨.number, "1", ⟨0, 1⟩, by decide⟩

def slash : Token :=
  ⟨.binary .divide, "/", ⟨1, 2⟩, by decide⟩

def zero : Token :=
  ⟨.number, "0", ⟨2, 3⟩, by decide⟩

theorem compile_expression : Lexer.standard.compile expression = .ok [one, zero, slash] := by
  have ho : Ordered none [one, slash, zero] :=
    ⟨by decide, by decide, by decide, by decide, by decide, by decide,
      (by decide : _ ∈ Standard.operandEnd)⟩
  have hd : Laid 0 [one, slash, zero] := ⟨by decide, by decide, by decide, trivial⟩
  have hw : spelling [one, slash, zero] = Text.stripped expression.toList := by decide
  exact Except.bind_eq_ok.mpr ⟨_, Lexer.parse_iff.mpr ⟨⟨ho, hd, hw⟩, rfl⟩, rfl⟩

def fault : Fault :=
  .noFiniteResult (.binary .divide) [Decimal.toFloat ⟨1, 0⟩, Decimal.toFloat ⟨0, 0⟩]

theorem apply_slash (o : Options) :
    slash.kind.apply o [Decimal.toFloat ⟨1, 0⟩, Decimal.toFloat ⟨0, 0⟩] = .error fault := by
  have h₁ : (Decimal.toFloat ⟨1, 0⟩).isFinite = true := by decide +kernel
  have h₀ : (Decimal.toFloat ⟨0, 0⟩).isFinite = true := by decide +kernel
  have hq : (Decimal.toFloat ⟨1, 0⟩ / Decimal.toFloat ⟨0, 0⟩).isFinite = false := by decide +kernel
  simp [Kind.apply, slash, fault, Kind.arity, Arity.allows, Arity.exactly, Kind.compute?, Binary.compute,
    hq, h₁, h₀]

theorem answer_expression (o : Options) : answer o [one, zero, slash] = .error fault := by
  have h₁ : Execution.step o [] one = .ok [.number (Decimal.toFloat ⟨1, 0⟩)] :=
    Execution.step_numeral rfl (by decide)
  have h₂ (stack) : Execution.step o stack zero =
      .ok (.number (Decimal.toFloat ⟨0, 0⟩) :: stack) :=
    Execution.step_numeral rfl (by decide)
  have h₃ : Execution.step o
      [.number (Decimal.toFloat ⟨0, 0⟩), .number (Decimal.toFloat ⟨1, 0⟩)] slash = .error fault := by
    rw [Execution.step_binary rfl, apply_slash]
    rfl
  simp [answer, execute, Execution.run, h₁, h₂, h₃]

def session : Session :=
  Session.standard.setCapacity 1

theorem unseen_expression : session.Unseen expression ⟨1, []⟩ [one, zero, slash] :=
  ⟨rfl, rfl, compile_expression⟩

theorem compile_session : session.compile expression =
    (.ok [one, zero, slash], { session with cache := some (Cache.put ⟨1, []⟩ expression
      [one, zero, slash]) }) :=
  unseen_expression.compile <| .setCapacity .standard 1

theorem evaluate_expression (keep : Bool) (o : Options) :
    (session.evaluate expression keep o).1 = .error fault := by
  simp only [Session.evaluate, compile_session, answer_expression]

end Overdivided

-- An evaluation that fails does not leave the cache as it was.
theorem Session.evaluate_untraced : ¬∀ (s : Session) (expression : String) (keep : Bool) (o : Options)
    (f : Fault), (s.evaluate expression keep o).1 = .error f →
      let s' := (s.evaluate expression keep o).2
      s'.lexer = s.lexer ∧ s'.history = s.history ∧ s'.contents = s.contents := by
  intro h
  have ⟨_, _, hc⟩ := h _ _ true .empty _ (Overdivided.evaluate_expression true .empty)
  rw [evaluate_of_error (Overdivided.evaluate_expression true .empty),
    Overdivided.compile_session] at hc
  have he := congrFun (Option.some.inj hc) Overdivided.expression
  contradiction

theorem Session.serveAll_trace_division :
    let s := (serveAll serve Session.standard [.setCapacity 1]).2
    let r := Request.evaluate Overdivided.expression true .empty
    Session.standard.cache = none ∧ (s.serve r).1 = .value (.error Overdivided.fault) ∧
    (s.serve r).2.history = [] ∧
    (s.serve r).2.cache =
      some ⟨1, [("1/0", [Overdivided.one, Overdivided.zero, Overdivided.slash])]⟩ := by
  intro s r
  have hn : Session.standard.cache = none := rfl
  have hr : (s.serve r).1 = .value (.error Overdivided.fault) :=
    congrArg Reply.value (Overdivided.evaluate_expression true .empty)
  have ht := serveAll_trace Session.standard hn [.setCapacity 1] r Overdivided.fault hr
  exact ⟨hn, hr, ht.history, ht.cache _ rfl _ _ Overdivided.unseen_expression⟩

end Reckoner
