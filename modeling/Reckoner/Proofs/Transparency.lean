import Mathlib.Data.Option.Basic
import Reckoner.Proofs.Computation
import Reckoner.Proofs.Division
import Reckoner.Proofs.Memory
import Reckoner.Proofs.Outcome
import Reckoner.Proofs.Registry
import Reckoner.Session

namespace Reckoner

theorem Prepared.Fresh.compile {p : Prepared} (h : p.Fresh) (expression : String) :
    p.compile expression = p.toLexer.compile expression := by
  rw [Prepared.compile, h.parse, Lexer.compile]

inductive Request where
  | addRules      (rules : List (String × Rule))
  | setChecks     (checks : List Check)
  | setCapacity   (n : Nat)
  | evaluate      (expression : String) (keep : Bool) (o : Options)
  | evaluateBytes (bytes : List UInt8) (keep : Bool) (o : Options)
  | evaluateAll   (expressions : List String) (o : Options)
  | clearHistory
  | history

inductive Reply where
  | done    (r : Except Fault Unit)
  | value   (r : Except Fault Float)
  | values  (rs : List (Except Fault Float))
  | entries (es : List Entry)

def Session.serve {σ : Type} [Memory σ] (s : Session σ) : Request → Reply × Session σ
  | .addRules rules               => (s.addRules rules).map .done id
  | .setChecks checks             => (.done <| .ok (), s.setChecks checks)
  | .setCapacity n                => (.done <| .ok (), s.setCapacity n)
  | .evaluate expression keep o   => (s.evaluate expression keep o).map .value id
  | .evaluateBytes bytes keep o   => (s.evaluateBytes bytes keep o).map .value id
  | .evaluateAll expressions o    => (.values <| s.evaluateAll expressions o, s)
  | .clearHistory                 => (.done <| .ok (), s.clearHistory)
  | .history                      => (.entries s.history, s)

def serveAll {σ : Type} (serve : σ → Request → Reply × σ) (s : σ) : List Request → List Reply × σ
  | []      => ([], s)
  | r :: rs =>
    let (reply, s)   := serve s r
    let (replies, s) := serveAll serve s rs
    (reply :: replies, s)

-- A session that keeps nothing but its grammar, its checks and its history.
structure Plain where
  lexer   : Lexer
  history : List Entry

namespace Plain

def empty : Plain :=
  ⟨.empty, []⟩

def compute (p : Plain) (expression : String) (o : Options) : Except Fault Float := do
  let ts      ← p.lexer.parse expression
  let ordered ← Postfix.ofTokens ts
  let x       ← execute o ordered
  return Decimal.roundTo 15 x

def keep (p : Plain) (expression : String) (x : Float) : Plain :=
  { p with history := .of expression x :: p.history }

def evaluate (p : Plain) (expression : String) (keep : Bool) (o : Options) : Reply × Plain :=
  match p.compute expression o with
  | .ok x    => (.value <| .ok x, if keep then p.keep expression x else p)
  | .error f => (.value <| .error f, p)

def serve (p : Plain) : Request → Reply × Plain
  | .addRules rules               => match p.lexer.addRules rules with
    | .ok lexer => (.done <| .ok (), { p with lexer })
    | .error f  => (.done <| .error f, p)
  | .setChecks checks             => (.done <| .ok (), { p with lexer := { p.lexer with checks } })
  | .setCapacity _                => (.done <| .ok (), p)
  | .evaluate expression keep o   => p.evaluate expression keep o
  | .evaluateBytes bytes keep o   => match Text.Utf8.decode bytes with
    | .ok expression => p.evaluate expression keep o
    | .error flaw    =>
      (.value <| .error <| .input <| "expression is not text: " ++ flaw.message, p)
  | .evaluateAll expressions o    => (.values <| expressions.map (p.compute · o), p)
  | .clearHistory                 => (.done <| .ok (), { p with history := [] })
  | .history                      => (.entries p.history, p)

end Plain

namespace Request

end Request

namespace Session

section

variable {σ : Type}

def plain (s : Session σ) : Plain :=
  ⟨s.lexer.toLexer, s.history⟩

-- What was put into the cache the latest is what the grammar and the checks of the session give.
structure Coherent [Memory σ] (s : Session σ) : Prop where
  fresh  : s.lexer.Fresh
  cached : ∀ c ∈ s.cache, ∃ n us, n ≠ 0 ∧ c = Memory.after n us ∧
    ∀ key ts, Memory.latest? key us = some ts → s.lexer.compile key = .ok ts

end

variable {σ : Type} [Memory σ] {s : Session σ} {expression : String} {ts : List Token}

namespace Coherent

theorem empty : Coherent (.empty : Session σ) where
  fresh  := Prepared.fresh_new []
  cached := nofun

theorem standard : Session.standard.Coherent where
  fresh  := Prepared.fresh_of .standard
  cached := nofun

theorem setLexer {p : Prepared} (h : Coherent s) (hp : p.Fresh) : Coherent (s.setLexer p) where
  fresh  := hp
  cached := Option.forall_mem_map.mpr fun c hc => by
    have ⟨n, us, hn, hu, _⟩ := h.cached c hc
    exact ⟨n, .clear :: us, hn, by rw [hu]; rfl, nofun⟩

theorem setCapacity (h : Coherent s) (n : Nat) : Coherent (s.setCapacity n) where
  fresh  := h.fresh
  cached := by
    intro c hc
    simp only [Session.setCapacity] at hc
    split at hc
    case isTrue     => contradiction
    case isFalse hn => cases hc; exact ⟨n, [], hn, rfl, nofun⟩

theorem remember (h : Coherent s) (ht : s.lexer.compile expression = .ok ts) :
    Coherent (s.remember expression ts) where
  fresh  := h.fresh
  cached := Option.forall_mem_map.mpr fun c hc => by
    have ⟨n, us, hn, hu, hl⟩ := h.cached c hc
    refine ⟨n, .put expression ts :: us, hn, by rw [hu]; rfl, fun key vs hk => ?_⟩
    rw [Memory.latest?] at hk
    split at hk
    case isTrue he => cases hk; exact he ▸ ht
    case isFalse   => exact hl key vs hk

theorem lookup [Memory.Lawful σ] (h : Coherent s) (expression : String) :
    Coherent (s.lookup expression).2 ∧
      ∀ ts ∈ (s.lookup expression).1, s.lexer.compile expression = .ok ts := by
  rw [Session.lookup]
  cases hc : s.cache
  case none   => exact ⟨h, nofun⟩
  case some c =>
    have ⟨n, us, hn, hu, hl⟩ := h.cached c hc
    subst hu
    refine ⟨⟨h.fresh, fun d hd => ?_⟩, fun ts ht => hl expression ts ?_⟩
    · cases hd
      exact ⟨n, .get expression :: us, hn, rfl, hl⟩
    · exact Memory.Lawful.latest?_of_get hn (by simpa using ht)

theorem with_history (h : Coherent s) (es : List Entry) : Coherent { s with history := es } :=
  ⟨h.fresh, h.cached⟩

end Coherent

theorem lookup_snd (s : Session σ) (expression : String) :
    ∃ cache, (s.lookup expression).2 = { s with cache } := by
  rw [lookup]
  split
  case h_1     => exact ⟨s.cache, rfl⟩
  case h_2 c _ => exact ⟨some (Memory.get c expression).2, rfl⟩

theorem compile_snd (s : Session σ) (expression : String) :
    ∃ cache, (s.compile expression).2 = { s with cache } := by
  obtain ⟨cache, hl⟩ := s.lookup_snd expression
  rw [compile]
  cases hr : s.lookup expression
  case mk found t =>
    rw [hr] at hl
    cases hl
    cases found
    case some ts => exact ⟨cache, rfl⟩
    case none    =>
      simp only
      cases s.lexer.compile expression
      case error f => exact ⟨cache, rfl⟩
      case ok ts   => exact ⟨_, rfl⟩

theorem evaluate_snd (s : Session σ) (expression : String) (keep : Bool) (o : Options) :
    ∃ history, (s.evaluate expression keep o).2 = { (s.compile expression).2 with history } := by
  rw [evaluate]
  cases s.compile expression
  case mk r t =>
    cases r
    case error f => exact ⟨t.history, rfl⟩
    case ok ts   =>
      simp only
      cases answer o ts
      case error f => exact ⟨t.history, rfl⟩
      case ok x    => cases keep <;> exact ⟨_, rfl⟩

theorem plain_compile (s : Session σ) (expression : String) :
    (s.compile expression).2.plain = s.plain := by
  obtain ⟨cache, hc⟩ := s.compile_snd expression
  rw [hc]
  rfl

theorem compile_of_coherent [Memory.Lawful σ] (h : s.Coherent) (expression : String) :
    (s.compile expression).1 = s.lexer.compile expression ∧ (s.compile expression).2.Coherent := by
  have ⟨hc, hl⟩ := h.lookup expression
  obtain ⟨cache, hs⟩ := s.lookup_snd expression
  rw [compile]
  cases hr : s.lookup expression
  case mk found t =>
    rw [hr] at hc hl hs
    cases hs
    cases found
    case some ts => exact ⟨(hl ts rfl).symm, hc⟩
    case none    =>
      simp only
      cases ht : s.lexer.compile expression
      case error f => exact ⟨rfl, hc⟩
      case ok ts   => exact ⟨rfl, hc.remember ht⟩

omit [Memory σ] in
theorem compute_plain (h : s.lexer.Fresh) (expression : String) (o : Options) :
    s.plain.compute expression o = s.lexer.compile expression >>= answer o := by
  rw [h.compile]
  simp only [Plain.compute, Lexer.compile, plain]
  cases s.lexer.toLexer.parse expression
  case error f => rfl
  case ok ts   => cases Postfix.ofTokens ts <;> rfl

-- One request changes the session as it changes one without a cache, and gets the same reply.
structure Simulates (p : Reply × Session σ) (q : Reply × Plain) : Prop where
  coherent : p.2.Coherent
  reply    : p.1 = q.1
  plain    : p.2.plain = q.2

variable [Memory.Lawful σ]

theorem evaluate_simulates (h : s.Coherent) (expression : String) (keep : Bool) (o : Options) :
    Simulates ((s.evaluate expression keep o).map .value id)
      (s.plain.evaluate expression keep o) := by
  have ⟨hr, hc⟩ := compile_of_coherent h expression
  have hp := s.plain_compile expression
  rw [evaluate, Plain.evaluate, compute_plain h.fresh, ← hr]
  cases he : s.compile expression
  case mk r t =>
    rw [he] at hc hp
    cases r
    case error f => exact ⟨hc, rfl, hp⟩
    case ok ts   =>
      simp only [Except.ok_bind]
      cases answer o ts
      case error f => exact ⟨hc, rfl, hp⟩
      case ok x    =>
        cases keep
        case false => exact ⟨hc, rfl, hp⟩
        case true  => exact ⟨hc.with_history _, rfl, congrArg (Plain.keep · expression x) hp⟩

theorem serve_simulates (h : s.Coherent) : (r : Request) → Simulates (s.serve r) (s.plain.serve r)
  | .addRules rules => by
    simp only [serve, addRules, Plain.serve, plain, Prepared.setRules]
    cases s.lexer.toLexer.addRules rules
    case error f => exact ⟨h, rfl, rfl⟩
    case ok l    => exact ⟨h.setLexer (Prepared.fresh_of l), rfl, rfl⟩
  | .setChecks checks => ⟨h.setLexer h.fresh, rfl, rfl⟩
  | .setCapacity n => ⟨h.setCapacity n, rfl, rfl⟩
  | .evaluate expression keep o => evaluate_simulates h expression keep o
  | .evaluateBytes bytes keep o => by
    simp only [serve, evaluateBytes, Plain.serve]
    cases Text.Utf8.decode bytes
    case error flaw    => exact ⟨h, rfl, rfl⟩
    case ok expression => exact evaluate_simulates h expression keep o
  | .evaluateAll expressions o => by
    refine ⟨h, ?_, rfl⟩
    simp only [serve, Plain.serve, evaluateAll, compute_plain h.fresh]
  | .clearHistory => ⟨h.with_history [], rfl, rfl⟩
  | .history => ⟨h, rfl, rfl⟩

theorem serveAll_simulates (h : s.Coherent) (rs : List Request) :
    (serveAll serve s rs).2.Coherent ∧
    (serveAll serve s rs).1 = (serveAll Plain.serve s.plain rs).1 ∧
    (serveAll serve s rs).2.plain = (serveAll Plain.serve s.plain rs).2 := by
  induction rs generalizing s
  case nil          => exact ⟨h, rfl, rfl⟩
  case cons r rs hi =>
    have ⟨hc, hr, hp⟩ := serve_simulates h r
    have ⟨hc', hr', hp'⟩ := hi hc
    simp only [serveAll]
    rw [hr, hr', hp', hp]
    exact ⟨hc', rfl, rfl⟩

theorem evaluate_fst (h : s.Coherent) (expression : String) (keep : Bool) (o : Options) :
    (s.evaluate expression keep o).1 = s.lexer.compile expression >>= answer o := by
  have ⟨hr, _⟩ := compile_of_coherent h expression
  rw [← hr, evaluate]
  cases s.compile expression
  case mk r t =>
    cases r
    case error f => rfl
    case ok ts   => simp only [Except.ok_bind]; cases answer o ts <;> rfl

theorem evaluate_standard (expression : String) (keep : Bool) (o : Options) :
    (standard.evaluate expression keep o).1 = Lexer.standard.compile expression >>= answer o :=
  evaluate_fst .standard expression keep o

end Session

namespace Plain

variable {p : Plain} {log : List (Request × Reply)}

end Plain

namespace Resigned

-- A minus that is a sign under the first rules, and a subtraction under the ones given later.
def expression : String :=
  "-7"

def sign : Token :=
  ⟨.unary .negate, "-", ⟨0, 1⟩, by decide⟩

def difference : Token :=
  ⟨.binary .subtract, "-", ⟨0, 1⟩, by decide⟩

def seven : Token :=
  ⟨.number, "7", ⟨1, 2⟩, by decide⟩

def rule (k : Kind) : Rule :=
  ⟨[k], [], [], List.cons_ne_nil _ _⟩

def numeral : String × Rule :=
  ("value", rule .number)

def minus (t : Token) : String × Rule :=
  ("minus", rule t.kind)

def session (t : Token) (history : List Entry) (kept : List (String × List Token)) : Session :=
  ⟨.of ⟨⟨[numeral, minus t]⟩, []⟩, history, some ⟨1, kept⟩⟩

def value : Float :=
  Decimal.roundTo 15 (-Decimal.toFloat ⟨7, 0⟩)

def fault : Fault :=
  .operandCount (.binary .subtract) (.exactly 2) 1

variable {t : Token}

theorem compile_expression (ht : t = sign ∨ t = difference) :
    (Lexer.mk ⟨[numeral, minus t]⟩ []).compile expression = .ok [seven, t] := by
  have hs : Text.stripped expression.toList = ['-', '7'] := by decide
  have hd : (Grammar.mk [numeral, minus t]).Divides 0 [] ['-', '7']
      [.of (minus t) 0 ['-'], .of numeral 1 ['7']] :=
    .take (w := ['-']) (by decide) (by decide) (by rcases ht with rfl | rfl <;> rfl) <|
      .take (w := ['7']) (by decide) (by decide) (by rcases ht with rfl | rfl <;> rfl) .done
  rw [Lexer.compile, Lexer.parse, hs, Lexer.tokenize, Grammar.find, ← hd.eq_divide]
  rcases ht with rfl | rfl <;> rfl

theorem compile_session (ht : t = sign ∨ t = difference) {kept : List (String × List Token)}
    (hk : kept = [] ∨ kept = [(expression, [seven, t])]) (history : List Entry) :
    (session t history kept).compile expression =
      (.ok [seven, t], session t history [(expression, [seven, t])]) := by
  rcases hk with rfl | rfl
  case inl =>
    have hl : (session t history []).lookup expression = (none, session t history []) := rfl
    have hc : (session t history []).lexer.compile expression = .ok [seven, t] :=
      compile_expression ht
    rw [Session.compile, hl]
    simp only [hc]
    rfl
  case inr => rfl

variable {kept : List (String × List Token)} (history : List Entry)

end Resigned

end Reckoner
