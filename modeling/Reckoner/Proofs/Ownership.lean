import Reckoner.Separators
import Reckoner.Proofs.Lead
import Reckoner.Proofs.Outcome

namespace Reckoner

-- The separators that belong to the brackets left open by the tokens in front: to those entered
-- last, to the ones around them, and so on.
def owned : List Token → Nat → List Nat
  | [],        _ => []
  | t :: rest, d => match t.kind, d with
    | .closing,   0     => []
    | .closing,   d + 1 => owned rest d
    | .opening,   d     => owned rest (d + 1)
    | .separator, 0     => t.span.start :: owned rest 0
    | _,          d     => owned rest d

-- All opening brackets own as many separators as what stands in front of them asks for.
def Guarded : Option Token → List Token → Prop
  | _,     []        => True
  | front, t :: rest =>
    (t.kind = .opening → Separators.checkOwned front (owned rest 0) = .ok ()) ∧
      Guarded (some t) rest

section

variable {t : Token} {rest ts cs : List Token} {d : Nat}

theorem owned_opening (h : t.kind = .opening) : owned (t :: rest) d = owned rest (d + 1) := by
  simp only [owned, h]

theorem owned_closing (h : t.kind = .closing) :
    owned (t :: rest) d = match d with | 0 => [] | d + 1 => owned rest d := by
  cases d <;> simp only [owned, h]

theorem owned_separator (h : t.kind = .separator) : owned (t :: rest) d =
    match d with | 0 => t.span.start :: owned rest 0 | d + 1 => owned rest (d + 1) := by
  cases d <;> simp only [owned, h]

theorem owned_other (ho : t.kind ≠ .opening) (hc : t.kind ≠ .closing) (hs : t.kind ≠ .separator) :
    owned (t :: rest) d = owned rest d := by
  simp only [owned]
  split <;> simp_all

theorem owned_cons_congr {rest' : List Token} (h : owned rest = owned rest') :
    owned (t :: rest) = owned (t :: rest') := by
  funext d
  simp only [owned, h]

theorem owned_closings (h : ∀ c ∈ cs, c.kind = .closing) : owned cs = owned [] := by
  funext d
  induction cs generalizing d
  case nil          => rfl
  case cons c cs hi =>
    rw [owned_closing <| h c List.mem_cons_self]
    split
    case h_1   => rfl
    case h_2 d => exact hi (fun c hc => h c (List.mem_cons_of_mem _ hc)) d

theorem owned_append_closings (h : ∀ c ∈ cs, c.kind = .closing) : owned (ts ++ cs) = owned ts := by
  induction ts
  case nil          => exact owned_closings h
  case cons t ts hi => exact owned_cons_congr hi

end

namespace Frames

variable {f : Frames} {d p : Nat}

def frame (f : Frames) : Nat → List Nat
  | 0     => f.inner
  | d + 1 => f.outer.getD d []

theorem frame_empty : empty.frame d = [] := by
  cases d <;> rfl

theorem frame_enter : f.enter.frame d = match d with | 0 => [] | d + 1 => f.frame d := by
  cases d
  case zero   => rfl
  case succ d => cases d <;> rfl

theorem frame_leave : f.leave.frame d = f.frame (d + 1) := by
  have ⟨_, outer⟩ := f
  cases d <;> cases outer <;> rfl

theorem frame_add :
    (f.add p).frame d = match d with | 0 => p :: f.frame 0 | d + 1 => f.frame (d + 1) := by
  cases d <;> rfl

theorem all_eq_nil : f.all = [] ↔ ∀ d, f.frame d = [] := by
  have ⟨inner, outer⟩ := f
  simp only [all, List.append_eq_nil_iff, List.flatten_eq_nil_iff]
  constructor
  · rintro ⟨hi, ho⟩ (_ | d)
    · exact hi
    · rw [frame, List.getD_eq_getElem?_getD]
      cases hd : outer[d]?
      case none   => rfl
      case some x => exact ho x (List.mem_of_getElem? hd)
  · intro h
    refine ⟨h 0, fun x hx => ?_⟩
    have ⟨d, hd⟩ := List.getElem?_of_mem hx
    have hf := h (d + 1)
    rwa [frame, List.getD_eq_getElem?_getD, hd] at hf

def read (f : Frames) (t : Token) : Frames :=
  match t.kind with
  | .closing   => f.enter
  | .separator => f.add t.span.start
  | .opening   => f.leave
  | _          => f

def of : List Token → Frames
  | []        => empty
  | t :: rest => (of rest).read t

-- The frames hold what the tokens that were read own.
theorem frame_of {ts : List Token} : (of ts).frame = owned ts := by
  induction ts
  case nil =>
    funext d
    exact frame_empty
  case cons t ts hi =>
    funext d
    rw [of, read]
    split
    case h_1 hk => rw [owned_closing hk, frame_enter, hi]
    case h_2 hk => rw [owned_separator hk, frame_add, hi]
    case h_3 hk => rw [owned_opening hk, frame_leave, hi]
    case h_4 hc hs ho => rw [owned_other ho hc hs, hi]

end Frames

namespace Separators

theorem checkOwned_function {f : Token} {positions : List Nat} (h : f.kind ∈ Kind.functions) :
    checkOwned (some f) positions = .ok () ↔
      f.kind.arity.any (·.allows (positions.length + 1)) := by
  have ⟨g, _, hg⟩ := List.mem_map.mp h
  have ha : g.arity.separators.allows positions.length = g.arity.allows (positions.length + 1) := by
    cases g <;> simp [Func.arity, Arity.separators, Arity.allows, Arity.exactly, Arity.atLeast]
  simp only [checkOwned, Option.bind_some, ← hg, Kind.function?, Option.map_some, ha, Kind.arity,
    Option.any_some]
  split <;> simp_all

theorem checkOwned_other {front : Option Token} {positions : List Nat}
    (h : ∀ f ∈ front, f.kind ∉ Kind.functions) :
    checkOwned front positions = .ok () ↔ positions = [] := by
  have hn : (front.bind fun t => t.kind.function?.map (t.text, ·.arity.separators)) = none := by
    cases front
    case none   => rfl
    case some f =>
      have hf : f.kind.function? = none :=
        (by decide : ∀ k : Kind, k ∉ Kind.functions → k.function? = none) f.kind (h f rfl)
      simp [hf]
  rw [checkOwned, hn]
  simp only [List.isEmpty_iff]
  split <;> simp_all

def rightmost (front : Option Token) : List Token → Except Fault Unit
  | []        => .ok ()
  | t :: rest => do
    rightmost (some t) rest
    if t.kind = .opening then checkOwned front (owned rest 0) else .ok ()

theorem backwards_cons {f : Frames} {t : Token} {rest : List Token} :
    backwards f (t :: rest) =
      (if t.kind = .opening then checkOwned rest.head? f.inner else .ok ()) >>= fun _ =>
        backwards (f.read t) rest := by
  rw [backwards, Frames.read]
  cases t.kind <;> rfl

theorem backwards_of (rev post : List Token) :
    (rightmost rev.head? post >>= fun _ => backwards (.of post) rev) =
      rightmost none (rev.reverse ++ post) >>= fun _ =>
        backwards (.of (rev.reverse ++ post)) [] := by
  induction rev generalizing post
  case nil => rfl
  case cons t rev hi =>
    have ho : (Frames.of post).inner = owned post 0 := congrFun Frames.frame_of 0
    rw [List.reverse_cons, List.append_assoc, List.singleton_append, ← hi (t :: post),
      backwards_cons, ho, rightmost, bind_assoc]
    rfl

theorem check_eq {ts : List Token} :
    check ts = rightmost none ts >>= fun _ => backwards (.of ts) [] := by
  have h := backwards_of ts.reverse []
  rwa [List.reverse_reverse, List.append_nil] at h

theorem rightmost_eq_ok {front : Option Token} {ts : List Token} :
    rightmost front ts = .ok () ↔ Guarded front ts := by
  induction ts generalizing front
  case nil          => exact iff_of_true rfl trivial
  case cons t ts hi =>
    rw [rightmost, Guarded, Except.check_bind_eq_ok, hi, and_comm]
    split <;> simp_all

theorem backwards_nil_eq_ok {f : Frames} : backwards f [] = .ok () ↔ f.all = [] := by
  rw [backwards, ← List.isEmpty_iff]
  split <;> simp_all

theorem check_iff {ts : List Token} :
    check ts = .ok () ↔ Guarded none ts ∧ ∀ d, owned ts d = [] := by
  rw [check_eq, Except.check_bind_eq_ok, rightmost_eq_ok, backwards_nil_eq_ok, Frames.all_eq_nil,
    Frames.frame_of]

end Separators
end Reckoner
