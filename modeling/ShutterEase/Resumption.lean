import Mathlib.Data.List.Basic

/-!
Programs that await replies. A program is a tree of calls, each continued by the reply it
gets or by the error it fails with; outputs are emitted between calls. Programs run alone
against a service, or interleaved call by call in a pool that shares the service's state.
-/
namespace Resumption

inductive Prog (χ ρ ω ε α : Type) where
  | done (a : α)
  | emit (o : ω) (next : Prog χ ρ ω ε α)
  | call (c : χ) (next : Except ε ρ → Prog χ ρ ω ε α)

variable {χ ρ ω ε α β σ ι : Type}

namespace Prog

def bind : Prog χ ρ ω ε α → (α → Prog χ ρ ω ε β) → Prog χ ρ ω ε β
  | .done a, f => f a
  | .emit o p, f => .emit o (p.bind f)
  | .call c k, f => .call c fun r => (k r).bind f

end Prog

/-- A program that may end by throwing. -/
def Action (χ ρ ω ε α : Type) : Type := Prog χ ρ ω ε (Except ε α)

namespace Action

def ret (a : α) : Action χ ρ ω ε α := Prog.done (.ok a)

def throw (e : ε) : Action χ ρ ω ε α := Prog.done (.error e)

def andThen (p : Action χ ρ ω ε α) (f : α → Action χ ρ ω ε β) : Action χ ρ ω ε β :=
  Prog.bind p fun
    | .ok a => f a
    | .error e => Prog.done (.error e)

def tryCatch (p : Action χ ρ ω ε α) (handle : ε → Action χ ρ ω ε α) : Action χ ρ ω ε α :=
  Prog.bind p fun
    | .ok a => Prog.done (.ok a)
    | .error e => handle e

def request (c : χ) : Action χ ρ ω ε ρ := Prog.call c Prog.done

def tell (o : ω) : Action χ ρ ω ε Unit := Prog.emit o (Prog.done (.ok ()))

/-- A value computed on the spot, or the error thrown on the spot. -/
def lift (r : Except ε α) : Action χ ρ ω ε α := Prog.done r

instance : Monad (Action χ ρ ω ε) where
  pure := ret
  bind := andThen

end Action

@[simp] theorem Action.lift_ok_bind (a : α) (f : α → Action χ ρ ω ε β) :
    (Action.lift (.ok a) >>= f : Action χ ρ ω ε β) = f a := rfl

@[simp] theorem Action.lift_error_bind (e : ε) (f : α → Action χ ρ ω ε β) :
    (Action.lift (.error e) >>= f : Action χ ρ ω ε β) = Action.throw e := rfl

structure Outcome (σ ω α : Type) where
  state : σ
  output : List ω
  result : α

section Alone
variable (serve : χ → σ → Except ε (σ × ρ))

/-- A run with no other client, every call answered by the service. -/
def Prog.run : Prog χ ρ ω ε α → σ → Outcome σ ω α
  | .done a, s => ⟨s, [], a⟩
  | .emit o p, s =>
    let rest := p.run s
    { rest with output := o :: rest.output }
  | .call c k, s =>
    match serve c s with
    | .ok (s', r) => (k (.ok r)).run s'
    | .error e => (k (.error e)).run s

theorem Prog.run_bind (p : Prog χ ρ ω ε α) (f : α → Prog χ ρ ω ε β) (s : σ) :
    (p.bind f).run serve s =
      { (f (p.run serve s).result).run serve (p.run serve s).state with
        output := (p.run serve s).output ++
          ((f (p.run serve s).result).run serve (p.run serve s).state).output } := by
  induction p generalizing s with
  | done a => simp [Prog.bind, Prog.run]
  | emit o p ih => simp [Prog.bind, Prog.run, ih]
  | call c k ih =>
    simp only [Prog.bind, Prog.run]
    cases serve c s with
    | ok answer => exact ih _ _
    | error e => exact ih _ _

theorem Prog.run_state_bind (p : Prog χ ρ ω ε α) (f : α → Prog χ ρ ω ε β) (s : σ) :
    ((p.bind f).run serve s).state =
        ((f (p.run serve s).result).run serve (p.run serve s).state).state ∧
      ((p.bind f).run serve s).result =
        ((f (p.run serve s).result).run serve (p.run serve s).state).result := by
  rw [Prog.run_bind]
  exact ⟨rfl, rfl⟩

/-- A run with all it leaves: the store, the outputs, and how it ends. -/
def Action.play (p : Action χ ρ ω ε α) (s : σ) : Outcome σ ω (Except ε α) := Prog.run serve p s

namespace Action

@[simp] theorem play_pure (a : α) (s : σ) :
    play serve (pure a : Action χ ρ ω ε α) s = ⟨s, [], .ok a⟩ := rfl

@[simp] theorem play_lift (r : Except ε α) (s : σ) :
    play serve (lift r : Action χ ρ ω ε α) s = ⟨s, [], r⟩ := rfl

@[simp] theorem play_tell (o : ω) (s : σ) :
    play serve (tell o : Action χ ρ ω ε Unit) s = ⟨s, [o], .ok ()⟩ := rfl

/-- A run goes on after a part that ended well, and stops at one that threw. -/
theorem play_bind (p : Action χ ρ ω ε α) (f : α → Action χ ρ ω ε β) (s : σ) :
    play serve (p >>= f) s =
      match play serve p s with
      | ⟨s', shown, .ok a⟩ =>
        { play serve (f a) s' with output := shown ++ (play serve (f a) s').output }
      | ⟨s', shown, .error e⟩ => ⟨s', shown, .error e⟩ := by
  have whole := Prog.run_bind serve p
    (fun | .ok a => f a | .error e => Prog.done (.error e) : Except ε α → _) s
  refine Eq.trans whole ?_
  unfold play
  generalize Prog.run serve p s = first
  obtain ⟨s', shown, result⟩ := first
  cases result with
  | ok a => rfl
  | error e => simp [Prog.run]

theorem play_tryCatch (p : Action χ ρ ω ε α) (handle : ε → Action χ ρ ω ε α) (s : σ) :
    play serve (tryCatch p handle) s =
      match play serve p s with
      | ⟨s', shown, .ok a⟩ => ⟨s', shown, .ok a⟩
      | ⟨s', shown, .error e⟩ =>
        { play serve (handle e) s' with output := shown ++ (play serve (handle e) s').output } := by
  have whole := Prog.run_bind serve p
    (fun | .ok a => Prog.done (.ok a) | .error e => handle e : Except ε α → _) s
  refine Eq.trans whole ?_
  unfold play
  generalize Prog.run serve p s = first
  obtain ⟨s', shown, result⟩ := first
  cases result with
  | ok a => simp [Prog.run]
  | error e => rfl

end Action

/-- What a run alone leaves in the store, and how it ends. -/
def Action.exec (p : Action χ ρ ω ε α) (s : σ) : σ × Except ε α :=
  ((Prog.run serve p s).state, (Prog.run serve p s).result)

namespace Action

@[simp] theorem exec_pure (a : α) (s : σ) :
    exec serve (pure a : Action χ ρ ω ε α) s = (s, .ok a) := rfl

@[simp] theorem exec_throw (e : ε) (s : σ) :
    exec serve (throw e : Action χ ρ ω ε α) s = (s, .error e) := rfl

@[simp] theorem exec_lift (r : Except ε α) (s : σ) :
    exec serve (lift r : Action χ ρ ω ε α) s = (s, r) := rfl

@[simp] theorem exec_tell (o : ω) (s : σ) :
    exec serve (tell o : Action χ ρ ω ε Unit) s = (s, .ok ()) := rfl

@[simp] theorem exec_request (c : χ) (s : σ) :
    exec serve (request c : Action χ ρ ω ε ρ) s =
      match serve c s with
      | .ok (s', r) => (s', .ok r)
      | .error e => (s, .error e) := by
  simp only [exec, request, Prog.run]
  cases serve c s <;> rfl

@[simp] theorem exec_bind (p : Action χ ρ ω ε α) (f : α → Action χ ρ ω ε β) (s : σ) :
    exec serve (p >>= f) s =
      match exec serve p s with
      | (s', .ok a) => exec serve (f a) s'
      | (s', .error e) => (s', .error e) := by
  have both := Prog.run_state_bind serve p
    (fun | .ok a => f a | .error e => Prog.done (.error e) : Except ε α → _) s
  change (Prod.mk _ _ : σ × Except ε β) = _
  rw [show (p >>= f : Action χ ρ ω ε β) = Prog.bind p _ from rfl, both.1, both.2]
  simp only [exec]
  cases (Prog.run serve p s).result <;> rfl

@[simp] theorem exec_tryCatch (p : Action χ ρ ω ε α) (handle : ε → Action χ ρ ω ε α) (s : σ) :
    exec serve (tryCatch p handle) s =
      match exec serve p s with
      | (s', .ok a) => (s', .ok a)
      | (s', .error e) => exec serve (handle e) s' := by
  have both := Prog.run_state_bind serve p
    (fun | .ok a => Prog.done (.ok a) | .error e => handle e : Except ε α → _) s
  change (Prod.mk _ _ : σ × Except ε α) = _
  rw [show (tryCatch p handle : Action χ ρ ω ε α) = Prog.bind p _ from rfl, both.1, both.2]
  simp only [exec]
  cases (Prog.run serve p s).result <;> rfl

end Action
end Alone
end Resumption
