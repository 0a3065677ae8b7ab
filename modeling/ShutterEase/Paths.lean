import ShutterEase.Resumption

/-!
Every path of a program at once. An observer folds the outputs emitted so far into a state;
`Ends` says that wherever the program ends, whatever its calls were answered, the state and the
result satisfy `Q`. The rules follow the program's constructors, and a run against a service is
one of the paths.
-/
namespace Paths
open Resumption
variable {χ ρ ω ε α β σ τ : Type}

section Rules
variable {observe : τ → ω → τ}

def Ends (observe : τ → ω → τ) (Q : τ → α → Prop) (t : τ) : Prog χ ρ ω ε α → Prop
  | .done a => Q t a
  | .emit o p => Ends observe Q (observe t o) p
  | .call _ k => ∀ r, Ends observe Q t (k r)

theorem ends_mono {Q R : τ → α → Prop} (weaker : ∀ t a, Q t a → R t a) {t : τ}
    {p : Prog χ ρ ω ε α} (h : Ends observe Q t p) : Ends observe R t p := by
  induction p generalizing t with
  | done a => exact weaker t a h
  | emit o p ih => exact ih h
  | call c k ih => exact fun r => ih r (h r)

/-- What follows starts from where the first part ends. -/
theorem ends_bind {Q : τ → β → Prop} {t : τ} {p : Prog χ ρ ω ε α} {f : α → Prog χ ρ ω ε β}
    (h : Ends observe (fun u a => Ends observe Q u (f a)) t p) :
    Ends observe Q t (p.bind f) := by
  induction p generalizing t with
  | done a => exact h
  | emit o p ih => exact ih h
  | call c k ih => exact fun r => ih r (h r)

/-- No output of the program moves the observer. -/
def Steady (observe : τ → ω → τ) (p : Prog χ ρ ω ε α) : Prop :=
  ∀ t, Ends observe (fun u _ => u = t) t p

theorem ends_run {Q : τ → α → Prop} {t : τ} {p : Prog χ ρ ω ε α} (h : Ends observe Q t p)
    (serve : χ → σ → Except ε (σ × ρ)) (s : σ) :
    Q ((p.run serve s).output.foldl observe t) (p.run serve s).result := by
  induction p generalizing t s with
  | done a => exact h
  | emit o p ih => exact ih h s
  | call c k ih =>
    simp only [Prog.run]
    cases serve c s with
    | ok answer => exact ih _ (h _) answer.1
    | error e => exact ih _ (h _) s

end Rules

section Throwing
variable {observe : τ → ω → τ} {Q : τ → Except ε β → Prop} {t : τ}

/-- A part that throws ends the whole; one that ends well is followed by the rest. -/
theorem ends_andThen {p : Action χ ρ ω ε α} {f : α → Action χ ρ ω ε β}
    (h : Ends observe (fun u r => match r with
      | .ok a => Ends observe Q u (f a)
      | .error e => Q u (.error e)) t p) :
    Ends observe Q t (p >>= f : Action χ ρ ω ε β) := by
  apply ends_bind
  refine ends_mono ?_ h
  intro u r rest
  cases r with
  | ok a => exact rest
  | error e => exact rest

theorem ends_tryCatch {p : Action χ ρ ω ε β} {handle : ε → Action χ ρ ω ε β}
    (h : Ends observe (fun u r => match r with
      | .ok b => Q u (.ok b)
      | .error e => Ends observe Q u (handle e)) t p) :
    Ends observe Q t (Action.tryCatch p handle) := by
  apply ends_bind
  refine ends_mono ?_ h
  intro u r rest
  cases r with
  | ok b => exact rest
  | error e => exact rest

/-- A part that leaves the observer where it is leaves the rest to show. -/
theorem ends_steady_then {p : Action χ ρ ω ε α} {f : α → Action χ ρ ω ε β}
    (steady : Steady observe p) (threw : ∀ e, Q t (.error e))
    (rest : ∀ a, Ends observe Q t (f a)) :
    Ends observe Q t (p >>= f : Action χ ρ ω ε β) := by
  apply ends_andThen
  refine ends_mono ?_ (steady t)
  intro u r same
  subst same
  cases r with
  | ok a => exact rest a
  | error e => exact threw e

theorem steady_pure (b : β) : Steady observe (pure b : Action χ ρ ω ε β) := fun _ => rfl

theorem steady_lift (r : Except ε β) : Steady observe (Action.lift r : Action χ ρ ω ε β) :=
  fun _ => rfl

theorem steady_tell {o : ω} (still : ∀ u, observe u o = u) :
    Steady observe (Action.tell o : Action χ ρ ω ε Unit) := fun u => still u

theorem steady_request (c : χ) : Steady observe (Action.request c : Action χ ρ ω ε ρ) :=
  fun _ _ => rfl

theorem steady_andThen {p : Action χ ρ ω ε α} {f : α → Action χ ρ ω ε β}
    (hp : Steady observe p) (hf : ∀ a, Steady observe (f a)) :
    Steady observe (p >>= f : Action χ ρ ω ε β) := by
  intro u
  exact ends_steady_then hp (fun _ => rfl) fun a => hf a u

end Throwing
end Paths
