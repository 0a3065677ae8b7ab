import ShutterEase.Paths

/-!
A program with its calls on record: after each reply it says whether the call was answered or has
failed, so that an observer of paths sees outputs and failures in one order. Recording changes
neither what the program asks for nor how it ends.
-/
namespace Events
open Resumption Paths
variable {χ ρ ω ε α β σ τ : Type}

inductive Event (ω ε : Type) where
  | shown (o : ω)
  | answered
  | failed (e : ε)
  deriving DecidableEq, Repr

def outcome : Except ε ρ → Event ω ε
  | .ok _ => .answered
  | .error e => .failed e

def recorded : Prog χ ρ ω ε α → Prog χ ρ (Event ω ε) ε α
  | .done a => .done a
  | .emit o p => .emit (.shown o) (recorded p)
  | .call c k => .call c fun r => .emit (outcome r) (recorded (k r))

def output? : Event ω ε → Option ω
  | .shown o => some o
  | _ => none

theorem recorded_bind (p : Prog χ ρ ω ε α) (f : α → Prog χ ρ ω ε β) :
    recorded (p.bind f) = (recorded p).bind fun a => recorded (f a) := by
  induction p with
  | done a => rfl
  | emit o p ih => simp only [Prog.bind, recorded, ih]
  | call c k ih => simp only [Prog.bind, recorded, ih]

/-- A run on record is the run, with the calls between its outputs. -/
theorem run_recorded (serve : χ → σ → Except ε (σ × ρ)) (p : Prog χ ρ ω ε α) (s : σ) :
    p.run serve s = ⟨((recorded p).run serve s).state,
      ((recorded p).run serve s).output.filterMap output?, ((recorded p).run serve s).result⟩ := by
  induction p generalizing s with
  | done a => rfl
  | emit o p ih => simp only [recorded, Prog.run, ih s, List.filterMap_cons, output?]
  | call c k ih =>
    simp only [recorded, Prog.run]
    cases serve c s with
    | ok answer => simp only [ih (.ok answer.2) answer.1, outcome, List.filterMap_cons, output?]
    | error e => simp only [ih (.error e) s, outcome, List.filterMap_cons, output?]

/-- Wherever the program ends, its outputs and its calls' outcomes have led to `Q`. -/
def Leads (observe : τ → Event ω ε → τ) (Q : τ → α → Prop) (t : τ) (p : Prog χ ρ ω ε α) : Prop :=
  Ends observe Q t (recorded p)

section Rules
variable {observe : τ → Event ω ε → τ}

theorem leads_mono {Q R : τ → α → Prop} (weaker : ∀ t a, Q t a → R t a) {t : τ}
    {p : Prog χ ρ ω ε α} (h : Leads observe Q t p) : Leads observe R t p := ends_mono weaker h

theorem leads_bind {Q : τ → β → Prop} {t : τ} {p : Prog χ ρ ω ε α} {f : α → Prog χ ρ ω ε β}
    (h : Leads observe (fun u a => Leads observe Q u (f a)) t p) :
    Leads observe Q t (p.bind f) := by
  unfold Leads
  rw [recorded_bind]
  exact ends_bind h

theorem leads_andThen {Q : τ → Except ε β → Prop} {t : τ} {p : Action χ ρ ω ε α}
    {f : α → Action χ ρ ω ε β}
    (h : Leads observe (fun u r => match r with
      | .ok a => Leads observe Q u (f a)
      | .error e => Q u (.error e)) t p) :
    Leads observe Q t (p >>= f : Action χ ρ ω ε β) := by
  apply leads_bind
  refine leads_mono ?_ h
  intro u r rest
  cases r with
  | ok a => exact rest
  | error e => exact rest

theorem leads_tryCatch {Q : τ → Except ε α → Prop} {t : τ} {p : Action χ ρ ω ε α}
    {handle : ε → Action χ ρ ω ε α}
    (h : Leads observe (fun u r => match r with
      | .ok a => Q u (.ok a)
      | .error e => Leads observe Q u (handle e)) t p) :
    Leads observe Q t (Action.tryCatch p handle) := by
  apply leads_bind
  refine leads_mono ?_ h
  intro u r rest
  cases r with
  | ok a => exact rest
  | error e => exact rest

theorem leads_tell_then {Q : τ → Except ε α → Prop} {t : τ} {o : ω} {f : Unit → Action χ ρ ω ε α}
    (h : Leads observe Q (observe t (.shown o)) (f ())) :
    Leads observe Q t (Action.tell o >>= f : Action χ ρ ω ε α) := h

theorem leads_tell {Q : τ → Except ε Unit → Prop} {t : τ} {o : ω}
    (h : Q (observe t (.shown o)) (.ok ())) :
    Leads observe Q t (Action.tell o : Action χ ρ ω ε Unit) := h

/-- What every path leads to, a run against a service leads to. -/
theorem leads_run {Q : τ → α → Prop} {t : τ} {p : Prog χ ρ ω ε α} (h : Leads observe Q t p)
    (serve : χ → σ → Except ε (σ × ρ)) (s : σ) :
    Q (((recorded p).run serve s).output.foldl observe t) (p.run serve s).result := by
  rw [run_recorded serve p s]
  exact ends_run h serve s

end Rules

section Mute
variable {observe : τ → Event ω ε → τ}

/-- The end of a part that shows nothing: where it ends well nothing has been observed, and where
    it throws at most one failed call. -/
def Unsaid (observe : τ → Event ω ε → τ) (t u : τ) : Except ε α → Prop
  | .ok _ => u = t
  | .error _ => u = t ∨ ∃ e, u = observe t (.failed e)

def Mute (observe : τ → Event ω ε → τ) (p : Action χ ρ ω ε α) : Prop :=
  ∀ t, Leads observe (Unsaid observe t) t p

theorem mute_pure (a : α) : Mute observe (pure a : Action χ ρ ω ε α) := fun _ => rfl

theorem mute_lift (r : Except ε α) : Mute observe (Action.lift r : Action χ ρ ω ε α) := by
  intro t
  cases r with
  | ok a => rfl
  | error e => exact Or.inl rfl

theorem mute_request (still : ∀ t, observe t .answered = t) (c : χ) :
    Mute observe (Action.request c : Action χ ρ ω ε ρ) := by
  intro t r
  cases r with
  | ok a => exact still t
  | error e => exact Or.inr ⟨e, rfl⟩

theorem mute_then {p : Action χ ρ ω ε α} {f : α → Action χ ρ ω ε β}
    {Q : τ → Except ε β → Prop} {t : τ} (hp : Mute observe p)
    (threw : ∀ u e, (u = t ∨ ∃ e', u = observe t (.failed e')) → Q u (.error e))
    (rest : ∀ a, Leads observe Q t (f a)) :
    Leads observe Q t (p >>= f : Action χ ρ ω ε β) := by
  apply leads_andThen
  refine leads_mono ?_ (hp t)
  intro u r said
  cases r with
  | ok a =>
    cases (said : u = t)
    exact rest a
  | error e => exact threw u e said

theorem mute_andThen {p : Action χ ρ ω ε α} {f : α → Action χ ρ ω ε β} (hp : Mute observe p)
    (hf : ∀ a, Mute observe (f a)) : Mute observe (p >>= f : Action χ ρ ω ε β) :=
  fun t => mute_then hp (fun _ _ said => said) fun a => hf a t

end Mute
end Events
