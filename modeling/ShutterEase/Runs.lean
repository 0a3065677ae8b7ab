import Mathlib.Data.List.Basic

/-!
Runs of a partial step function. A move that is not enabled ends the run with no state.
Conditions are stated on each move before it is made, results on each state reached.
-/
namespace Runs
variable {σ μ : Type}

section Steps
variable (step : σ → μ → Option σ)

def run (s : σ) : List μ → Option σ
  | [] => some s
  | m :: ms =>
    match step s m with
    | none => none
    | some s' => run s' ms

/-- `P` holds before every move of the run. -/
def Along (P : σ → μ → Prop) (s : σ) : List μ → Prop
  | [] => True
  | m :: ms => P s m ∧ ∀ s', step s m = some s' → Along P s' ms

/-- `Q` holds in every state of the run, the first and the last included. -/
def Throughout (Q : σ → Prop) (s : σ) : List μ → Prop
  | [] => Q s
  | m :: ms => Q s ∧ ∀ s', step s m = some s' → Throughout Q s' ms

variable {step}

@[simp] theorem run_nil (s : σ) : run step s [] = some s := rfl

theorem run_cons {s s' : σ} {m : μ} {ms : List μ} (h : run step s (m :: ms) = some s') :
    ∃ q, step s m = some q ∧ run step q ms = some s' := by
  simp only [run] at h
  split at h
  · simp at h
  · rename_i q first
    exact ⟨q, first, h⟩

theorem run_next {s q : σ} {m : μ} (first : step s m = some q) (ms : List μ) :
    run step s (m :: ms) = run step q ms := by
  simp only [run, first]

theorem run_append {s q : σ} {ms ns : List μ} (first : run step s ms = some q) :
    run step s (ms ++ ns) = run step q ns := by
  induction ms generalizing s with
  | nil =>
    simp only [run_nil, Option.some.injEq] at first
    rw [first, List.nil_append]
  | cons m ms ih =>
    obtain ⟨r, here, rest⟩ := run_cons first
    rw [List.cons_append, run_next here, ih rest]

theorem run_split {s s' : σ} {ms ns : List μ} (h : run step s (ms ++ ns) = some s') :
    ∃ q, run step s ms = some q ∧ run step q ns = some s' := by
  induction ms generalizing s with
  | nil => exact ⟨s, rfl, h⟩
  | cons m ms ih =>
    obtain ⟨r, here, rest⟩ := run_cons h
    obtain ⟨q, first, later⟩ := ih rest
    exact ⟨q, by rw [run_next here, first], later⟩

/-- Invariants of runs: kept by one step under its condition, hence by the run. -/
theorem run_invariant {P : σ → μ → Prop} (Inv : σ → Prop)
    (keeps : ∀ s m s', Inv s → P s m → step s m = some s' → Inv s')
    {ms : List μ} {s s' : σ} (first : Inv s) (along : Along step P s ms)
    (ran : run step s ms = some s') : Inv s' := by
  induction ms generalizing s with
  | nil =>
    simp only [run_nil, Option.some.injEq] at ran
    exact ran ▸ first
  | cons m ms ih =>
    obtain ⟨q, here, rest⟩ := run_cons ran
    exact ih (keeps s m q first along.1 here) (along.2 q here) rest

/-- What an invariant shows holds in every state of such a run. -/
theorem throughout_invariant {P : σ → μ → Prop} {Q : σ → Prop} (Inv : σ → Prop)
    (keeps : ∀ s m s', Inv s → P s m → step s m = some s' → Inv s') (shows : ∀ s, Inv s → Q s)
    {ms : List μ} {s : σ} (first : Inv s) (along : Along step P s ms) :
    Throughout step Q s ms := by
  induction ms generalizing s with
  | nil => exact shows s first
  | cons m ms ih =>
    refine ⟨shows s first, ?_⟩
    intro q here
    exact ih (keeps s m q first along.1 here) (along.2 q here)

theorem throughout_mono {Q R : σ → Prop} (weaker : ∀ s, Q s → R s) {ms : List μ} {s : σ}
    (all : Throughout step Q s ms) : Throughout step R s ms := by
  induction ms generalizing s with
  | nil => exact weaker s all
  | cons m ms ih =>
    obtain ⟨here, rest⟩ := all
    exact ⟨weaker s here, fun q next => ih (rest q next)⟩

theorem throughout_end {Q : σ → Prop} {ms : List μ} {s s' : σ} (all : Throughout step Q s ms)
    (ran : run step s ms = some s') : Q s' := by
  induction ms generalizing s with
  | nil =>
    simp only [run_nil, Option.some.injEq] at ran
    exact ran ▸ all
  | cons m ms ih =>
    obtain ⟨q, here, rest⟩ := run_cons ran
    exact ih (all.2 q here) rest

/-- A property of states that each step keeps exactly under `P`, and that is never regained, holds
    at the end of a run exactly when every move was made under `P`. -/
theorem run_iff_all {P : μ → Prop} {Q : σ → Prop} (Inv : σ → Prop)
    (keeps : ∀ s m s', Inv s → step s m = some s' → Inv s')
    (exact : ∀ s m s', Inv s → step s m = some s' → (Q s' ↔ Q s ∧ P m))
    {ms : List μ} {s s' : σ} (inv : Inv s) (first : Q s) (ran : run step s ms = some s') :
    Q s' ↔ ∀ m ∈ ms, P m := by
  have general : Q s' ↔ Q s ∧ ∀ m ∈ ms, P m := by
    clear first
    induction ms generalizing s with
    | nil =>
      simp only [run_nil, Option.some.injEq] at ran
      simp [ran]
    | cons m ms ih =>
      obtain ⟨q, here, rest⟩ := run_cons ran
      rw [ih (keeps s m q inv here) rest, exact s m q inv here, List.forall_mem_cons, and_assoc]
  rw [general]
  exact and_iff_right first

/-- A machine whose steps are all matched by another's is matched run by run. -/
theorem run_simulates {τ ν : Type} {other : τ → ν → Option τ} (R : σ → τ → Prop)
    (simulates : ∀ s t m s', R s t → step s m = some s' → ∃ n t', other t n = some t' ∧ R s' t')
    {ms : List μ} {s s' : σ} {t : τ} (first : R s t) (ran : run step s ms = some s') :
    ∃ ns t', run other t ns = some t' ∧ R s' t' := by
  induction ms generalizing s t with
  | nil =>
    simp only [run_nil, Option.some.injEq] at ran
    exact ⟨[], t, rfl, ran ▸ first⟩
  | cons m ms ih =>
    obtain ⟨q, here, rest⟩ := run_cons ran
    obtain ⟨n, r, there, related⟩ := simulates s t m q first here
    obtain ⟨ns, t', later, last⟩ := ih related rest
    exact ⟨n :: ns, t', (run_next there ns).trans later, last⟩

/-- Conditions that agree wherever an invariant holds agree along runs. -/
theorem along_iff {P Q : σ → μ → Prop} (Inv : σ → Prop)
    (keeps : ∀ s m s', Inv s → step s m = some s' → Inv s')
    (agree : ∀ s m, Inv s → (P s m ↔ Q s m)) {ms : List μ} {s : σ} (first : Inv s) :
    Along step P s ms ↔ Along step Q s ms := by
  induction ms generalizing s with
  | nil => exact Iff.rfl
  | cons m ms ih =>
    have later : ∀ q, step s m = some q → (Along step P q ms ↔ Along step Q q ms) :=
      fun q here => ih (keeps s m q first here)
    constructor
    · intro here
      obtain ⟨now, rest⟩ := here
      exact ⟨(agree s m first).mp now, fun q here => (later q here).mp (rest q here)⟩
    · intro here
      obtain ⟨now, rest⟩ := here
      exact ⟨(agree s m first).mpr now, fun q here => (later q here).mpr (rest q here)⟩

/-- Where an invariant holds, a state property that each enabled step keeps exactly under `P`
    holds throughout exactly along `P`. -/
theorem throughout_iff_along {P : σ → μ → Prop} {Q : σ → Prop} (Inv : σ → Prop)
    (keeps : ∀ s m s', Inv s → step s m = some s' → Inv s')
    (idle : ∀ s m, step s m = none → P s m)
    (exact : ∀ s m s', Inv s → Q s → step s m = some s' → (Q s' ↔ P s m)) {ms : List μ} {s : σ}
    (inv : Inv s) (first : Q s) : Throughout step Q s ms ↔ Along step P s ms := by
  induction ms generalizing s with
  | nil => exact ⟨fun _ => trivial, fun _ => first⟩
  | cons m ms ih =>
    cases here : step s m with
    | none =>
      constructor
      · rintro -
        exact ⟨idle s m here, fun q there => by simp [here] at there⟩
      · rintro -
        exact ⟨first, fun q there => by simp [here] at there⟩
    | some q =>
      have here_iff := exact s m q inv first here
      have inv' := keeps s m q inv here
      constructor
      · intro all
        obtain ⟨-, rest⟩ := all
        have next : Q q := by
          have after := rest q here
          cases ms with
          | nil => exact after
          | cons n ns => exact after.1
        refine ⟨here_iff.mp next, ?_⟩
        intro r there
        rw [here, Option.some.injEq] at there
        subst there
        exact (ih inv' next).mp (rest q here)
      · intro along
        obtain ⟨now, rest⟩ := along
        have next := here_iff.mpr now
        refine ⟨first, ?_⟩
        intro r there
        rw [here, Option.some.injEq] at there
        subst there
        exact (ih inv' next).mpr (rest q here)

theorem along_next {P : σ → μ → Prop} {s q : σ} {m : μ} {ms : List μ} (here : P s m)
    (first : step s m = some q) (rest : Along step P q ms) : Along step P s (m :: ms) := by
  refine ⟨here, ?_⟩
  intro r there
  rw [first, Option.some.injEq] at there
  exact there ▸ rest

theorem along_of_all {P : σ → μ → Prop} {ms : List μ} (all : ∀ m ∈ ms, ∀ s, P s m) (s : σ) :
    Along step P s ms := by
  induction ms generalizing s with
  | nil => trivial
  | cons m ms ih =>
    refine ⟨all m (by simp) s, ?_⟩
    intro q _
    exact ih (fun n member => all n (by simp [member])) q

end Steps
end Runs
