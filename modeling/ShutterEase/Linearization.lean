import ShutterEase.Interleaving

/-!
Clients whose calls change nothing until the last one, which then does what the whole program
does alone. Interleaved in any way, with any failures, such clients leave what their programs
leave one after the other, in the order in which they ended.
-/
namespace Linearization
open Resumption Interleaving Runs
variable {χ ρ ω ε α σ ι : Type}

section Clients
variable (serve : χ → σ → Except ε (σ × ρ)) (program : ι → Prog χ ρ ω ε α)

def effect (op : ι) (s : σ) : σ := ((program op).run serve s).state

/-- From here on the client changes nothing until an answer ends it, and that answer does what
    `after` does: as long as `C` holds of the store and the call whenever one is answered. -/
def CommitsOnce (C : σ → χ → Prop) (after : σ → σ) : Prog χ ρ ω ε α → Prop
  | .done _ => True
  | .emit _ p => CommitsOnce C after p
  | .call c k =>
    (∀ s s' r, C s c → serve c s = .ok (s', r) →
      awaiting (k (.ok r)) = none ∧ s' = after s ∨
        s' = s ∧ CommitsOnce C after (k (.ok r)) ∧ awaiting (k (.ok r)) ≠ none) ∧
      ∀ e, awaiting (k (.error e)) = none

variable {serve program} {C : σ → χ → Prop} {after : σ → σ}

theorem commits_awaited {p : Prog χ ρ ω ε α} {c : χ} {k : Except ε ρ → Prog χ ρ ω ε α}
    (commits : CommitsOnce serve C after p) (waits : awaiting p = some (c, k)) :
    CommitsOnce serve C after (.call c k) := by
  induction p with
  | done a => simp [awaiting] at waits
  | emit o p ih => exact ih commits waits
  | call d j ih =>
    simp only [awaiting, Option.some.injEq, Prod.mk.injEq] at waits
    obtain ⟨rfl, rfl⟩ := waits
    exact commits

theorem awaiting_of_quiet {p : Prog χ ρ ω ε α} (quiet : Quiet p) : awaiting p = none := by
  induction p with
  | done a => rfl
  | emit o p ih => exact ih quiet
  | call c k ih => exact quiet.1.elim

theorem state_of_quiet {p : Prog χ ρ ω ε α} (quiet : Quiet p) (s : σ) :
    (p.run serve s).state = s := by
  induction p with
  | done a => rfl
  | emit o p ih => exact ih quiet
  | call c k ih => exact quiet.1.elim

theorem commits_of_single {p : Prog χ ρ ω ε α}
    (single : Opens (fun _ => True) (fun _ _ _ => False) p)
    (alone : ∀ s, (p.run serve s).state = after s) : CommitsOnce serve C after p := by
  induction p with
  | done a => trivial
  | emit o p ih => exact ih single alone
  | call c k ih =>
    constructor
    · intro s s' r _ served
      have left := alone s
      simp only [Prog.run, served, state_of_quiet (single.2 (.ok r))] at left
      exact Or.inl ⟨awaiting_of_quiet (single.2 _), left⟩
    · exact fun e => awaiting_of_quiet (single.2 _)

end Clients

section Pools
variable (serve : χ → σ → Except ε (σ × ρ)) (program : ι → Prog χ ρ ω ε α)

def begun (started : List ι) : Move ι ε → List ι
  | .start op => started ++ [op]
  | _ => started

/-- The operation, if any, that the move has just ended by an answer. -/
def ends (started : List ι) (p : Pool χ ρ ω ε α σ) : Move ι ε → List ι
  | .answer i => if p.ended i then started[i]?.toList else []
  | _ => []

/-- The operations in the order in which they ended; one that a failure ended is not among
    them. -/
def finished (started : List ι) (p : Pool χ ρ ω ε α σ) : List (Move ι ε) → List ι
  | [] => []
  | m :: rest =>
    match p.step serve program m with
    | none => []
    | some p' => ends started p' m ++ finished (begun started m) p' rest

/-- Each client that still waits commits with what its operation does alone. -/
def Committing (C : σ → χ → Prop) (started : List ι) (p : Pool χ ρ ω ε α σ) : Prop :=
  p.clients.length = started.length ∧ ∀ (i : Nat) q op, p.clients[i]? = some q →
    started[i]? = some op →
      awaiting q = none ∨ CommitsOnce serve C (effect serve program op) q

def Served (C : σ → χ → Prop) (p : Pool χ ρ ω ε α σ) (m : Move ι ε) : Prop :=
  ∀ i c k, m = .answer i → p.Awaits i c k → C p.store c

variable {serve program} {C : σ → χ → Prop} {started : List ι} {p p' : Pool χ ρ ω ε α σ}
    {m : Move ι ε}

theorem committing_start (inv : Committing serve program C started p) {op : ι}
    (commits : CommitsOnce serve C (effect serve program op) (program op)) :
    Committing serve program C (started ++ [op]) ⟨p.store, p.clients ++ [program op]⟩ := by
  obtain ⟨same, each⟩ := inv
  refine ⟨by simp [same], ?_⟩
  intro i q op' at_i started_i
  by_cases old : i < p.clients.length
  · rw [List.getElem?_append_left old] at at_i
    rw [List.getElem?_append_left (same ▸ old)] at started_i
    exact each i q op' at_i started_i
  · rw [List.getElem?_append_right (by omega)] at at_i
    rw [List.getElem?_append_right (by omega)] at started_i
    obtain ⟨-, rfl⟩ := List.getElem?_eq_some_iff.mp at_i
    obtain ⟨-, rfl⟩ := List.getElem?_eq_some_iff.mp started_i
    simp only [List.getElem_singleton]
    exact Or.inr commits

theorem committing_set (inv : Committing serve program C started p) {i : Nat} (s : σ)
    {q : Prog χ ρ ω ε α} {op : ι} (own : started[i]? = some op)
    (next : awaiting q = none ∨ CommitsOnce serve C (effect serve program op) q) :
    Committing serve program C started ⟨s, p.clients.set i q⟩ := by
  obtain ⟨same, each⟩ := inv
  refine ⟨by simp [same], ?_⟩
  intro j q' op' at_j started_j
  by_cases here : j = i
  · subst here
    rw [own, Option.some.injEq] at started_j
    subst started_j
    rw [List.getElem?_set] at at_j
    simp only [↓reduceIte] at at_j
    split at at_j
    · cases at_j
      exact next
    · simp at at_j
  · rw [List.getElem?_set_ne (Ne.symm here)] at at_j
    exact each j q' op' at_j started_j

theorem awaits_commits (inv : Committing serve program C started p) {i : Nat} {c : χ}
    {k : Except ε ρ → Prog χ ρ ω ε α} (waits : p.Awaits i c k) :
    ∃ op, started[i]? = some op ∧ CommitsOnce serve C (effect serve program op) (.call c k) := by
  obtain ⟨q, at_i, next⟩ := waits
  have in_range : i < started.length := inv.1 ▸ (List.getElem?_eq_some_iff.mp at_i).1
  have own : started[i]? = some started[i] := List.getElem?_eq_getElem in_range
  rcases inv.2 i q _ at_i own with closed | commits
  · simp [closed] at next
  · exact ⟨_, own, commits_awaited commits next⟩

/-- One step: what it ends is what it does to the store. -/
theorem committing_step (total : ∀ c s, ∃ s' r, serve c s = .ok (s', r))
    (inv : Committing serve program C started p)
    (commits : ∀ op, m = .start op → CommitsOnce serve C (effect serve program op) (program op))
    (fresh : Served C p m) (h : p.step serve program m = some p') :
    Committing serve program C (begun started m) p' ∧
      p'.store = (ends started p' m).foldl (fun s op => effect serve program op s) p.store := by
  cases step_cases h with
  | started op => exact ⟨committing_start inv (commits op rfl), rfl⟩
  | @answered i c k s r waits served =>
    obtain ⟨op, own, client⟩ := awaits_commits inv waits
    have allowed := fresh i c k rfl waits
    obtain ⟨q, at_i, -⟩ := waits
    rcases client.1 p.store s r allowed served with
      ⟨closed, done⟩ | ⟨kept, later, open_still⟩
    · refine ⟨committing_set inv s own (Or.inl closed), ?_⟩
      simp [ends, ended_set_same at_i, closed, own, done]
    · refine ⟨committing_set inv s own (Or.inr later), ?_⟩
      have waiting : (awaiting (k (.ok r))).isNone = false := by
        cases next : awaiting (k (.ok r)) with
        | none => exact absurd next open_still
        | some call => rfl
      simp [ends, ended_set_same at_i, waiting, kept]
  | @refused i c k e _ waits why =>
    obtain ⟨op, own, client⟩ := awaits_commits inv waits
    rcases why with rfl | ⟨rfl, refused⟩
    · exact ⟨committing_set inv p.store own (Or.inl (client.2 e)), rfl⟩
    · obtain ⟨s', r, served⟩ := total c p.store
      rw [served] at refused
      cases refused

/-- Any interleaving leaves what the finished operations leave one after the other. -/
theorem run_linearizes (total : ∀ c s, ∃ s' r, serve c s = .ok (s', r))
    (inv : Committing serve program C started p) {moves : List (Move ι ε)}
    (commits : ∀ op, .start op ∈ moves →
      CommitsOnce serve C (effect serve program op) (program op))
    (fresh : Along (fun p m => p.step serve program m) (Served C) p moves)
    (ran : run (fun p m => p.step serve program m) p moves = some p') :
    p'.store = (finished serve program started p moves).foldl
      (fun s op => effect serve program op s) p.store := by
  induction moves generalizing started p with
  | nil =>
    simp only [run_nil, Option.some.injEq] at ran
    rw [ran]
    rfl
  | cons m rest ih =>
    obtain ⟨q, here, later⟩ := run_cons ran
    obtain ⟨inv', stored⟩ := committing_step total inv
      (fun op same => commits op (by simp [same])) fresh.1 here
    have whole := ih inv' (fun op member => commits op (by simp [member])) (fresh.2 q here) later
    simp only [finished, here, List.foldl_append]
    rw [whole, stored]

end Pools
end Linearization
