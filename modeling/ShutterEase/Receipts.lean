import ShutterEase.Interleaving

/-!
Claims that a client makes once a call of its own has been answered. A client owes as long as no
answered call has left the store paid; while it owes it makes no claim. Where nobody ever
unsettles a paid store, a claim on display means that the store is paid.
-/
namespace Receipts
open Resumption Interleaving Runs
variable {χ ρ ω ε α β σ ι : Type}

section Clients
variable (serve : χ → σ → Except ε (σ × ρ)) (Inv paid : σ → Prop)

/-- Answered from stores with `Inv`, the client keeps it, and keeps a paid store paid. -/
def Settles : Prog χ ρ ω ε α → Prop
  | .done _ => True
  | .emit _ p => Settles p
  | .call c k =>
    (∀ s s' r, Inv s → serve c s = .ok (s', r) →
      Inv s' ∧ (paid s → paid s') ∧ Settles (k (.ok r))) ∧ ∀ e, Settles (k (.error e))

/-- The client makes no claim before it has paid. Where it ends still owing, the result
    satisfies `Q`. -/
def Owes (claim : ω → Prop) (Q : α → Prop) : Prog χ ρ ω ε α → Prop
  | .done a => Q a
  | .emit o p => ¬ claim o ∧ Owes claim Q p
  | .call c k =>
    (∀ s s' r, Inv s → serve c s = .ok (s', r) → paid s' ∨ Owes claim Q (k (.ok r))) ∧
      ∀ e, Owes claim Q (k (.error e))

variable {serve Inv paid} {claim : ω → Prop}

theorem owes_mono {Q R : α → Prop} (weaker : ∀ a, Q a → R a) {p : Prog χ ρ ω ε α}
    (h : Owes serve Inv paid claim Q p) : Owes serve Inv paid claim R p := by
  induction p with
  | done a => exact weaker a h
  | emit o p ih => exact ⟨h.1, ih h.2⟩
  | call c k ih =>
    refine ⟨?_, fun e => ih _ (h.2 e)⟩
    intro s s' r inv served
    rcases h.1 s s' r inv served with done | owing
    · exact Or.inl done
    · exact Or.inr (ih _ owing)

theorem owes_bind {Q : β → Prop} {p : Prog χ ρ ω ε α} {f : α → Prog χ ρ ω ε β}
    (h : Owes serve Inv paid claim (fun a => Owes serve Inv paid claim Q (f a)) p) :
    Owes serve Inv paid claim Q (p.bind f) := by
  induction p with
  | done a => exact h
  | emit o p ih => exact ⟨h.1, ih h.2⟩
  | call c k ih =>
    refine ⟨?_, fun e => ih _ (h.2 e)⟩
    intro s s' r inv served
    rcases h.1 s s' r inv served with done | owing
    · exact Or.inl done
    · exact Or.inr (ih _ owing)

theorem owes_andThen {Q : Except ε β → Prop} {p : Action χ ρ ω ε α} {f : α → Action χ ρ ω ε β}
    (h : Owes serve Inv paid claim (fun r => match r with
      | .ok a => Owes serve Inv paid claim Q (f a)
      | .error e => Q (.error e)) p) :
    Owes serve Inv paid claim Q (p >>= f : Action χ ρ ω ε β) := by
  apply owes_bind
  refine owes_mono ?_ h
  intro r rest
  cases r with
  | ok a => exact rest
  | error e => exact rest

theorem owes_tryCatch {Q : Except ε α → Prop} {p : Action χ ρ ω ε α}
    {handle : ε → Action χ ρ ω ε α}
    (h : Owes serve Inv paid claim (fun r => match r with
      | .ok a => Q (.ok a)
      | .error e => Owes serve Inv paid claim Q (handle e)) p) :
    Owes serve Inv paid claim Q (Action.tryCatch p handle) := by
  apply owes_bind
  refine owes_mono ?_ h
  intro r rest
  cases r with
  | ok a => exact rest
  | error e => exact rest

theorem owes_tell_then {Q : Except ε α → Prop} {o : ω} {f : Unit → Action χ ρ ω ε α}
    (silent : ¬ claim o) (h : Owes serve Inv paid claim Q (f ())) :
    Owes serve Inv paid claim Q (Action.tell o >>= f : Action χ ρ ω ε α) := ⟨silent, h⟩

theorem owes_request_then {Q : Except ε α → Prop} {c : χ} {f : ρ → Action χ ρ ω ε α}
    (answered : ∀ s s' r, Inv s → serve c s = .ok (s', r) →
      paid s' ∨ Owes serve Inv paid claim Q (f r)) (failed : ∀ e, Q (.error e)) :
    Owes serve Inv paid claim Q (Action.request c >>= f : Action χ ρ ω ε α) :=
  ⟨answered, failed⟩

theorem settles_awaited {p : Prog χ ρ ω ε α} {c : χ} {k : Except ε ρ → Prog χ ρ ω ε α}
    (h : Settles serve Inv paid p) (waits : awaiting p = some (c, k)) :
    Settles serve Inv paid (.call c k) := by
  induction p with
  | done a => simp [awaiting] at waits
  | emit o p ih => exact ih h waits
  | call d j ih =>
    simp only [awaiting, Option.some.injEq, Prod.mk.injEq] at waits
    obtain ⟨rfl, rfl⟩ := waits
    exact h

theorem owes_awaited {Q : α → Prop} {p : Prog χ ρ ω ε α} {c : χ}
    {k : Except ε ρ → Prog χ ρ ω ε α} (h : Owes serve Inv paid claim Q p)
    (waits : awaiting p = some (c, k)) : Owes serve Inv paid claim Q (.call c k) := by
  induction p with
  | done a => simp [awaiting] at waits
  | emit o p ih => exact ih h.2 waits
  | call d j ih =>
    simp only [awaiting, Option.some.injEq, Prod.mk.injEq] at waits
    obtain ⟨rfl, rfl⟩ := waits
    exact h

/-- A program settles when its opening call and every call that an answer allows do. -/
theorem settles_of_issues {p : Prog χ ρ ω ε α}
    (h : Issues (fun c => ∀ s s' r, Inv s → serve c s = .ok (s', r) →
      Inv s' ∧ (paid s → paid s')) p) : Settles serve Inv paid p := by
  induction p with
  | done a => trivial
  | emit o p ih => exact ih h
  | call c k ih =>
    refine ⟨?_, fun e => ih _ (h.2 _)⟩
    intro s s' r inv served
    obtain ⟨kept, stays⟩ := h.1 s s' r inv served
    exact ⟨kept, stays, ih _ (h.2 _)⟩

theorem settles_of_opens {F : χ → Prop} {Q : χ → Except ε ρ → χ → Prop} {p : Prog χ ρ ω ε α}
    (h : Opens F Q p)
    (first : ∀ c, F c → ∀ s s' r, Inv s → serve c s = .ok (s', r) → Inv s' ∧ (paid s → paid s'))
    (answered : ∀ c s s' r c', F c → Inv s → serve c s = .ok (s', r) → Q c (.ok r) c' →
      ∀ t t' r', Inv t → serve c' t = .ok (t', r') → Inv t' ∧ (paid t → paid t'))
    (failed : ∀ c e c', F c → Q c (.error e) c' →
      ∀ t t' r', Inv t → serve c' t = .ok (t', r') → Inv t' ∧ (paid t → paid t')) :
    Settles serve Inv paid p := by
  induction p with
  | done a => trivial
  | emit o p ih => exact ih h
  | call c k ih =>
    constructor
    · intro s s' r inv served
      obtain ⟨kept, stays⟩ := first c h.1 s s' r inv served
      exact ⟨kept, stays, settles_of_issues (issues_mono (h.2 _) fun c' allowed =>
        answered c s s' r c' h.1 inv served allowed)⟩
    · intro e
      exact settles_of_issues (issues_mono (h.2 _) fun c' allowed => failed c e c' h.1 allowed)

end Clients

/-- What a client has shown since its last answer. -/
def onDisplay : Prog χ ρ ω ε α → List ω
  | .emit o p => o :: onDisplay p
  | _ => []

section Pools
variable {serve : χ → σ → Except ε (σ × ρ)} {Inv paid : σ → Prop} {claim : ω → Prop}
  {program : ι → Prog χ ρ ω ε α}

theorem silent_of_owes {Q : α → Prop} {p : Prog χ ρ ω ε α}
    (h : Owes serve Inv paid claim Q p) : ∀ o ∈ onDisplay p, ¬ claim o := by
  induction p with
  | done a => simp [onDisplay]
  | emit o p ih =>
    intro o' member
    rcases List.mem_cons.mp member with rfl | later
    · exact h.1
    · exact ih h.2 o' later
  | call c k ih => simp [onDisplay]

/-- Every client settles, and the client at `i` owes unless the store is paid. -/
structure Accounted (serve : χ → σ → Except ε (σ × ρ)) (Inv paid : σ → Prop) (claim : ω → Prop)
    (Q : α → Prop) (i : Nat) (p : Pool χ ρ ω ε α σ) : Prop where
  inv : Inv p.store
  settles : ∀ q ∈ p.clients, Settles serve Inv paid q
  owes : ∃ q, p.clients[i]? = some q ∧ (paid p.store ∨ Owes serve Inv paid claim Q q)

theorem stepped_settles {p p' : Pool χ ρ ω ε α σ} {m : Move ι ε} (inv : Inv p.store)
    (all : ∀ q ∈ p.clients, Settles serve Inv paid q)
    (started : ∀ op, m = .start op → Settles serve Inv paid (program op))
    (h : Stepped serve program p m p') :
    (Inv p'.store ∧ ∀ q ∈ p'.clients, Settles serve Inv paid q) ∧ (paid p.store → paid p'.store) := by
  cases h with
  | started op =>
    refine ⟨⟨inv, ?_⟩, id⟩
    intro q member
    rcases List.mem_append.mp member with old | new
    · exact all q old
    · rw [List.mem_singleton.mp new]
      exact started op rfl
  | answered waits served =>
    obtain ⟨q, stored, next⟩ := waits
    have own := settles_awaited (all q (List.mem_of_getElem? stored)) next
    obtain ⟨kept, stays, rest⟩ := own.1 _ _ _ inv served
    refine ⟨⟨kept, ?_⟩, stays⟩
    intro q' member
    rcases List.mem_or_eq_of_mem_set member with old | rfl
    · exact all q' old
    · exact rest
  | refused waits why =>
    obtain ⟨q, stored, next⟩ := waits
    have own := settles_awaited (all q (List.mem_of_getElem? stored)) next
    refine ⟨⟨inv, ?_⟩, id⟩
    intro q' member
    rcases List.mem_or_eq_of_mem_set member with old | rfl
    · exact all q' old
    · exact own.2 _

theorem stepped_accounted {Q : α → Prop} {i : Nat} {p p' : Pool χ ρ ω ε α σ} {m : Move ι ε}
    (accounted : Accounted serve Inv paid claim Q i p)
    (started : ∀ op, m = .start op → Settles serve Inv paid (program op))
    (h : Stepped serve program p m p') : Accounted serve Inv paid claim Q i p' := by
  obtain ⟨⟨inv, all⟩, stays⟩ := stepped_settles accounted.inv accounted.settles started h
  refine ⟨inv, all, ?_⟩
  obtain ⟨q, at_i, state⟩ := accounted.owes
  have in_range : i < p.clients.length := (List.getElem?_eq_some_iff.mp at_i).1
  -- a reply to another client leaves this one as it was
  have elsewhere : ∀ j, j ≠ i → ∀ q', (p.clients.set j q')[i]? = some q :=
    fun j ne q' => by rw [List.getElem?_set_ne ne, at_i]
  cases h with
  | started op => exact ⟨q, getElem?_append_old at_i _, state⟩
  | @answered j c k s r waits served =>
    by_cases same : j = i
    · subst same
      obtain ⟨q', at_j, next⟩ := waits
      rw [at_i, Option.some.injEq] at at_j
      subst at_j
      refine ⟨k (.ok r), by simp [in_range], ?_⟩
      rcases state with done | owing
      · exact Or.inl (stays done)
      · exact (owes_awaited owing next).1 _ _ _ accounted.inv served
    · exact ⟨q, elsewhere j same _, state.imp_left stays⟩
  | @refused j c k e m waits why =>
    by_cases same : j = i
    · subst same
      obtain ⟨q', at_j, next⟩ := waits
      rw [at_i, Option.some.injEq] at at_j
      subst at_j
      refine ⟨k (.error e), by simp [in_range], ?_⟩
      rcases state with done | owing
      · exact Or.inl done
      · exact Or.inr ((owes_awaited owing next).2 e)
    · exact ⟨q, elsewhere j same _, state.imp_left stays⟩

/-- Among clients that all settle, one that started owing makes a claim only in a paid store. -/
theorem paid_of_claimed {Q : α → Prop} {op : ι} {before after : List (Move ι ε)}
    {p₀ p₁ p : Pool χ ρ ω ε α σ} (inv : Inv p₀.store)
    (all : ∀ q ∈ p₀.clients, Settles serve Inv paid q)
    (settle : ∀ op', .start op' ∈ before ++ .start op :: after → Settles serve Inv paid (program op'))
    (owing : Owes serve Inv paid claim Q (program op))
    (ran : run (Pool.step serve program) p₀ before = some p₁)
    (ran' : run (Pool.step serve program) p₁ (.start op :: after) = some p)
    {q : Prog χ ρ ω ε α} (own : p.clients[p₁.clients.length]? = some q) {o : ω}
    (shown : o ∈ onDisplay q) (claims : claim o) : paid p.store := by
  have along : ∀ {moves : List (Move ι ε)} (t : Pool χ ρ ω ε α σ),
      (∀ m ∈ moves, m ∈ before ++ .start op :: after) →
      Along (Pool.step serve program)
        (fun _ m => ∀ op', m = .start op' → Settles serve Inv paid (program op')) t moves := by
    intro moves t within
    apply along_of_all
    intro m member u op' same
    exact settle op' (same ▸ within m member)
  have start : Inv p₁.store ∧ ∀ q ∈ p₁.clients, Settles serve Inv paid q := by
    refine run_invariant (fun u : Pool χ ρ ω ε α σ =>
      Inv u.store ∧ ∀ q ∈ u.clients, Settles serve Inv paid q) ?_ ⟨inv, all⟩
      (along p₀ fun m member => by simp [member]) ran
    intro u m u' holds started h
    exact (stepped_settles holds.1 holds.2 started (step_cases h)).1
  obtain ⟨p₂, first, rest⟩ := run_cons ran'
  cases step_cases first with
  | refused waits why => simp at why
  | started op =>
    have opened : Accounted serve Inv paid claim Q p₁.clients.length
        ⟨p₁.store, p₁.clients ++ [program op]⟩ := by
      refine ⟨start.1, ?_, program op, by simp, Or.inr owing⟩
      intro q' member
      rcases List.mem_append.mp member with old | new
      · exact start.2 q' old
      · rw [List.mem_singleton.mp new]
        exact settle op (by simp)
    have last : Accounted serve Inv paid claim Q p₁.clients.length p := by
      refine run_invariant (Accounted serve Inv paid claim Q p₁.clients.length) ?_ opened
        (along _ fun m member => by simp [member]) rest
      intro u m u' accounted started h
      exact stepped_accounted accounted started (step_cases h)
    obtain ⟨q', at_i, state⟩ := last.owes
    rw [own, Option.some.injEq] at at_i
    subst at_i
    rcases state with done | still
    · exact done
    · exact absurd claims (silent_of_owes still o shown)

end Pools
end Receipts
