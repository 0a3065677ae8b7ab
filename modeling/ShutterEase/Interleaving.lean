import ShutterEase.Resumption
import ShutterEase.Runs

/-!
Clients interleaved call by call over one store. `Issues` says what a program may still
ask for whatever it is answered; `Keeps` says that it keeps a property of the store when
every answer comes from a store that has it. Both carry over to whole runs of a pool.
-/
namespace Interleaving
open Resumption Runs
variable {χ ρ ω ε α β σ ι : Type}

structure Pool (χ ρ ω ε α σ : Type) where
  store : σ
  clients : List (Prog χ ρ ω ε α)

inductive Move (ι ε : Type) where
  | start (op : ι)
  | answer (i : Nat)
  | fail (i : Nat) (e : ε)

/-- The call a program waits on; outputs before it are local to the client. -/
def awaiting : Prog χ ρ ω ε α → Option (χ × (Except ε ρ → Prog χ ρ ω ε α))
  | .done _ => none
  | .emit _ p => awaiting p
  | .call c k => some (c, k)

def Pool.Awaits (p : Pool χ ρ ω ε α σ) (i : Nat) (c : χ) (k : Except ε ρ → Prog χ ρ ω ε α) :
    Prop := ∃ q, p.clients[i]? = some q ∧ awaiting q = some (c, k)

theorem getElem?_append_old {γ : Type} {xs : List γ} {i : Nat} {x : γ} (at_i : xs[i]? = some x)
    (ys : List γ) : (xs ++ ys)[i]? = some x := by
  rw [List.getElem?_append_left (List.getElem?_eq_some_iff.mp at_i).1, at_i]

section Ended
variable {p : Pool χ ρ ω ε α σ} {i : Nat} {q : Prog χ ρ ω ε α}

/-- The client has been started and makes no further call. -/
def Pool.ended (p : Pool χ ρ ω ε α σ) (i : Nat) : Bool :=
  p.clients[i]?.any fun q => (awaiting q).isNone

theorem ended_set_same (at_i : p.clients[i]? = some q) (s : σ) (q' : Prog χ ρ ω ε α) :
    (Pool.mk s (p.clients.set i q')).ended i = (awaiting q').isNone := by
  have in_range : i < p.clients.length := (List.getElem?_eq_some_iff.mp at_i).1
  simp [Pool.ended, in_range]

end Ended

section Steps
variable (serve : χ → σ → Except ε (σ × ρ)) (program : ι → Prog χ ρ ω ε α)

def Pool.step (p : Pool χ ρ ω ε α σ) : Move ι ε → Option (Pool χ ρ ω ε α σ)
  | .start op => some ⟨p.store, p.clients ++ [program op]⟩
  | .answer i =>
    match p.clients[i]?.bind awaiting with
    | none => none
    | some (c, k) =>
      match serve c p.store with
      | .ok (s, r) => some ⟨s, p.clients.set i (k (.ok r))⟩
      | .error e => some ⟨p.store, p.clients.set i (k (.error e))⟩
  | .fail i e =>
    match p.clients[i]?.bind awaiting with
    | none => none
    | some (_, k) => some ⟨p.store, p.clients.set i (k (.error e))⟩

/-- Everything one step can do. -/
inductive Stepped (p : Pool χ ρ ω ε α σ) : Move ι ε → Pool χ ρ ω ε α σ → Prop where
  | started (op : ι) : Stepped p (.start op) ⟨p.store, p.clients ++ [program op]⟩
  | answered {i : Nat} {c : χ} {k : Except ε ρ → Prog χ ρ ω ε α} {s : σ} {r : ρ}
      (waits : p.Awaits i c k) (served : serve c p.store = .ok (s, r)) :
      Stepped p (.answer i) ⟨s, p.clients.set i (k (.ok r))⟩
  | refused {i : Nat} {c : χ} {k : Except ε ρ → Prog χ ρ ω ε α} {e : ε} {m : Move ι ε}
      (waits : p.Awaits i c k)
      (why : m = .fail i e ∨ m = .answer i ∧ serve c p.store = .error e) :
      Stepped p m ⟨p.store, p.clients.set i (k (.error e))⟩

variable {serve program}

theorem awaits_of_bind {p : Pool χ ρ ω ε α σ} {i : Nat} {c : χ}
    {k : Except ε ρ → Prog χ ρ ω ε α}
    (h : p.clients[i]?.bind awaiting = some (c, k)) : p.Awaits i c k := by
  obtain ⟨q, stored, waits⟩ := Option.bind_eq_some_iff.mp h
  exact ⟨q, stored, waits⟩

theorem step_cases {p p' : Pool χ ρ ω ε α σ} {m : Move ι ε}
    (h : p.step serve program m = some p') : Stepped serve program p m p' := by
  cases m with
  | start op =>
    simp only [Pool.step, Option.some.injEq] at h
    subst h
    exact Stepped.started op
  | answer i =>
    simp only [Pool.step] at h
    split at h
    · simp at h
    · rename_i c k found
      split at h
      · rename_i s r served
        simp only [Option.some.injEq] at h
        subst h
        exact Stepped.answered (awaits_of_bind found) served
      · rename_i e served
        simp only [Option.some.injEq] at h
        subst h
        exact Stepped.refused (awaits_of_bind found) (Or.inr ⟨rfl, served⟩)
  | fail i e =>
    simp only [Pool.step] at h
    split at h
    · simp at h
    · rename_i c k found
      simp only [Option.some.injEq] at h
      subst h
      exact Stepped.refused (awaits_of_bind found) (Or.inl rfl)

theorem step_answer {p : Pool χ ρ ω ε α σ} {i : Nat} {c : χ} {k : Except ε ρ → Prog χ ρ ω ε α}
    {s : σ} {r : ρ} (waits : p.Awaits i c k) (served : serve c p.store = .ok (s, r)) :
    p.step serve program (.answer i) = some ⟨s, p.clients.set i (k (.ok r))⟩ := by
  obtain ⟨q, at_q, next⟩ := waits
  simp [Pool.step, at_q, next, served]

theorem step_fail {p : Pool χ ρ ω ε α σ} {i : Nat} {c : χ} {k : Except ε ρ → Prog χ ρ ω ε α}
    (waits : p.Awaits i c k) (e : ε) :
    p.step serve program (.fail i e) = some ⟨p.store, p.clients.set i (k (.error e))⟩ := by
  obtain ⟨q, at_q, next⟩ := waits
  simp [Pool.step, at_q, next]

theorem awaits_unique {p : Pool χ ρ ω ε α σ} {i : Nat} {c d : χ}
    {k k' : Except ε ρ → Prog χ ρ ω ε α} (one : p.Awaits i c k) (two : p.Awaits i d k') :
    c = d ∧ k = k' := by
  obtain ⟨q, at_q, waits⟩ := one
  obtain ⟨r, at_r, waits'⟩ := two
  rw [at_q] at at_r
  simp only [Option.some.injEq] at at_r
  subst at_r
  rw [waits] at waits'
  simpa using waits'

theorem awaits_append_iff {p : Pool χ ρ ω ε α σ} {s : σ} {q : Prog χ ρ ω ε α} {i : Nat} {c : χ}
    {k : Except ε ρ → Prog χ ρ ω ε α} :
    (Pool.mk s (p.clients ++ [q])).Awaits i c k ↔
      p.Awaits i c k ∨ i = p.clients.length ∧ awaiting q = some (c, k) := by
  unfold Pool.Awaits
  by_cases old : i < p.clients.length
  · have other : i ≠ p.clients.length := by omega
    simp [List.getElem?_append_left old, other]
  · have none_before : p.clients[i]? = none := by simp; omega
    rw [List.getElem?_append_right (by omega)]
    by_cases last : i = p.clients.length
    · simp [last]
    · have beyond : i - p.clients.length ≠ 0 := by omega
      simp [last, none_before, beyond]

theorem awaits_set_iff {p : Pool χ ρ ω ε α σ} {s : σ} {q : Prog χ ρ ω ε α} {i j : Nat} {c : χ}
    {k : Except ε ρ → Prog χ ρ ω ε α} (in_range : i < p.clients.length) :
    (Pool.mk s (p.clients.set i q)).Awaits j c k ↔
      j ≠ i ∧ p.Awaits j c k ∨ j = i ∧ awaiting q = some (c, k) := by
  unfold Pool.Awaits
  by_cases same : j = i
  · subst same
    simp [in_range]
  · simp [List.getElem?_set_ne (Ne.symm same), same]

theorem awaits_lt {p : Pool χ ρ ω ε α σ} {i : Nat} {c : χ} {k : Except ε ρ → Prog χ ρ ω ε α}
    (waits : p.Awaits i c k) : i < p.clients.length := by
  obtain ⟨q, at_i, -⟩ := waits
  exact (List.getElem?_eq_some_iff.mp at_i).1

/-- A property of clients that every reply keeps holds of all of them after a step. -/
theorem stepped_clients {R : Prog χ ρ ω ε α → Prop} {p p' : Pool χ ρ ω ε α σ} {m : Move ι ε}
    (all : ∀ q ∈ p.clients, R q) (started : ∀ op, m = .start op → R (program op))
    (next : ∀ q c k, R q → awaiting q = some (c, k) → ∀ r, R (k r))
    (h : Stepped serve program p m p') : ∀ q ∈ p'.clients, R q := by
  have replied : ∀ i c k, p.Awaits i c k → ∀ r, ∀ q ∈ p.clients.set i (k r), R q := by
    rintro i c k ⟨own, at_i, waits⟩ r q member
    rcases List.mem_or_eq_of_mem_set member with old | rfl
    · exact all q old
    · exact next own c k (all own (List.mem_of_getElem? at_i)) waits r
  cases h with
  | started op =>
    intro q member
    rcases List.mem_append.mp member with old | new
    · exact all q old
    · rw [List.mem_singleton.mp new]
      exact started op rfl
  | answered waits served => exact replied _ _ _ waits _
  | refused waits why => exact replied _ _ _ waits _

end Steps

section Issues

/-- Every call the program can still make satisfies `P`. -/
def Issues (P : χ → Prop) : Prog χ ρ ω ε α → Prop
  | .done _ => True
  | .emit _ p => Issues P p
  | .call c k => P c ∧ ∀ r, Issues P (k r)

theorem issues_bind {P : χ → Prop} {p : Prog χ ρ ω ε α} {f : α → Prog χ ρ ω ε β}
    (hp : Issues P p) (hf : ∀ a, Issues P (f a)) : Issues P (p.bind f) := by
  induction p with
  | done a => exact hf a
  | emit o p ih => exact ih hp
  | call c k ih => exact ⟨hp.1, fun r => ih r (hp.2 r)⟩

theorem issues_andThen {P : χ → Prop} {p : Action χ ρ ω ε α} {f : α → Action χ ρ ω ε β}
    (hp : Issues P p) (hf : ∀ a, Issues P (f a)) : Issues P (p >>= f : Action χ ρ ω ε β) := by
  apply issues_bind hp
  intro r
  cases r with
  | ok a => exact hf a
  | error e => trivial

theorem issues_tryCatch {P : χ → Prop} {p : Action χ ρ ω ε α}
    {handle : ε → Action χ ρ ω ε α} (hp : Issues P p) (hh : ∀ e, Issues P (handle e)) :
    Issues P (Action.tryCatch p handle) := by
  apply issues_bind hp
  intro r
  cases r with
  | ok a => trivial
  | error e => exact hh e

theorem issues_pure {P : χ → Prop} (a : α) : Issues P (pure a : Action χ ρ ω ε α) := trivial

theorem issues_lift {P : χ → Prop} (r : Except ε α) :
    Issues P (Action.lift r : Action χ ρ ω ε α) := trivial

theorem issues_tell {P : χ → Prop} (o : ω) :
    Issues P (Action.tell o : Action χ ρ ω ε Unit) := trivial

theorem issues_throw {P : χ → Prop} (e : ε) :
    Issues P (Action.throw e : Action χ ρ ω ε α) := trivial

theorem issues_request {P : χ → Prop} {c : χ} (h : P c) :
    Issues P (Action.request c : Action χ ρ ω ε ρ) := ⟨h, fun _ => trivial⟩

theorem issues_awaited {P : χ → Prop} {p : Prog χ ρ ω ε α} {c : χ}
    {k : Except ε ρ → Prog χ ρ ω ε α} (h : Issues P p) (waits : awaiting p = some (c, k)) :
    P c ∧ ∀ r, Issues P (k r) := by
  induction p with
  | done a => simp [awaiting] at waits
  | emit o p ih => exact ih h waits
  | call d j ih =>
    simp only [awaiting, Option.some.injEq, Prod.mk.injEq] at waits
    obtain ⟨rfl, rfl⟩ := waits
    exact h

variable {serve : χ → σ → Except ε (σ × ρ)} {program : ι → Prog χ ρ ω ε α}

theorem awaits_issues {P : χ → Prop} {p : Pool χ ρ ω ε α σ}
    (all : ∀ q ∈ p.clients, Issues P q) {i : Nat} {c : χ} {k : Except ε ρ → Prog χ ρ ω ε α}
    (waits : p.Awaits i c k) : P c ∧ ∀ r, Issues P (k r) := by
  obtain ⟨q, stored, next⟩ := waits
  exact issues_awaited (all q (List.mem_of_getElem? stored)) next

/-- What clients may issue stays bounded when only such programs are started. -/
theorem stepped_issues {P : χ → Prop} {p p' : Pool χ ρ ω ε α σ} {m : Move ι ε}
    (all : ∀ q ∈ p.clients, Issues P q)
    (started : ∀ op, m = .start op → Issues P (program op))
    (h : Stepped serve program p m p') : ∀ q ∈ p'.clients, Issues P q :=
  stepped_clients all started (fun _ _ _ issues waits => (issues_awaited issues waits).2) h

/-- What one client may still issue stays bounded whatever the others do. -/
theorem stepped_issues_at {P : χ → Prop} {p p' : Pool χ ρ ω ε α σ} {m : Move ι ε} {i : Nat}
    (own : ∃ q, p.clients[i]? = some q ∧ Issues P q) (h : Stepped serve program p m p') :
    ∃ q, p'.clients[i]? = some q ∧ Issues P q := by
  obtain ⟨q, at_i, issues⟩ := own
  have in_range : i < p.clients.length := (List.getElem?_eq_some_iff.mp at_i).1
  have replied : ∀ j c k, p.Awaits j c k → ∀ r,
      ∃ q, (p.clients.set j (k r))[i]? = some q ∧ Issues P q := by
    intro j c k waits r
    by_cases same : j = i
    · subst same
      obtain ⟨q', at_j, next⟩ := waits
      rw [at_i, Option.some.injEq] at at_j
      subst at_j
      exact ⟨k r, by simp [in_range], (issues_awaited issues next).2 r⟩
    · exact ⟨q, by rw [List.getElem?_set_ne same, at_i], issues⟩
  cases h with
  | started op => exact ⟨q, getElem?_append_old at_i _, issues⟩
  | answered waits served => exact replied _ _ _ waits _
  | refused waits why => exact replied _ _ _ waits _

end Issues

section Keeps
variable (serve : χ → σ → Except ε (σ × ρ))

/-- The program keeps `Inv` as long as every answer comes from a store that has it. -/
def Keeps (Inv : σ → Prop) : Prog χ ρ ω ε α → Prop
  | .done _ => True
  | .emit _ p => Keeps Inv p
  | .call c k =>
    (∀ s s' r, Inv s → serve c s = .ok (s', r) → Inv s' ∧ Keeps Inv (k (.ok r))) ∧
      ∀ e, Keeps Inv (k (.error e))

variable {serve} {program : ι → Prog χ ρ ω ε α}

theorem keeps_awaited {Inv : σ → Prop} {p : Prog χ ρ ω ε α} {c : χ}
    {k : Except ε ρ → Prog χ ρ ω ε α} (h : Keeps serve Inv p)
    (waits : awaiting p = some (c, k)) : Keeps serve Inv (.call c k) := by
  induction p with
  | done a => simp [awaiting] at waits
  | emit o p ih => exact ih h waits
  | call d j ih =>
    simp only [awaiting, Option.some.injEq, Prod.mk.injEq] at waits
    obtain ⟨rfl, rfl⟩ := waits
    exact h

/-- A program whose calls all keep `Inv`, whatever the answers, keeps it. -/
theorem keeps_of_issues {Inv : σ → Prop} {p : Prog χ ρ ω ε α}
    (h : Issues (fun c => ∀ s s' r, Inv s → serve c s = .ok (s', r) → Inv s') p) :
    Keeps serve Inv p := by
  induction p with
  | done a => trivial
  | emit o p ih => exact ih h
  | call c k ih =>
    exact ⟨fun s s' r hs served => ⟨h.1 s s' r hs served, ih _ (h.2 _)⟩,
      fun e => ih _ (h.2 _)⟩

theorem stepped_keeps {Inv : σ → Prop} {p p' : Pool χ ρ ω ε α σ} {m : Move ι ε}
    (holds : Inv p.store) (all : ∀ q ∈ p.clients, Keeps serve Inv q)
    (started : ∀ op, m = .start op → Keeps serve Inv (program op))
    (h : Stepped serve program p m p') :
    Inv p'.store ∧ ∀ q ∈ p'.clients, Keeps serve Inv q := by
  cases h with
  | started op =>
    refine ⟨holds, ?_⟩
    intro q member
    simp only [List.mem_append, List.mem_singleton] at member
    rcases member with old | rfl
    · exact all q old
    · exact started op rfl
  | answered waits served =>
    obtain ⟨q, stored, next⟩ := waits
    have own := keeps_awaited (all q (List.mem_of_getElem? stored)) next
    obtain ⟨kept, rest⟩ := own.1 _ _ _ holds served
    refine ⟨kept, ?_⟩
    intro q' member
    rcases List.mem_or_eq_of_mem_set member with old | rfl
    · exact all q' old
    · exact rest
  | refused waits why =>
    obtain ⟨q, stored, next⟩ := waits
    have own := keeps_awaited (all q (List.mem_of_getElem? stored)) next
    refine ⟨holds, ?_⟩
    intro q' member
    rcases List.mem_or_eq_of_mem_set member with old | rfl
    · exact all q' old
    · exact own.2 _

/-- Where every started program keeps `Inv`, a pool that starts empty keeps it in every state. -/
theorem throughout_keeps {Inv : σ → Prop} {s : σ} (holds : Inv s) {moves : List (Move ι ε)}
    (keeps : ∀ op, .start op ∈ moves → Keeps serve Inv (program op)) :
    Throughout (fun p m => p.step serve program m)
      (fun p : Pool χ ρ ω ε α σ => Inv p.store) ⟨s, []⟩ moves := by
  have along : Along (fun (p : Pool χ ρ ω ε α σ) m => p.step serve program m)
      (fun _ m => ∀ op, m = .start op → Keeps serve Inv (program op)) ⟨s, []⟩ moves := by
    apply along_of_all
    intro m member p op same
    exact keeps op (same ▸ member)
  refine throughout_invariant (fun p : Pool χ ρ ω ε α σ =>
    Inv p.store ∧ ∀ q ∈ p.clients, Keeps serve Inv q) ?_ (fun p inv => inv.1) ?_ along
  · intro p m p' inv started h
    exact stepped_keeps inv.1 inv.2 started (step_cases h)
  · exact ⟨holds, by simp⟩

/-- A run of such a program with nobody else keeps it too. -/
theorem keeps_run {Inv : σ → Prop} {p : Prog χ ρ ω ε α} (h : Keeps serve Inv p) {s : σ}
    (first : Inv s) : Inv (p.run serve s).state := by
  induction p generalizing s with
  | done a => exact first
  | emit o p ih => exact ih h first
  | call c k ih =>
    simp only [Prog.run]
    cases served : serve c s with
    | ok answer =>
      obtain ⟨kept, rest⟩ := h.1 s answer.1 answer.2 first served
      exact ih _ rest kept
    | error e => exact ih _ (h.2 e) first

end Keeps

section Opens

theorem issues_mono {P Q : χ → Prop} {p : Prog χ ρ ω ε α} (h : Issues P p)
    (weaker : ∀ c, P c → Q c) : Issues Q p := by
  induction p with
  | done a => trivial
  | emit o p ih => exact ih h
  | call c k ih => exact ⟨weaker c h.1, fun r => ih r (h.2 r)⟩

/-- A program that makes no call. -/
def Quiet (p : Prog χ ρ ω ε α) : Prop := Issues (fun _ => False) p

theorem issues_of_quiet {P : χ → Prop} {p : Prog χ ρ ω ε α} (h : Quiet p) : Issues P p :=
  issues_mono h fun _ no => no.elim

/-- The first call satisfies `F`; `Q` bounds the later ones by the first and its answer. -/
def Opens (F : χ → Prop) (Q : χ → Except ε ρ → χ → Prop) : Prog χ ρ ω ε α → Prop
  | .done _ => True
  | .emit _ p => Opens F Q p
  | .call c k => F c ∧ ∀ r, Issues (Q c r) (k r)

variable {F : χ → Prop} {Q : χ → Except ε ρ → χ → Prop}

theorem opens_of_quiet {p : Prog χ ρ ω ε α} (h : Quiet p) : Opens F Q p := by
  induction p with
  | done a => trivial
  | emit o p ih => exact ih h
  | call c k ih => exact h.1.elim

theorem opens_tell_then {o : ω} {f : Unit → Action χ ρ ω ε α} (h : Opens F Q (f ())) :
    Opens F Q (Action.tell o >>= f : Action χ ρ ω ε α) := h

theorem opens_request_then {c : χ} {f : ρ → Action χ ρ ω ε α} (first : F c)
    (rest : ∀ r, Issues (Q c (.ok r)) (f r)) :
    Opens F Q (Action.request c >>= f : Action χ ρ ω ε α) := by
  refine ⟨first, ?_⟩
  intro r
  cases r with
  | ok a => exact rest a
  | error e => trivial

theorem opens_then_quiet {p : Prog χ ρ ω ε α} {f : α → Prog χ ρ ω ε β} (hp : Opens F Q p)
    (hf : ∀ a, Quiet (f a)) : Opens F Q (p.bind f) := by
  induction p with
  | done a => exact opens_of_quiet (hf a)
  | emit o p ih => exact ih hp
  | call c k ih => exact ⟨hp.1, fun r => issues_bind (hp.2 r) fun a => issues_of_quiet (hf a)⟩

theorem opens_tryCatch {p : Action χ ρ ω ε α} {handle : ε → Action χ ρ ω ε α}
    (hp : Opens F Q p) (hh : ∀ e, Quiet (handle e)) :
    Opens F Q (Action.tryCatch p handle) := by
  apply opens_then_quiet hp
  intro r
  cases r with
  | ok a => trivial
  | error e => exact hh e

theorem opens_andThen_quiet {p : Action χ ρ ω ε α} {f : α → Action χ ρ ω ε β}
    (hp : Opens F Q p) (hf : ∀ a, Quiet (f a)) :
    Opens F Q (p >>= f : Action χ ρ ω ε β) := by
  apply opens_then_quiet hp
  intro r
  cases r with
  | ok a => exact hf a
  | error e => trivial

theorem opens_awaited {p : Prog χ ρ ω ε α} {c : χ} {k : Except ε ρ → Prog χ ρ ω ε α}
    (h : Opens F Q p) (waits : awaiting p = some (c, k)) : F c ∧ ∀ r, Issues (Q c r) (k r) := by
  induction p with
  | done a => simp [awaiting] at waits
  | emit o p ih => exact ih h waits
  | call d j ih =>
    simp only [awaiting, Option.some.injEq, Prod.mk.injEq] at waits
    obtain ⟨rfl, rfl⟩ := waits
    exact h

theorem issues_of_opens {P : χ → Prop} {p : Prog χ ρ ω ε α} (h : Opens F Q p)
    (first : ∀ c, F c → P c) (rest : ∀ c r c', F c → Q c r c' → P c') : Issues P p := by
  induction p with
  | done a => trivial
  | emit o p ih => exact ih h
  | call c k ih =>
    exact ⟨first c h.1, fun r => issues_mono (h.2 r) fun c' allowed => rest c r c' h.1 allowed⟩

/-- The first call and what its answer allows keep `Inv`, so the program does. -/
theorem keeps_of_opens {serve : χ → σ → Except ε (σ × ρ)} {Inv : σ → Prop}
    {p : Prog χ ρ ω ε α} (h : Opens F Q p)
    (first : ∀ c, F c → ∀ s s' r, Inv s → serve c s = .ok (s', r) → Inv s')
    (answered : ∀ c s s' r c', F c → Inv s → serve c s = .ok (s', r) → Q c (.ok r) c' →
      ∀ t t' r', Inv t → serve c' t = .ok (t', r') → Inv t')
    (failed : ∀ c e c', F c → Q c (.error e) c' →
      ∀ t t' r', Inv t → serve c' t = .ok (t', r') → Inv t') : Keeps serve Inv p := by
  induction p with
  | done a => trivial
  | emit o p ih => exact ih h
  | call c k ih =>
    constructor
    · intro s s' r holds served
      refine ⟨first c h.1 s s' r holds served, ?_⟩
      exact keeps_of_issues (issues_mono (h.2 _) fun c' allowed =>
        answered c s s' r c' h.1 holds served allowed)
    · intro e
      exact keeps_of_issues (issues_mono (h.2 _) fun c' allowed => failed c e c' h.1 allowed)

/-- What comes after the last call changes nothing. -/
theorem keeps_bind_quiet {serve : χ → σ → Except ε (σ × ρ)} {Inv : σ → Prop}
    {p : Prog χ ρ ω ε α} {f : α → Prog χ ρ ω ε β} (quiet : ∀ a, Quiet (f a)) :
    Keeps serve Inv (p.bind f) ↔ Keeps serve Inv p := by
  induction p with
  | done a => exact ⟨fun _ => trivial, fun _ => keeps_of_issues (issues_of_quiet (quiet a))⟩
  | emit o p ih => exact ih
  | call c k ih =>
    simp only [Prog.bind, Keeps, ih]

end Opens

section Guarded
variable (serve : χ → σ → Except ε (σ × ρ))

/-- Every call that the program still makes satisfies `P`, as long as each answer comes from a
    store that satisfies `Inv`. -/
def Guarded (Inv : σ → Prop) (P : χ → Prop) : Prog χ ρ ω ε α → Prop
  | .done _ => True
  | .emit _ p => Guarded Inv P p
  | .call c k =>
    P c ∧ (∀ s s' r, Inv s → serve c s = .ok (s', r) → Guarded Inv P (k (.ok r))) ∧
      ∀ e, Guarded Inv P (k (.error e))

variable {serve} {program : ι → Prog χ ρ ω ε α} {Inv : σ → Prop} {P : χ → Prop}
    {F : χ → Prop} {Q : χ → Except ε ρ → χ → Prop}

theorem guarded_of_issues {p : Prog χ ρ ω ε α} (h : Issues P p) : Guarded serve Inv P p := by
  induction p with
  | done a => trivial
  | emit o p ih => exact ih h
  | call c k ih => exact ⟨h.1, fun _ _ _ _ _ => ih _ (h.2 _), fun _ => ih _ (h.2 _)⟩

theorem guarded_of_all (all : ∀ c, P c) (p : Prog χ ρ ω ε α) : Guarded serve Inv P p := by
  induction p with
  | done a => trivial
  | emit o p ih => exact ih
  | call c k ih => exact ⟨all c, fun _ _ _ _ _ => ih _, fun _ => ih _⟩

theorem guarded_mono {P' : χ → Prop} {p : Prog χ ρ ω ε α} (h : Guarded serve Inv P p)
    (weaker : ∀ c, P c → P' c) : Guarded serve Inv P' p := by
  induction p with
  | done a => trivial
  | emit o p ih => exact ih h
  | call c k ih =>
    obtain ⟨here, answered, failed⟩ := h
    exact ⟨weaker c here, fun s s' r holds served => ih _ (answered s s' r holds served),
      fun e => ih _ (failed e)⟩

/-- The first call and what its answer allows are all that has to be looked at. -/
theorem guarded_of_opens {p : Prog χ ρ ω ε α} (h : Opens F Q p) (first : ∀ c, F c → P c)
    (answered : ∀ c s s' r c', F c → Inv s → serve c s = .ok (s', r) → Q c (.ok r) c' → P c')
    (failed : ∀ c e c', F c → Q c (.error e) c' → P c') : Guarded serve Inv P p := by
  induction p with
  | done a => trivial
  | emit o p ih => exact ih h
  | call c k ih =>
    refine ⟨first c h.1, fun s s' r holds served => ?_, fun e => ?_⟩
    · exact guarded_of_issues (issues_mono (h.2 _) fun c' allowed =>
        answered c s s' r c' h.1 holds served allowed)
    · exact guarded_of_issues (issues_mono (h.2 _) fun c' allowed => failed c e c' h.1 allowed)

theorem guarded_awaited {p : Prog χ ρ ω ε α} {c : χ} {k : Except ε ρ → Prog χ ρ ω ε α}
    (h : Guarded serve Inv P p) (waits : awaiting p = some (c, k)) :
    Guarded serve Inv P (.call c k) := by
  induction p with
  | done a => simp [awaiting] at waits
  | emit o p ih => exact ih h waits
  | call d j ih =>
    simp only [awaiting, Option.some.injEq, Prod.mk.injEq] at waits
    obtain ⟨rfl, rfl⟩ := waits
    exact h

/-- The operations started along some moves, in the order of their clients. -/
def starts (moves : List (Move ι ε)) : List ι :=
  moves.filterMap fun m => match m with
    | .start op => some op
    | _ => none

/-- Every client keeps what bounds the operation that it was started with. -/
def GuardedClients (serve : χ → σ → Except ε (σ × ρ)) (Inv : σ → Prop) (P : ι → χ → Prop)
    (ops : List ι) (clients : List (Prog χ ρ ω ε α)) : Prop :=
  clients.length = ops.length ∧ ∀ (i : Nat) op q, ops[i]? = some op → clients[i]? = some q →
    Guarded serve Inv (P op) q

theorem guardedClients_set {P : ι → χ → Prop} {ops : List ι} {clients : List (Prog χ ρ ω ε α)}
    (all : GuardedClients serve Inv P ops clients) {i : Nat} {q : Prog χ ρ ω ε α}
    (next : ∀ op, ops[i]? = some op → Guarded serve Inv (P op) q) :
    GuardedClients serve Inv P ops (clients.set i q) := by
  refine ⟨by simp [all.1], fun j op r at_ops at_j => ?_⟩
  by_cases same : j = i
  · subst same
    obtain ⟨in_range, here⟩ := List.getElem?_eq_some_iff.mp at_j
    rw [List.getElem_set_self] at here
    exact here ▸ next op at_ops
  · rw [List.getElem?_set_ne (Ne.symm same)] at at_j
    exact all.2 j op r at_ops at_j

theorem guardedClients_step {P : ι → χ → Prop} {ops : List ι} {p p' : Pool χ ρ ω ε α σ}
    {m : Move ι ε} (holds : Inv p.store) (all : GuardedClients serve Inv P ops p.clients)
    (started : ∀ op, m = .start op → Guarded serve Inv (P op) (program op))
    (h : Stepped serve program p m p') :
    GuardedClients serve Inv P (ops ++ starts [m]) p'.clients := by
  cases h with
  | started op =>
    refine ⟨by simp [starts, all.1], fun i op' q at_ops at_i => ?_⟩
    by_cases old : i < p.clients.length
    · rw [List.getElem?_append_left (all.1 ▸ old)] at at_ops
      rw [List.getElem?_append_left old] at at_i
      exact all.2 i op' q at_ops at_i
    · have last : i = p.clients.length := by
        have in_range := (List.getElem?_eq_some_iff.mp at_i).1
        simp only [List.length_append, List.length_singleton] at in_range
        omega
      subst last
      rw [List.getElem?_concat_length, Option.some.injEq] at at_i
      rw [all.1] at at_ops
      simp only [starts, List.filterMap_cons, List.filterMap_nil, List.getElem?_concat_length,
        Option.some.injEq] at at_ops
      rw [← at_i, ← at_ops]
      exact started op rfl
  | @answered i c k s r waits served =>
    have same : ops ++ starts [(.answer i : Move ι ε)] = ops := List.append_nil ops
    obtain ⟨q, at_i, next⟩ := waits
    refine same.symm ▸ guardedClients_set all fun op at_ops => ?_
    exact (guarded_awaited (all.2 _ op q at_ops at_i) next).2.1 _ _ _ holds served
  | @refused i c k e m waits why =>
    have same : ops ++ starts [m] = ops := by
      rcases why with rfl | ⟨rfl, -⟩ <;> exact List.append_nil ops
    obtain ⟨q, at_i, next⟩ := waits
    refine same.symm ▸ guardedClients_set all fun op at_ops => ?_
    exact (guarded_awaited (all.2 _ op q at_ops at_i) next).2.2 e

/-- Where the started programs keep `Inv`, what a client waits on satisfies the bound of the
    operation that it was started with. -/
theorem guarded_run {P : ι → χ → Prop} {s : σ} (holds : Inv s) {moves : List (Move ι ε)}
    (keeps : ∀ op, .start op ∈ moves → Keeps serve Inv (program op))
    (guarded : ∀ op, .start op ∈ moves → Guarded serve Inv (P op) (program op))
    {p : Pool χ ρ ω ε α σ}
    (ran : run (fun p m => p.step serve program m) ⟨s, []⟩ moves = some p)
    {i : Nat} {op : ι} (at_i : (starts moves)[i]? = some op) {c : χ}
    {k : Except ε ρ → Prog χ ρ ω ε α} (waits : p.Awaits i c k) : P op c := by
  have general : ∀ (ops : List ι) (first : Pool χ ρ ω ε α σ), Inv first.store →
      (∀ q ∈ first.clients, Keeps serve Inv q) → GuardedClients serve Inv P ops first.clients →
      run (fun p m => p.step serve program m) first moves = some p →
      GuardedClients serve Inv P (ops ++ starts moves) p.clients := by
    clear ran at_i
    induction moves with
    | nil =>
      intro ops first _ _ bounded ran
      simp only [run_nil, Option.some.injEq] at ran
      rw [starts, List.filterMap_nil, List.append_nil]
      exact ran ▸ bounded
    | cons m ms ih =>
      intro ops first now kept bounded ran
      obtain ⟨q, here, rest⟩ := run_cons ran
      have stepped := step_cases here
      obtain ⟨next, kept'⟩ := stepped_keeps now kept
        (fun op same => keeps op (by simp [same])) stepped
      have bounded' := guardedClients_step now bounded
        (fun op same => guarded op (by simp [same])) stepped
      have later := ih (fun op member => keeps op (List.mem_cons_of_mem _ member))
        (fun op member => guarded op (List.mem_cons_of_mem _ member)) _ q next kept' bounded' rest
      have split : starts (m :: ms) = starts [m] ++ starts ms := by
        simp only [starts, ← List.filterMap_append, List.singleton_append]
      rwa [split, ← List.append_assoc]
  have all := general [] ⟨s, []⟩ holds (by simp) ⟨rfl, by simp⟩ ran
  obtain ⟨q, there, next⟩ := waits
  exact (guarded_awaited (all.2 i op q at_i there) next).1

end Guarded
end Interleaving
