import ShutterEase.SignIn

/-!
Sign-up attempts of any number of people, interleaved. An attempt creates an account at Auth and
then writes the record that sign-in looks for; either can fail, and a write that fails is not
applied. An attempt is entered where Auth answers it: before that it touches neither store.
-/
namespace SignUps
open KeyedTree Resumption Interleaving Runs Firebase FirebasePath DartText Authentication
open SignIn (AuthAccount free PrecheckAgrees user_written free_iff signup_valid distinct_append)

abbrev Client := Prog DbCall Json Ui String (Except String Unit)

structure Attempt where
  name : String
  email : String
  password : String
  confirmPassword : String
  time : String

def Attempt.validates (a : Attempt) : Bool :=
  signupFormValidates a.name a.email a.password a.confirmPassword

def Attempt.program (a : Attempt) (created : Except String String) : Client :=
  userSignUp created a.name a.email a.password a.confirmPassword a.time

def Attempt.account (a : Attempt) (uid : String) : AuthAccount :=
  ⟨uid, trim a.email, trim a.password⟩

def Attempt.record (a : Attempt) (uid : String) : Json :=
  fromFields ((newUser uid a.name (trim a.email) (trim a.password) a.time).toMap a.time)

/-- An attempt with Auth's answer to it. -/
structure Entry where
  attempt : Attempt
  created : Except String String

def Entry.program (entry : Entry) : Client := entry.attempt.program entry.created

/-- `attempts` are the attempts entered so far, as the pool has their clients. -/
structure State where
  auth : List AuthAccount
  pool : Pool DbCall Json Ui String (Except String Unit) Json
  attempts : List Attempt

abbrev Event := Move Entry String

section Steps
variable (lower : String → String)

/-- Auth is asked when the form validates; a new account takes a new uid and a new address. -/
def issue (auth : List AuthAccount) (entry : Entry) : Option (List AuthAccount) :=
  match entry.created with
  | .error _ => some auth
  | .ok uid =>
    if entry.attempt.validates then
      if IsUid uid ∧ free lower auth uid (trim entry.attempt.email) = true then
        some (auth ++ [entry.attempt.account uid])
      else none
    else some auth

def enter (s : State) : Event → Option (List AuthAccount × List Attempt)
  | .start entry =>
    (issue lower s.auth entry).map fun auth => (auth, s.attempts ++ [entry.attempt])
  | _ => some (s.auth, s.attempts)

def step (s : State) (e : Event) : Option State :=
  match enter lower s e, s.pool.step respond Entry.program e with
  | some (auth, attempts), some pool => some { auth, pool, attempts }
  | _, _ => none

def start : State := ⟨[], ⟨Node.null, []⟩, []⟩

/-- What a client shows up to its next call. -/
def shows : Client → List Ui
  | .emit o p => o :: shows p
  | _ => []

def accountCreated : Ui :=
  .showSuccessSnackkbar "Success" "User Account is created successfully"

/-- No attempt is under way. -/
def Quiet (s : State) : Prop := ∀ q ∈ s.pool.clients, awaiting q = none

def HasAccount (s : State) (email : String) : Prop := ∃ a ∈ s.auth, lower a.email = lower email

def HasRecord (s : State) (email : String) : Prop :=
  ∃ uid stored, (s.pool.store.get ["users", uid]).child "email" = Json.str stored ∧
    lower stored = lower email

/-- Some attempt with this email has reported success. -/
def Reported (s : State) (email : String) : Prop :=
  ∃ (i : Nat) (a : Attempt) (q : Client), s.attempts[i]? = some a ∧
    s.pool.clients[i]? = some q ∧ lower (trim a.email) = lower email ∧ accountCreated ∈ shows q

/-- Accounts and records go together, an email that no attempt has reported success for can be
    signed up, and sign-in asks Auth about whatever Auth would accept. -/
structure LeavesNothing (s : State) : Prop where
  agrees : ∀ email, HasAccount lower s email ↔ HasRecord lower s email
  free_again : ∀ email, ¬ Reported lower s email →
    ∀ uid, (∀ a ∈ s.auth, a.uid ≠ uid) → free lower s.auth uid email = true
  signs_in : PrecheckAgrees lower ⟨s.auth, s.pool.store⟩

def WriteFails : Event → Prop
  | .fail _ _ => True
  | _ => False

end Steps

section Programs
variable {a : Attempt} {uid : String}

def succeeded : Client :=
  (do
    perform .clearForm
    perform .stopLoading
    perform accountCreated
    perform (.navigate "SigninScreen") : Act Unit)

def failed (e : String) : Client :=
  (do
    perform .stopLoading
    perform (.showErrorSnackbar ("An unexpected error occurred: " ++ e)) : Act Unit)

def afterWrite : Except String Json → Client
  | .ok _ => succeeded
  | .error e => failed e

/-- An attempt whose account is created goes on to write the record. -/
theorem awaiting_created (issued : IsUid uid) (valid : a.validates = true) :
    awaiting (a.program (.ok uid)) = some (.set ["users", uid] (a.record uid), afterWrite) := by
  have path := ref_user issued.1
  have after : ∀ k : Except String Json → Client, (∀ r, k r = afterWrite r) →
      (some (Call.set ["users", uid] (a.record uid), k) : Option (DbCall × _)) =
        some (.set ["users", uid] (a.record uid), afterWrite) := by
    intro k same
    rw [funext same]
  unfold Attempt.validates at valid
  unfold Attempt.program userSignUp createUserAccount Firebase.ref
  simp only [valid, path, ↓reduceIte, Action.lift_ok_bind]
  apply after
  intro r
  cases r with
  | ok a => rfl
  | error e => rfl

theorem created_writes (issued : IsUid uid) (valid : a.validates = true) {uid' : String}
    {value : Json} {k : Except String Json → Client}
    (next : awaiting (a.program (.ok uid)) = some (.set ["users", uid'] value, k)) :
    uid = uid' := by
  rw [awaiting_created issued valid] at next
  simp only [Option.some.injEq, Prod.mk.injEq, Call.set.injEq, List.cons.injEq, true_and,
    and_true] at next
  exact next.1.1

/-- Any other attempt makes no call to the database. -/
theorem awaiting_refused {created : Except String String}
    (refused : ∀ uid, created = .ok uid → a.validates = false) :
    awaiting (a.program created) = none := by
  unfold Attempt.validates at refused
  unfold Attempt.program userSignUp
  by_cases valid : signupFormValidates a.name a.email a.password a.confirmPassword = true
  · simp only [valid, ↓reduceIte]
    cases created with
    | ok uid => simp [refused uid rfl] at valid
    | error e => rfl
  · simp only [valid, Bool.false_eq_true, ↓reduceIte]
    rfl

end Programs

section Stores
variable (lower : String → String)

/-- Client `i` waits for its record to be written. -/
def Waits (s : State) (i : Nat) (uid : String) (a : Attempt) : Prop :=
  s.attempts[i]? = some a ∧ s.pool.Awaits i (.set ["users", uid] (a.record uid)) afterWrite

structure Accounts (auth : List AuthAccount) : Prop where
  one_uid : ∀ a ∈ auth, ∀ b ∈ auth, a.uid = b.uid → a = b
  one_email : ∀ a ∈ auth, ∀ b ∈ auth, lower a.email = lower b.email → a = b
  typed : ∀ a ∈ auth, ∃ text, Validations.validateEmail text = none ∧ trim text = a.email
  issued : ∀ a ∈ auth, IsUid a.uid

/-- A client that waits writes the record of an account that has none, and no two write the same
    one; a record is there when its client has ended well. -/
structure Inv (s : State) : Prop where
  aligned : s.attempts.length = s.pool.clients.length
  accounts : Accounts lower s.auth
  shaped : ∀ i c k, s.pool.Awaits i c k → ∃ uid a, c = .set ["users", uid] (a.record uid) ∧
    k = afterWrite ∧ s.attempts[i]? = some a
  unwritten : ∀ i uid a, Waits s i uid a →
    a.account uid ∈ s.auth ∧ s.pool.store.get ["users", uid] = Node.null
  one_writer : ∀ i j uid a b, Waits s i uid a → Waits s j uid b → i = j
  recorded : ∀ uid, s.pool.store.get ["users", uid] ≠ Node.null → ∃ (i : Nat) (a : Attempt),
    s.attempts[i]? = some a ∧ a.account uid ∈ s.auth ∧
      s.pool.store.get ["users", uid] = a.record uid ∧ s.pool.clients[i]? = some succeeded

/-- Every account has its record, or a client that still writes it. -/
def NoneLost (s : State) : Prop :=
  ∀ account ∈ s.auth, s.pool.store.get ["users", account.uid] ≠ Node.null ∨
    ∃ i a, Waits s i account.uid a

/-- Everything a step can do. -/
inductive Stepped (s : State) : Event → State → Prop where
  | created (a : Attempt) (uid : String) (issued : IsUid uid) (valid : a.validates = true)
      (new : free lower s.auth uid (trim a.email) = true) :
      Stepped s (.start ⟨a, .ok uid⟩) ⟨s.auth ++ [a.account uid],
        ⟨s.pool.store, s.pool.clients ++ [a.program (.ok uid)]⟩, s.attempts ++ [a]⟩
  | refused (entry : Entry) (ended : awaiting entry.program = none) :
      Stepped s (.start entry) ⟨s.auth, ⟨s.pool.store, s.pool.clients ++ [entry.program]⟩,
        s.attempts ++ [entry.attempt]⟩
  | written (i : Nat) (uid : String) (a : Attempt) (waits : Waits s i uid a) :
      Stepped s (.answer i) ⟨s.auth, ⟨s.pool.store.set ["users", uid] (a.record uid),
        s.pool.clients.set i succeeded⟩, s.attempts⟩
  | lost (i : Nat) (uid : String) (a : Attempt) (e : String) (waits : Waits s i uid a) :
      Stepped s (.fail i e) ⟨s.auth, ⟨s.pool.store, s.pool.clients.set i (failed e)⟩, s.attempts⟩

variable {lower} {s s' : State}

theorem step_cases (inv : Inv lower s) {e : Event} (h : step lower s e = some s') :
    Stepped lower s e s' := by
  unfold step at h
  split at h
  · rename_i auth attempts pool entered moved
    simp only [Option.some.injEq] at h
    subst h
    have waits : ∀ i c k, s.pool.Awaits i c k →
        ∃ uid a, c = .set ["users", uid] (a.record uid) ∧ k = afterWrite ∧ Waits s i uid a := by
      intro i c k awaits
      obtain ⟨uid, a, rfl, rfl, at_i⟩ := inv.shaped i c k awaits
      exact ⟨uid, a, rfl, rfl, at_i, awaits⟩
    cases Interleaving.step_cases moved with
    | started entry =>
      obtain ⟨a, created⟩ := entry
      simp only [enter, Option.map_eq_some_iff, Prod.mk.injEq] at entered
      obtain ⟨auth', issued, rfl, rfl⟩ := entered
      cases created with
      | error e =>
        simp only [issue, Option.some.injEq] at issued
        subst issued
        exact Stepped.refused ⟨a, .error e⟩ (awaiting_refused (by simp))
      | ok uid =>
        simp only [issue] at issued
        split at issued
        · rename_i valid
          split at issued
          · rename_i new
            simp only [Option.some.injEq] at issued
            subst issued
            exact Stepped.created a uid new.1 valid new.2
          · simp at issued
        · rename_i invalid
          simp only [Option.some.injEq] at issued
          subst issued
          refine Stepped.refused ⟨a, .ok uid⟩ (awaiting_refused ?_)
          intro _ _
          simpa using invalid
    | answered awaits served =>
      obtain ⟨uid, a, rfl, rfl, here⟩ := waits _ _ _ awaits
      simp only [enter, Option.some.injEq, Prod.mk.injEq] at entered
      obtain ⟨rfl, rfl⟩ := entered
      simp only [respond, serve, Except.ok.injEq, Prod.mk.injEq] at served
      obtain ⟨rfl, rfl⟩ := served
      exact Stepped.written _ uid a here
    | refused awaits why =>
      obtain ⟨uid, a, rfl, rfl, here⟩ := waits _ _ _ awaits
      rcases why with rfl | ⟨rfl, served⟩
      · simp only [enter, Option.some.injEq, Prod.mk.injEq] at entered
        obtain ⟨rfl, rfl⟩ := entered
        exact Stepped.lost _ uid a _ here
      · simp [respond, serve] at served
  · simp at h

end Stores

section Invariant
variable {lower : String → String} {s : State} {i j : Nat} {uid uid' : String} {a b : Attempt}

theorem waits_lt (waits : Waits s i uid a) : i < s.pool.clients.length := awaits_lt waits.2

theorem waits_unique (one : Waits s i uid a) (two : Waits s i uid' b) : uid = uid' := by
  have same := (awaits_unique one.2 two.2).1
  simp only [Call.set.injEq, List.cons.injEq, true_and, and_true] at same
  exact same.1

theorem waits_entered_iff (aligned : s.attempts.length = s.pool.clients.length)
    {auth : List AuthAccount} {q : Client} :
    Waits ⟨auth, ⟨s.pool.store, s.pool.clients ++ [q]⟩, s.attempts ++ [a]⟩ i uid b ↔
      Waits s i uid b ∨ i = s.pool.clients.length ∧ b = a ∧
        awaiting q = some (.set ["users", uid] (b.record uid), afterWrite) := by
  unfold Waits
  dsimp only
  rw [awaits_append_iff]
  constructor
  · intro waits
    obtain ⟨at_i, old | ⟨last, next⟩⟩ := waits
    · have in_range := awaits_lt old
      rw [List.getElem?_append_left (by omega)] at at_i
      exact Or.inl ⟨at_i, old⟩
    · subst last
      rw [List.getElem?_append_right (by omega)] at at_i
      have same : b = a := by simpa [aligned, eq_comm] using at_i
      exact Or.inr ⟨rfl, same, next⟩
  · intro waits
    rcases waits with ⟨at_i, old⟩ | ⟨rfl, rfl, next⟩
    · have in_range := awaits_lt old
      rw [List.getElem?_append_left (by omega)]
      exact ⟨at_i, Or.inl old⟩
    · rw [List.getElem?_append_right (by omega)]
      exact ⟨by simp [aligned], Or.inr ⟨rfl, next⟩⟩

theorem waits_ended_iff (waits : Waits s i uid a) {db : Json} {q : Client}
    (ended : awaiting q = none) :
    Waits ⟨s.auth, ⟨db, s.pool.clients.set i q⟩, s.attempts⟩ j uid' b ↔
      j ≠ i ∧ Waits s j uid' b := by
  unfold Waits
  dsimp only
  rw [awaits_set_iff (waits_lt waits)]
  simp only [ended, reduceCtorEq, and_false, or_false]
  exact and_left_comm

theorem record_ne_null (a : Attempt) (uid : String) : a.record uid ≠ Node.null := by
  simp [Attempt.record, UserModel.toMap, fromFields, Node.null]

theorem succeeded_ended (waits : Waits s i uid a) : s.pool.clients[i]? ≠ some succeeded := by
  obtain ⟨-, q, at_i, next⟩ := waits
  intro same
  rw [at_i, Option.some.injEq] at same
  subst same
  cases next

/-- A uid that Auth has not issued is neither waited for nor recorded. -/
theorem fresh_of_free (inv : Inv lower s) {email : String}
    (new : free lower s.auth uid email = true) :
    (∀ i b, ¬ Waits s i uid b) ∧ s.pool.store.get ["users", uid] = Node.null := by
  have others := free_iff.mp new
  constructor
  · intro i b waits
    exact (others _ (inv.unwritten i uid b waits).1).1 rfl
  · by_contra there
    obtain ⟨i, b, -, member, -, -⟩ := inv.recorded uid there
    exact (others _ member).1 rfl

theorem accounts_created {auth : List AuthAccount} (accounts : Accounts lower auth)
    (issued : IsUid uid) (valid : a.validates = true)
    (new : free lower auth uid (trim a.email) = true) :
    Accounts lower (auth ++ [a.account uid]) := by
  have others := free_iff.mp new
  constructor
  · exact distinct_append accounts.one_uid fun x old => (others x old).1
  · exact distinct_append accounts.one_email fun x old => (others x old).2
  · intro x member
    rcases List.mem_append.mp member with old | added
    · exact accounts.typed x old
    · rw [List.mem_singleton.mp added]
      exact ⟨a.email, signup_valid valid, rfl⟩
  · intro x member
    rcases List.mem_append.mp member with old | added
    · exact accounts.issued x old
    · rw [List.mem_singleton.mp added]
      exact issued

/-- A client enters that makes no call, or waits to write the record of a new account. -/
theorem inv_entered (inv : Inv lower s) {auth : List AuthAccount} {q : Client}
    (accounts : Accounts lower auth) (kept : ∀ x ∈ s.auth, x ∈ auth)
    (next : ∀ c k, awaiting q = some (c, k) → ∃ uid, c = .set ["users", uid] (a.record uid) ∧
      k = afterWrite ∧ a.account uid ∈ auth ∧ (∀ i b, ¬ Waits s i uid b) ∧
        s.pool.store.get ["users", uid] = Node.null) :
    Inv lower ⟨auth, ⟨s.pool.store, s.pool.clients ++ [q]⟩, s.attempts ++ [a]⟩ := by
  have entered : ∀ i uid b, Waits ⟨auth, ⟨s.pool.store, s.pool.clients ++ [q]⟩, s.attempts ++ [a]⟩
      i uid b → Waits s i uid b ∨ i = s.pool.clients.length ∧ b = a ∧ a.account uid ∈ auth ∧
        (∀ i b, ¬ Waits s i uid b) ∧ s.pool.store.get ["users", uid] = Node.null := by
    intro i uid b waits
    rcases (waits_entered_iff inv.aligned).mp waits with old | ⟨last, same, writes⟩
    · exact Or.inl old
    · obtain ⟨uid', shape, -, new⟩ := next _ _ writes
      simp only [Call.set.injEq, List.cons.injEq, true_and, and_true] at shape
      obtain ⟨rfl, -⟩ := shape
      exact Or.inr ⟨last, same, new⟩
  constructor
  · simp [inv.aligned]
  · exact accounts
  · intro i c k waits
    rcases awaits_append_iff.mp waits with old | ⟨rfl, writes⟩
    · obtain ⟨uid, b, shape, cont, at_i⟩ := inv.shaped i c k old
      exact ⟨uid, b, shape, cont, getElem?_append_old at_i _⟩
    · obtain ⟨uid, shape, cont, -⟩ := next c k writes
      exact ⟨uid, a, shape, cont, by simp [← inv.aligned]⟩
  · intro i uid b waits
    rcases entered i uid b waits with old | ⟨-, rfl, member, -, empty⟩
    · obtain ⟨member, empty⟩ := inv.unwritten i uid b old
      exact ⟨kept _ member, empty⟩
    · exact ⟨member, empty⟩
  · intro i j uid b c one two
    rcases entered i uid b one with old | ⟨last, -, -, unawaited, -⟩
    · rcases entered j uid c two with old' | ⟨-, -, -, unawaited, -⟩
      · exact inv.one_writer i j uid b c old old'
      · exact absurd old (unawaited i b)
    · rcases entered j uid c two with old' | ⟨last', -, -, -, -⟩
      · exact absurd old' (unawaited j c)
      · rw [last, last']
  · intro uid there
    obtain ⟨i, b, at_i, member, record, done⟩ := inv.recorded uid there
    exact ⟨i, b, getElem?_append_old at_i _, kept _ member, record, getElem?_append_old done _⟩

theorem inv_created (inv : Inv lower s) (issued : IsUid uid) (valid : a.validates = true)
    (new : free lower s.auth uid (trim a.email) = true) :
    Inv lower ⟨s.auth ++ [a.account uid],
      ⟨s.pool.store, s.pool.clients ++ [a.program (.ok uid)]⟩, s.attempts ++ [a]⟩ := by
  apply inv_entered inv (accounts_created inv.accounts issued valid new)
  · exact fun x old => List.mem_append_left _ old
  · intro c k writes
    rw [awaiting_created issued valid, Option.some.injEq, Prod.mk.injEq] at writes
    exact ⟨uid, writes.1.symm, writes.2.symm, by simp, fresh_of_free inv new⟩

theorem inv_refused (inv : Inv lower s) {entry : Entry} (ended : awaiting entry.program = none) :
    Inv lower ⟨s.auth, ⟨s.pool.store, s.pool.clients ++ [entry.program]⟩,
      s.attempts ++ [entry.attempt]⟩ := by
  apply inv_entered inv inv.accounts
  · exact fun x old => old
  · intro c k writes
    rw [ended] at writes
    cases writes

/-- A client that waited has ended, and the tree has changed at its own record at most. -/
theorem inv_ended (inv : Inv lower s) (waits : Waits s i uid a) {db : Json} {q : Client}
    (ended : awaiting q = none)
    (others : ∀ key, key ≠ uid → db.get ["users", key] = s.pool.store.get ["users", key])
    (own : db.get ["users", uid] ≠ Node.null →
      db.get ["users", uid] = a.record uid ∧ q = succeeded) :
    Inv lower ⟨s.auth, ⟨db, s.pool.clients.set i q⟩, s.attempts⟩ := by
  have in_range := waits_lt waits
  constructor
  · simp [inv.aligned]
  · exact inv.accounts
  · intro j c k awaits
    rcases (awaits_set_iff in_range).mp awaits with ⟨-, old⟩ | ⟨-, next⟩
    · exact inv.shaped j c k old
    · rw [ended] at next
      cases next
  · intro j uid' b waits'
    obtain ⟨other, old⟩ := (waits_ended_iff waits ended).mp waits'
    obtain ⟨member, empty⟩ := inv.unwritten j uid' b old
    refine ⟨member, ?_⟩
    rw [others uid', empty]
    rintro rfl
    exact other (inv.one_writer j i uid' b a old waits)
  · intro j k uid' b c one two
    obtain ⟨-, old⟩ := (waits_ended_iff waits ended).mp one
    obtain ⟨-, old'⟩ := (waits_ended_iff waits ended).mp two
    exact inv.one_writer j k uid' b c old old'
  · intro uid' there
    by_cases same : uid' = uid
    · subst same
      obtain ⟨record, rfl⟩ := own there
      exact ⟨i, a, waits.1, (inv.unwritten i uid' a waits).1, record, by simp [in_range]⟩
    · rw [others uid' same] at there ⊢
      obtain ⟨j, b, at_j, member, record, done⟩ := inv.recorded uid' there
      refine ⟨j, b, at_j, member, record, ?_⟩
      have other : i ≠ j := by
        rintro rfl
        exact succeeded_ended waits done
      rw [List.getElem?_set_ne other, done]

theorem step_inv (inv : Inv lower s) {e : Event} {s' : State} (h : step lower s e = some s') :
    Inv lower s' := by
  cases step_cases inv h with
  | created a uid issued valid new => exact inv_created inv issued valid new
  | refused entry ended => exact inv_refused inv ended
  | written i uid a waits =>
    apply inv_ended inv waits rfl
    · intro key other
      rw [user_written, if_neg other]
    · intro _
      exact ⟨Node.get_set_same _ _ _, rfl⟩
  | lost i uid a e waits =>
    apply inv_ended inv waits rfl
    · exact fun _ _ => rfl
    · exact fun there => absurd (inv.unwritten i uid a waits).2 there

theorem start_inv (lower : String → String) : Inv lower start := by
  constructor
  · rfl
  · exact ⟨by simp [start], by simp [start], by simp [start], by simp [start]⟩
  · rintro i c k ⟨q, at_i, -⟩
    simp [start] at at_i
  · rintro i uid a ⟨at_i, -⟩
    simp [start] at at_i
  · rintro i j uid a b ⟨at_i, -⟩
    simp [start] at at_i
  · intro uid there
    simp [start] at there

/-- A failed write loses an account for good, and nothing else does. -/
theorem step_lost_iff (inv : Inv lower s) {e : Event} {s' : State}
    (h : step lower s e = some s') : NoneLost s' ↔ NoneLost s ∧ ¬ WriteFails e := by
  cases step_cases inv h with
  | created a uid issued valid new =>
    have others := free_iff.mp new
    have entered := @waits_entered_iff s
    simp only [WriteFails, not_false_eq_true, and_true]
    constructor
    · intro none_lost account member
      rcases none_lost account (List.mem_append_left _ member) with there | ⟨i, b, waits⟩
      · exact Or.inl there
      · rcases (entered inv.aligned).mp waits with old | ⟨-, rfl, next⟩
        · exact Or.inr ⟨i, b, old⟩
        · exact absurd (created_writes issued valid next).symm (others account member).1
    · intro none_lost account member
      rcases List.mem_append.mp member with old | added
      · rcases none_lost account old with there | ⟨i, b, waits⟩
        · exact Or.inl there
        · exact Or.inr ⟨i, b, (entered inv.aligned).mpr (Or.inl waits)⟩
      · rw [List.mem_singleton.mp added]
        refine Or.inr ⟨s.pool.clients.length, a, (entered inv.aligned).mpr (Or.inr ?_)⟩
        exact ⟨rfl, rfl, awaiting_created issued valid⟩
  | refused entry ended =>
    have entered := @waits_entered_iff s
    simp only [WriteFails, not_false_eq_true, and_true]
    constructor
    · intro none_lost account member
      rcases none_lost account member with there | ⟨i, b, waits⟩
      · exact Or.inl there
      · rcases (entered inv.aligned).mp waits with old | ⟨-, -, next⟩
        · exact Or.inr ⟨i, b, old⟩
        · simp [ended] at next
    · intro none_lost account member
      rcases none_lost account member with there | ⟨i, b, waits⟩
      · exact Or.inl there
      · exact Or.inr ⟨i, b, (entered inv.aligned).mpr (Or.inl waits)⟩
  | written i uid a waits =>
    simp only [WriteFails, not_false_eq_true, and_true]
    constructor
    · intro none_lost account member
      by_cases same : account.uid = uid
      · exact Or.inr ⟨i, a, same ▸ waits⟩
      · rcases none_lost account member with there | ⟨j, b, waits'⟩
        · rw [user_written, if_neg same] at there
          exact Or.inl there
        · exact Or.inr ⟨j, b, ((waits_ended_iff waits rfl).mp waits').2⟩
    · intro none_lost account member
      by_cases same : account.uid = uid
      · left
        rw [user_written, if_pos same]
        exact record_ne_null a uid
      · rcases none_lost account member with there | ⟨j, b, waits'⟩
        · left
          rwa [user_written, if_neg same]
        · refine Or.inr ⟨j, b, (waits_ended_iff waits rfl).mpr ⟨?_, waits'⟩⟩
          rintro rfl
          exact same (waits_unique waits' waits)
  | lost i uid a e waits =>
    simp only [WriteFails, not_true_eq_false, and_false, iff_false]
    intro none_lost
    obtain ⟨member, empty⟩ := inv.unwritten i uid a waits
    rcases none_lost _ member with there | ⟨j, b, waits'⟩
    · exact there empty
    · obtain ⟨other, old⟩ := (waits_ended_iff waits rfl).mp waits'
      exact other (inv.one_writer j i uid b a old waits)

end Invariant

section Between
variable {lower : String → String} {s : State}

/-- Between attempts nothing is waited for, so what is not lost is recorded. -/
theorem recorded_of_quiet (inv : Inv lower s) (quiet : Quiet s) (none_lost : NoneLost s)
    {account : AuthAccount} (member : account ∈ s.auth) : ∃ (i : Nat) (a : Attempt),
      s.attempts[i]? = some a ∧ account = a.account account.uid ∧
        s.pool.store.get ["users", account.uid] = a.record account.uid ∧
        s.pool.clients[i]? = some succeeded := by
  rcases none_lost account member with there | ⟨i, a, -, q, at_i, next⟩
  · obtain ⟨i, a, at_i, member', record, done⟩ := inv.recorded account.uid there
    exact ⟨i, a, at_i, inv.accounts.one_uid account member _ member' rfl, record, done⟩
  · rw [quiet q (List.mem_of_getElem? at_i)] at next
    cases next

theorem stored_record (a : Attempt) (uid : String) :
    Stored (a.record uid) (trim a.email) (trim a.password) :=
  stored_newUser uid a.name (trim a.email) (trim a.password) a.time

theorem record_of_account (inv : Inv lower s) {uid stored : String}
    (email : (s.pool.store.get ["users", uid]).child "email" = Json.str stored) :
    ∃ account ∈ s.auth, account.uid = uid ∧ account.email = stored := by
  have there : s.pool.store.get ["users", uid] ≠ Node.null := by
    intro gone
    rw [gone] at email
    exact Node.leaf_ne_null _ email.symm
  obtain ⟨i, a, -, member, record, -⟩ := inv.recorded uid there
  refine ⟨_, member, rfl, ?_⟩
  rw [record, (stored_record a uid).1] at email
  simpa [Json.str, Attempt.account] using email

theorem sound_of_quiet (inv : Inv lower s) (quiet : Quiet s) (none_lost : NoneLost s) :
    SignIn.Sound lower ⟨s.auth, s.pool.store⟩ := by
  constructor
  · intro account member
    obtain ⟨i, a, -, same, record, -⟩ := recorded_of_quiet inv quiet none_lost member
    refine ⟨trim a.password, ?_⟩
    rw [same]
    exact record ▸ stored_record a account.uid
  · intro uid there
    obtain ⟨i, a, -, member, -, -⟩ := inv.recorded uid there
    exact ⟨_, member, rfl⟩
  · exact inv.accounts.one_email
  · exact inv.accounts.typed
  · exact inv.accounts.issued

theorem leaves_of_none_lost (inv : Inv lower s) (quiet : Quiet s) (none_lost : NoneLost s) :
    LeavesNothing lower s := by
  constructor
  · intro email
    constructor
    · intro has
      obtain ⟨account, member, same⟩ := has
      obtain ⟨i, a, -, shape, record, -⟩ := recorded_of_quiet inv quiet none_lost member
      refine ⟨account.uid, trim a.email, ?_, ?_⟩
      · rw [record]
        exact (stored_record a account.uid).1
      · rw [← same, shape]
        rfl
    · intro has
      obtain ⟨uid, stored, child, same⟩ := has
      obtain ⟨account, member, -, rfl⟩ := record_of_account inv child
      exact ⟨account, member, same⟩
  · intro email unreported uid fresh
    refine free_iff.mpr ?_
    intro account member
    refine ⟨fresh account member, ?_⟩
    intro same
    obtain ⟨i, a, at_i, shape, -, done⟩ := recorded_of_quiet inv quiet none_lost member
    apply unreported
    refine ⟨i, a, succeeded, at_i, done, ?_, ?_⟩
    · rw [← same, shape]
      rfl
    · exact List.mem_of_getElem? (i := 2) rfl
  · refine (SignIn.agrees_iff (sound_of_quiet inv quiet none_lost)).mpr ?_
    intro account member
    obtain ⟨i, a, -, shape, record, -⟩ := recorded_of_quiet inv quiet none_lost member
    left
    change (s.pool.store.get ["users", account.uid]).child "password" = _
    rw [record, (stored_record a account.uid).2, shape]
    rfl

/-- An account without a record has an email that no record has. -/
theorem none_lost_of_leaves (inv : Inv lower s) (leaves : LeavesNothing lower s) :
    NoneLost s := by
  intro account member
  left
  obtain ⟨uid, stored, child, same⟩ := (leaves.agrees account.email).mp ⟨account, member, rfl⟩
  obtain ⟨other, member', rfl, rfl⟩ := record_of_account inv child
  rw [inv.accounts.one_email account member other member' same.symm]
  intro gone
  rw [gone] at child
  exact Node.leaf_ne_null _ child.symm

/-- Between attempts of any run, a failed sign-up has left nothing behind exactly when no write of
    a record has failed. -/
theorem leaves_nothing_iff (lower : String → String) (events : List Event) (s : State)
    (ran : run (step lower) start events = some s) (quiet : Quiet s) :
    LeavesNothing lower s ↔ ∀ e ∈ events, ¬ WriteFails e := by
  have first : NoneLost start := by simp [NoneLost, start]
  have inv : Inv lower s := run_invariant (Inv lower) (fun _ _ _ here _ h => step_inv here h)
    (start_inv lower) (along_of_all (fun _ _ _ => trivial) start) ran
  have lost : NoneLost s ↔ ∀ e ∈ events, ¬ WriteFails e := by
    refine run_iff_all (Inv lower) ?_ ?_ (start_inv lower) first ran
    · exact fun _ _ _ here h => step_inv here h
    · exact fun _ _ _ here h => step_lost_iff here h
  rw [← lost]
  constructor
  · exact none_lost_of_leaves inv
  · exact leaves_of_none_lost inv quiet

end Between

section Ada
open SignIn (asciiLower)

def adaForm : Attempt := ⟨"Ada", "ada@x.it", "Secret1!", "Secret1!", "1735732800000"⟩

def signedUp : State :=
  ⟨[adaForm.account "uid-1"],
    ⟨Node.null.set ["users", "uid-1"] (adaForm.record "uid-1"), [succeeded]⟩, [adaForm]⟩

theorem signedUp_leaves_nothing : LeavesNothing asciiLower signedUp := by
  have ran : run (step asciiLower) start [.start ⟨adaForm, .ok "uid-1"⟩, .answer 0] =
      some signedUp := rfl
  have quiet : Quiet signedUp := by
    intro q member
    rw [List.mem_singleton.mp member]
    rfl
  exact (leaves_nothing_iff asciiLower _ signedUp ran quiet).mpr (by simp [WriteFails])

def leftBehind : State :=
  ⟨[adaForm.account "uid-1"], ⟨Node.null, [failed "network error"]⟩, [adaForm]⟩

/-- The write of the record fails: the address is taken at Auth, and sign-in does not ask Auth. -/
theorem failed_write_leaves_account :
    run (step asciiLower) start
        [.start ⟨adaForm, .ok "uid-1"⟩, .fail 0 "network error"] = some leftBehind ∧
      Quiet leftBehind ∧ ¬ LeavesNothing asciiLower leftBehind ∧
      (∀ uid, free asciiLower leftBehind.auth uid "ada@x.it" = false) ∧
      Ui.login "ada@x.it" "Secret1!" ∉ shownBy
        (userSignin asciiLower .en "ada@x.it" "Secret1!" (.ok none)) leftBehind.pool.store := by
  refine ⟨rfl, ?_, ?_, ?_, by decide⟩
  · intro q member
    rw [List.mem_singleton.mp member]
    rfl
  · intro leaves
    obtain ⟨uid, stored, child, -⟩ := (leaves.agrees "ada@x.it").mp
      ⟨adaForm.account "uid-1", List.mem_singleton.mpr rfl, rfl⟩
    cases child
  · intro uid
    have same : (adaForm.account "uid-1").email = "ada@x.it" := by decide
    simp [free, leftBehind, same]

end Ada
end SignUps
