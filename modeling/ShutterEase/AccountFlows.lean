import ShutterEase.Loader
import ShutterEase.Reports

/-!
Signing up, signing in and asking for a new password, on every path and whatever the database and
Auth answer. Each flow ends in one of three ways: the form is refused by its validators, one
error is shown and the form keeps its texts, or all has gone well and the next screen opens over
an empty form. None of them throws, and none asks Auth for more than one thing.
-/
namespace AccountFlows
open KeyedTree Resumption Events Firebase FirebasePath DartText Validations Authentication Reports
open ScheduleController (Language)

inductive Flow where
  | userSignUp (created : Except String String)
      (name email password confirmPassword time : String)
  | userSignin (language : Language) (email password : String)
      (answer : Except String (Option String))
  | resetPassword (email : String) (sent : Except String Unit)

def program (lower : String → String) : Flow → Act Unit
  | .userSignUp created name email password confirmPassword time =>
    Authentication.userSignUp created name email password confirmPassword time
  | .userSignin language email password answer =>
    Authentication.userSignin lower language email password answer
  | .resetPassword email sent => Authentication.resetPassword lower email sent

structure Tally where
  failed : Nat
  asked : Nat
  errors : Nat
  successes : Nat
  cleared : Nat
  screens : List String
  deriving DecidableEq, Repr

def count (t : Tally) : Event Ui String → Tally
  | .shown (.showErrorSnackbar _) => { t with errors := t.errors + 1 }
  | .shown (.showSuccessSnackkbar _ _) => { t with successes := t.successes + 1 }
  | .shown .clearForm => { t with cleared := t.cleared + 1 }
  | .shown (.navigate screen) => { t with screens := t.screens ++ [screen] }
  | .shown (.createUserWithEmailAndPassword _ _) | .shown (.login _ _)
  | .shown (.sendPasswordResetEmail _) => { t with asked := t.asked + 1 }
  | .failed _ => { t with failed := t.failed + 1 }
  | _ => t

def nothing : Tally := ⟨0, 0, 0, 0, 0, []⟩

def Flow.validates : Flow → Bool
  | .userSignUp _ name email password confirmPassword _ =>
    signupFormValidates name email password confirmPassword
  | .userSignin _ email password _ =>
    (validateEmail email).isNone && (validatePassword password).isNone
  | .resetPassword email _ => (validateEmail email).isNone

/-- Auth has done what the flow asks of it. -/
def Flow.Accepted : Flow → Prop
  | .userSignUp created _ _ _ _ _ => ∃ uid, created = .ok uid
  | .userSignin _ _ _ answer => answer = .ok none
  | .resetPassword _ sent => sent = .ok ()

/-- What is asked and shown when all has gone well. -/
def Flow.done : Flow → Tally
  | .userSignUp _ _ _ _ _ _ => ⟨0, 1, 0, 1, 1, ["SigninScreen"]⟩
  | .userSignin _ _ _ _ => ⟨0, 1, 0, 1, 1, ["HomeScreen"]⟩
  | .resetPassword _ _ => ⟨0, 1, 0, 0, 1, ["EmailSendConfrimation"]⟩

inductive Settled (flow : Flow) : Tally → Except String Unit → Prop where
  | refused (invalid : flow.validates = false) : Settled flow nothing (.ok ())
  | failed {f a : Nat} (calls : f ≤ 1) (asked : a ≤ 1) (valid : flow.validates = true) :
      Settled flow ⟨f, a, 1, 0, 0, []⟩ (.ok ())
  | done (accepted : flow.Accepted) (valid : flow.validates = true) :
      Settled flow flow.done (.ok ())

section Parts
variable {flow : Flow} {lower : String → String}

theorem still_count (t : Tally) : count t .answered = t := rfl

/-- How the guarded part of a flow ends: where it throws, nothing has been said yet. -/
def Body (flow : Flow) (t : Tally) : Except String Unit → Prop
  | .ok r => Settled flow t (.ok r)
  | .error _ => flow.validates = true ∧ ∃ f a, f ≤ 1 ∧ a ≤ 1 ∧ t = ⟨f, a, 0, 0, 0, []⟩

theorem body_thrown (valid : flow.validates = true) {a : Nat} (asked : a ≤ 1) (u : Tally)
    (e : String) (said : u = ⟨0, a, 0, 0, 0, []⟩ ∨ ∃ e', u = count ⟨0, a, 0, 0, 0, []⟩ (.failed e')) :
    Body flow u (.error e) := by
  rcases said with rfl | ⟨e', rfl⟩
  · exact ⟨valid, 0, a, Nat.zero_le 1, asked, rfl⟩
  · exact ⟨valid, 1, a, le_rfl, asked, rfl⟩

/-- Every flow opens the loader, checks its form and hands what is thrown to one handler. -/
theorem settled_guarded {text animation message : String} {rest : Act Unit}
    (accepted : flow.validates = true → Leads count (Body flow) nothing rest) :
    Leads count (Settled flow) nothing (Action.tryCatch (do
      perform (.openLoadingDialog text animation)
      if flow.validates then rest else perform .stopLoading)
      fun e => do
        perform .stopLoading
        perform (.showErrorSnackbar (message ++ e))) := by
  apply leads_tryCatch
  have body : Leads count (Body flow) nothing (do
      perform (.openLoadingDialog text animation)
      if flow.validates then rest else perform .stopLoading : Act Unit) := by
    apply leads_tell_then
    cases valid : flow.validates with
    | true => exact accepted valid
    | false => exact leads_tell (Settled.refused valid)
  refine leads_mono ?_ body
  intro t r ended
  cases r with
  | ok a => exact ended
  | error e =>
    obtain ⟨valid, f, a, calls, asked, rfl⟩ := ended
    exact leads_tell_then (leads_tell (Settled.failed calls asked valid))

theorem settled_userSignUp (created : Except String String)
    (name email password confirmPassword time : String) :
    Leads count (Settled (.userSignUp created name email password confirmPassword time)) nothing
      (Authentication.userSignUp created name email password confirmPassword time) := by
  apply settled_guarded
  intro valid
  unfold createUserAccount
  change Leads count (Body _) ⟨0, 1, 0, 0, 0, []⟩ ((Action.lift created >>= _ : Act Unit) >>= _ : Act Unit)
  cases created with
  | error e => exact body_thrown valid le_rfl ⟨0, 1, 0, 0, 0, []⟩ e (Or.inl rfl)
  | ok uid =>
    rw [Action.lift_ok_bind]
    have stored : Mute count (do
        let userRef ← ref ("users/" ++ uid)
        set userRef (fromFields ((newUser uid name (trim email) (trim password) time).toMap time))
          : Act Unit) :=
      mute_andThen (mute_ref _) fun _ => mute_set still_count _ _
    refine mute_then stored (body_thrown valid le_rfl) fun _ => ?_
    exact Settled.done ⟨uid, rfl⟩ valid

theorem body_decideLogin (language : Language) (email password : String)
    (answer : Except String (Option String)) (emailExists passwordMatches : Bool)
    (valid : (Flow.userSignin language email password answer).validates = true) :
    Leads count (Body (.userSignin language email password answer)) nothing
      (decideLogin language email password answer emailExists passwordMatches) := by
  have error : Settled (.userSignin language email password answer) ⟨0, 0, 1, 0, 0, []⟩ (.ok ()) :=
    Settled.failed (Nat.zero_le 1) (Nat.zero_le 1) valid
  unfold decideLogin
  split
  · exact error
  · split
    · exact error
    · split
      · exact error
      · apply leads_tell_then
        cases answer with
        | error e => exact body_thrown valid le_rfl ⟨0, 1, 0, 0, 0, []⟩ e (Or.inl rfl)
        | ok errorMessage =>
          cases errorMessage with
          | some message => exact Settled.failed (Nat.zero_le 1) le_rfl valid
          | none => exact Settled.done rfl valid

theorem settled_userSignin (language : Language) (email password : String)
    (answer : Except String (Option String)) :
    Leads count (Settled (.userSignin language email password answer)) nothing
      (Authentication.userSignin lower language email password answer) := by
  apply settled_guarded
  intro valid
  have threw := body_thrown valid (Nat.zero_le 1)
  apply mute_then (mute_get still_count _) threw
  intro usersSnapshot
  apply mute_then (mute_lift _) threw
  intro users
  apply mute_then (mute_lift _) threw
  intro found
  exact body_decideLogin language email password answer found.1 found.2 valid

theorem settled_resetPassword (kept : ∀ text, text ≠ "" → lower text ≠ "") (email : String)
    (sent : Except String Unit) :
    Leads count (Settled (.resetPassword email sent)) nothing
      (Authentication.resetPassword lower email sent) := by
  apply settled_guarded
  intro valid
  have threw := body_thrown valid (Nat.zero_le 1)
  apply mute_then (mute_get still_count _) threw
  intro usersSnapshot
  apply mute_then (mute_lift _) threw
  intro users
  apply mute_then (mute_lift _) threw
  intro emailExists
  split
  · exact Settled.failed (Nat.zero_le 1) (Nat.zero_le 1) valid
  · split
    · apply leads_tell_then
      cases sent with
      | error e => exact body_thrown valid le_rfl ⟨0, 1, 0, 0, 0, []⟩ e (Or.inl rfl)
      | ok done => exact Settled.done rfl valid
    · rename_i empty
      have text := email_trimmed (Option.isNone_iff_eq_none.mp valid)
      exact absurd (kept _ text) empty

end Parts

/-- Whatever the database and Auth answer, each flow ends in one of the three ways. -/
theorem flows_settle (lower : String → String) (kept : ∀ text, text ≠ "" → lower text ≠ "")
    (flow : Flow) : Leads count (Settled flow) nothing (program lower flow) := by
  cases flow with
  | userSignUp created name email password confirmPassword time =>
    exact settled_userSignUp created name email password confirmPassword time
  | userSignin language email password answer =>
    exact settled_userSignin language email password answer
  | resetPassword email sent => exact settled_resetPassword kept email sent

theorem reset_settles :
    Leads count (Settled (.resetPassword "ada@x.it " (.error "too-many-requests"))) nothing
      (program SignIn.asciiLower (.resetPassword "ada@x.it " (.error "too-many-requests"))) :=
  flows_settle SignIn.asciiLower Loader.asciiLower_kept _

end AccountFlows
