import ShutterEase.Authentication
import ShutterEase.Runs

/-!
Two places hold a password: Firebase Auth, and the copy under `users/<uid>` that sign-in
compares before it asks Auth. Auth tells emails apart by `lower`, and a reset link changes
Auth's password only.
-/
namespace SignIn
open KeyedTree Resumption Runs Firebase FirebasePath DartText Validations Authentication
open ScheduleController (Language)

structure AuthAccount where
  uid : String
  email : String
  password : String
  deriving DecidableEq

structure State where
  auth : List AuthAccount
  db : Json

inductive Event where
  | userSignUp (uid : String) (issued : IsUid uid)
      (name email password confirmPassword time : String)
  | resetPassword (email newPassword : String)
  | userSignin (language : Language) (email password : String)

section Auth
variable (lower : String → String)

/-- Auth creates an account for a new address, under a new uid. -/
def free (auth : List AuthAccount) (uid email : String) : Bool :=
  auth.all fun a => decide (a.uid ≠ uid) && decide (lower a.email ≠ lower email)

def accepts (auth : List AuthAccount) (email password : String) : Bool :=
  auth.any fun a => decide (lower a.email = lower email) && decide (a.password = password)

def changePassword (email newPassword : String) (a : AuthAccount) : AuthAccount :=
  if lower a.email = lower email then { a with password := newPassword } else a

/-- The mail of the reset screen goes out. -/
def MailSent (s : State) (email : String) : Prop :=
  Ui.sendPasswordResetEmail (lower (trim email)) ∈
    shownBy (Authentication.resetPassword lower email (.ok ())) s.db

instance (s : State) (email : String) : Decidable (MailSent lower s email) := by
  unfold MailSent
  infer_instance

/-- A sign-up is one that succeeds; a reset is the mail and the new password set by its link. -/
def step (s : State) : Event → Option State
  | .userSignUp uid _ name email password confirmPassword time =>
    if signupFormValidates name email password confirmPassword && free lower s.auth uid (trim email)
    then some
      { auth := s.auth ++ [⟨uid, trim email, trim password⟩]
        db := (alone (Authentication.userSignUp (.ok uid) name email password confirmPassword time)
          s.db).1 }
    else none
  | .resetPassword email newPassword =>
    if MailSent lower s email then
      some { s with auth := s.auth.map (changePassword lower (lower (trim email)) newPassword) }
    else none
  | .userSignin language email password =>
    let answer := if accepts lower s.auth (trim email) (trim password) then .ok none
      else .error "The password is invalid or the user does not have a password."
    some { s with
      db := (alone (Authentication.userSignin lower language email password answer) s.db).1 }

/-- Whatever the sign-in form accepts and Auth would accept, sign-in hands to Auth. -/
def PrecheckAgrees (s : State) : Prop :=
  ∀ language email password answer, validateEmail email = none →
    validatePassword password = none → accepts lower s.auth (trim email) (trim password) = true →
      Ui.login (trim email) (trim password) ∈
        shownBy (Authentication.userSignin lower language email password answer) s.db

/-- The password is the one on record, or one that the sign-in form cannot be given. -/
def InStep (db : Json) (uid password : String) : Prop :=
  (db.get ["users", uid]).child "password" = Json.str password ∨
    ∀ text, validatePassword text = none → trim text ≠ password

/-- A reset sets a password that is in step. -/
def KeepsStores (s : State) : Event → Prop
  | .resetPassword email newPassword => MailSent lower s email → ∀ a ∈ s.auth,
      lower a.email = lower (lower (trim email)) → InStep s.db a.uid newPassword
  | _ => True

/-- Each account has its record and each record its account; emails and uids are not shared. -/
structure Sound (s : State) : Prop where
  recorded : ∀ a ∈ s.auth, ∃ password, Stored (s.db.get ["users", a.uid]) a.email password
  listed : ∀ uid, s.db.get ["users", uid] ≠ Node.null → ∃ a ∈ s.auth, a.uid = uid
  one_email : ∀ a ∈ s.auth, ∀ b ∈ s.auth, lower a.email = lower b.email → a = b
  typed : ∀ a ∈ s.auth, ∃ text, validateEmail text = none ∧ trim text = a.email
  issued : ∀ a ∈ s.auth, IsUid a.uid

end Auth

section Agreement
variable {lower : String → String} {s s' : State}

theorem accepts_iff {auth : List AuthAccount} {email password : String} :
    accepts lower auth email password = true ↔
      ∃ a ∈ auth, lower a.email = lower email ∧ a.password = password := by
  simp [accepts]

theorem users_listed (sound : Sound lower s) {a : AuthAccount} (member : a ∈ s.auth) :
    ∃ values, asUsers (s.db.get ["users"]) = .ok values ∧
      s.db.get ["users", a.uid] ∈ values ∧
      ∀ value ∈ values, ∃ b ∈ s.auth, value = s.db.get ["users", b.uid] := by
  obtain ⟨password, own⟩ := sound.recorded a member
  have there : (s.db.child "users").child a.uid ≠ Node.null := by
    intro gone
    have email := own.1
    simp only [Node.get_cons, Node.get_nil, gone, Node.child_null] at email
    exact Node.leaf_ne_null _ email.symm
  refine ⟨_, by simpa using asUsers_there there (sound.issued a member).2, ?_, ?_⟩
  · simpa using ⟨a.uid, Node.mem_keys.mpr there, rfl⟩
  · intro value found
    obtain ⟨uid, key, rfl⟩ := List.mem_map.mp found
    obtain ⟨b, member', rfl⟩ := sound.listed uid (by simpa using Node.mem_keys.mp key)
    exact ⟨b, member', by simp⟩

theorem users_stored (sound : Sound lower s) {values : List Json}
    (records : ∀ value ∈ values, ∃ b ∈ s.auth, value = s.db.get ["users", b.uid]) :
    ∀ value ∈ values, ∃ email password, Stored value email password := by
  intro value found
  obtain ⟨b, member, rfl⟩ := records value found
  exact ⟨b.email, sound.recorded b member⟩

/-- Sign-in agrees with Auth exactly when every account is in step. -/
theorem agrees_iff (sound : Sound lower s) :
    PrecheckAgrees lower s ↔ ∀ a ∈ s.auth, InStep s.db a.uid a.password := by
  constructor
  · intro agrees a member
    by_cases typable : ∃ text, validatePassword text = none ∧ trim text = a.password
    · left
      obtain ⟨text, validText, same⟩ := typable
      obtain ⟨email, validEmail, sameEmail⟩ := sound.typed a member
      obtain ⟨values, read, -, records⟩ := users_listed sound member
      have stored := users_stored sound records
      have accepted : accepts lower s.auth (trim email) (trim text) = true :=
        accepts_iff.mpr ⟨a, member, by rw [sameEmail], same.symm⟩
      have called := agrees .en email text (.ok none) validEmail validText accepted
      rw [login_called_iff .en (.ok none) validEmail validText read stored] at called
      obtain ⟨value, found, email', pair, sameLower⟩ := called
      obtain ⟨b, member', rfl⟩ := records value found
      obtain ⟨password, own⟩ := sound.recorded b member'
      have b_is_a : b = a := by
        apply sound.one_email b member' a member
        rw [(stored_unique own pair).1, sameLower, sameEmail]
      rw [← same, ← b_is_a]
      exact pair.2
    · right
      intro text valid same
      exact typable ⟨text, valid, same⟩
  · intro inStep language email password answer validEmail validPassword accepted
    obtain ⟨a, member, sameEmail, samePassword⟩ := accepts_iff.mp accepted
    obtain ⟨values, read, found, records⟩ := users_listed sound member
    have stored := users_stored sound records
    rw [login_called_iff language answer validEmail validPassword read stored]
    obtain ⟨old, own⟩ := sound.recorded a member
    have onRecord : (s.db.get ["users", a.uid]).child "password" = Json.str (trim password) := by
      rcases inStep a member with onRecord | untypable
      · rw [onRecord, samePassword]
      · exact absurd samePassword.symm (untypable password validPassword)
    exact ⟨_, found, a.email, ⟨own.1, onRecord⟩, sameEmail⟩

end Agreement

section Events
variable {lower : String → String} {s s' : State}

theorem user_written (key uid : String) (db value : Json) :
    (db.set ["users", uid] value).get ["users", key] =
      if key = uid then value else db.get ["users", key] := by
  split
  · rename_i same
    subst same
    exact Node.get_set_same db _ value
  · rename_i other
    have apart : Apart ["users", uid] ["users", key] :=
      apart_below _ (apart_here (Ne.symm other) [] [])
    exact Node.get_set_apart apart db value

theorem free_iff {auth : List AuthAccount} {uid email : String} :
    free lower auth uid email = true ↔
      ∀ a ∈ auth, a.uid ≠ uid ∧ lower a.email ≠ lower email := by
  simp [free]

theorem signup_valid {name email password confirmPassword : String}
    (valid : signupFormValidates name email password confirmPassword = true) :
    validateEmail email = none := by
  simp only [signupFormValidates, Bool.and_eq_true, Option.isNone_iff_eq_none] at valid
  exact valid.1.1.2

theorem changePassword_email (email newPassword : String) (a : AuthAccount) :
    (changePassword lower email newPassword a).email = a.email ∧
      (changePassword lower email newPassword a).uid = a.uid := by
  unfold changePassword
  split
  · exact ⟨rfl, rfl⟩
  · exact ⟨rfl, rfl⟩

/-- What tells the elements of a list apart still does when a new one is added. -/
theorem distinct_append {α β : Type} {f : α → β} {xs : List α} {x : α}
    (distinct : ∀ a ∈ xs, ∀ b ∈ xs, f a = f b → a = b) (new : ∀ a ∈ xs, f a ≠ f x) :
    ∀ a ∈ xs ++ [x], ∀ b ∈ xs ++ [x], f a = f b → a = b := by
  intro a member b member' same
  rcases List.mem_append.mp member with old | added
  · rcases List.mem_append.mp member' with old' | added'
    · exact distinct a old b old' same
    · rw [List.mem_singleton.mp added'] at same
      exact absurd same (new a old)
  · rcases List.mem_append.mp member' with old' | added'
    · rw [List.mem_singleton.mp added] at same
      exact absurd same.symm (new b old')
    · rw [List.mem_singleton.mp added, List.mem_singleton.mp added']

theorem sound_signUp (sound : Sound lower s) {uid email password : String} {record : Json}
    (issued : IsUid uid) (stored : Stored record (trim email) password) (valid : validateEmail email = none)
    (new : free lower s.auth uid (trim email) = true) :
    Sound lower { auth := s.auth ++ [⟨uid, trim email, password⟩]
                  db := s.db.set ["users", uid] record } := by
  have others := free_iff.mp new
  constructor
  · intro a member
    simp only [user_written]
    rcases List.mem_append.mp member with old | added
    · simpa [(others a old).1] using sound.recorded a old
    · rw [List.mem_singleton.mp added]
      exact ⟨password, by simpa using stored⟩
  · intro key there
    simp only [user_written] at there
    split at there
    · rename_i same
      exact ⟨_, List.mem_append_right _ (List.mem_singleton.mpr rfl), same.symm⟩
    · obtain ⟨a, old, same⟩ := sound.listed key there
      exact ⟨a, by simp [old], same⟩
  · exact distinct_append sound.one_email fun a old => (others a old).2
  · intro a member
    rcases List.mem_append.mp member with old | added
    · exact sound.typed a old
    · rw [List.mem_singleton.mp added]
      exact ⟨email, valid, rfl⟩
  · intro a member
    rcases List.mem_append.mp member with old | added
    · exact sound.issued a old
    · rw [List.mem_singleton.mp added]
      exact issued

theorem sound_reset (sound : Sound lower s) (email newPassword : String) :
    Sound lower { s with auth := s.auth.map (changePassword lower email newPassword) } := by
  have shape := fun a => @changePassword_email lower email newPassword a
  constructor
  · intro b member
    obtain ⟨a, old, rfl⟩ := List.mem_map.mp member
    rw [(shape a).1, (shape a).2]
    exact sound.recorded a old
  · intro key there
    obtain ⟨a, old, same⟩ := sound.listed key there
    exact ⟨_, List.mem_map.mpr ⟨a, old, rfl⟩, by rw [(shape a).2, same]⟩
  · intro b member c member' same
    obtain ⟨a, old, rfl⟩ := List.mem_map.mp member
    obtain ⟨a', old', rfl⟩ := List.mem_map.mp member'
    rw [(shape a).1, (shape a').1] at same
    rw [sound.one_email a old a' old' same]
  · intro b member
    obtain ⟨a, old, rfl⟩ := List.mem_map.mp member
    rw [(shape a).1]
    exact sound.typed a old
  · intro b member
    obtain ⟨a, old, rfl⟩ := List.mem_map.mp member
    rw [(shape a).2]
    exact sound.issued a old

theorem step_sound (sound : Sound lower s) {e : Event} (h : step lower s e = some s') :
    Sound lower s' := by
  cases e with
  | userSignUp uid issued name email password confirmPassword time =>
    simp only [step, Bool.and_eq_true] at h
    split at h
    · rename_i accepted
      rw [alone_userSignUp issued accepted.1, Option.some.injEq] at h
      subst h
      exact sound_signUp sound issued (stored_newUser _ _ _ _ _) (signup_valid accepted.1) accepted.2
    · simp at h
  | resetPassword email newPassword =>
    simp only [step] at h
    split at h
    · rw [Option.some.injEq] at h
      subst h
      exact sound_reset sound _ _
    · simp at h
  | userSignin language email password =>
    simp only [step, alone_userSignin, Option.some.injEq] at h
    subst h
    exact sound

/-- A step keeps the agreement exactly when it keeps the stores in step. -/
theorem agrees_step_iff (sound : Sound lower s) (agrees : PrecheckAgrees lower s) (e : Event)
    (h : step lower s e = some s') : PrecheckAgrees lower s' ↔ KeepsStores lower s e := by
  have inStep := (agrees_iff sound).mp agrees
  rw [agrees_iff (step_sound sound h)]
  cases e with
  | userSignUp uid issued name email password confirmPassword time =>
    refine ⟨fun _ => trivial, fun _ => ?_⟩
    simp only [step, Bool.and_eq_true] at h
    split at h
    · rename_i accepted
      rw [alone_userSignUp issued accepted.1, Option.some.injEq] at h
      subst h
      intro a member
      unfold InStep
      rw [user_written]
      rcases List.mem_append.mp member with old | added
      · rw [if_neg (free_iff.mp accepted.2 a old).1]
        exact inStep a old
      · rw [List.mem_singleton.mp added]
        left
        simpa using (stored_newUser uid name (trim email) (trim password) time).2
    · simp at h
  | resetPassword email newPassword =>
    simp only [step] at h
    split at h
    · rename_i sent
      rw [Option.some.injEq] at h
      subst h
      constructor
      · intro all _ a member same
        have after := all _ (List.mem_map.mpr ⟨a, member, rfl⟩)
        simpa [changePassword, same] using after
      · intro keeps b member
        obtain ⟨a, old, rfl⟩ := List.mem_map.mp member
        unfold changePassword
        split
        · rename_i same
          exact keeps sent a old same
        · exact inStep a old
    · simp at h
  | userSignin language email password =>
    simp only [step, alone_userSignin, Option.some.injEq] at h
    subst h
    exact ⟨fun _ => trivial, fun _ => inStep⟩

/-- From an empty project on, sign-in lets through whatever Auth accepts exactly when every
    reset sets the password on record or one that the sign-in form cannot be given. -/
theorem precheck_agrees_iff (lower : String → String) (events : List Event) :
    Throughout (step lower) (PrecheckAgrees lower) ⟨[], Node.null⟩ events ↔
      Along (step lower) (KeepsStores lower) ⟨[], Node.null⟩ events := by
  have empty : Sound lower ⟨[], Node.null⟩ := ⟨by simp, by simp, by simp, by simp, by simp⟩
  apply throughout_iff_along (Sound lower)
  · exact fun s e s' sound h => step_sound sound h
  · intro s e disabled
    cases e with
    | resetPassword email newPassword =>
      intro sent
      simp [step, sent] at disabled
    | _ => trivial
  · exact fun s e s' sound agrees h => agrees_step_iff sound agrees e h
  · exact empty
  · exact (agrees_iff empty).mpr (by simp)

end Events

section Reset

theorem uid_issued : IsUid "uid-1" := by decide

/-- A sign-up, and a password set by the link of the mail. -/
def signUpThenReset : List Event :=
  [.userSignUp "uid-1" uid_issued "Ada" "ada@x.it" "Secret1!" "Secret1!" "1735732800000",
    .resetPassword "ada@x.it" "Fresh2@x"]

def asciiLower (s : String) : String := String.ofList (s.toList.map Char.toLower)

theorem reset_locks_out :
    ¬ Throughout (step asciiLower) (PrecheckAgrees asciiLower) ⟨[], Node.null⟩
      signUpThenReset := by
  intro agrees
  have after := (agrees.2 _ rfl).2 _ rfl
  have called := after .en "ada@x.it" "Fresh2@x" (.ok none) (by decide) (by decide) (by decide)
  revert called
  decide

end Reset
end SignIn
