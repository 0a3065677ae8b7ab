import ShutterEase.ScheduleController

/- Sign-up, password reset and sign-in. Firebase Auth's answers are given to the programs;
   `lower` stands for `String.toLowerCase`. -/
namespace Authentication
open KeyedTree Resumption Firebase FirebasePath DartText Validations
open DeviceController (optionStr)
open ScheduleController (Language)

structure UserModel where
  id : Option String := some ""
  name : Option String := some ""
  email : Option String := some ""
  password : Option String := some ""
  profilePic : Option String := some ""
  gender : Option String := some ""
  phoneNumber : Option String := some ""
  dateOfBirth : Option String := some ""
  status : Option String := some ""
  isOnline : Option Bool := some false
  lastActive : Option String := some ""
  pushToken : Option String := some ""
  createdAt : Option String := some ""

/-- `now` is the clock in milliseconds, for a model without a creation time. -/
def UserModel.toMap (user : UserModel) (now : String) : List (String × Json) :=
  [("id", optionStr user.id),
    ("name", optionStr user.name),
    ("email", optionStr user.email),
    ("password", optionStr user.password),
    ("profilePic", optionStr user.profilePic),
    ("gender", optionStr user.gender),
    ("phoneNumber", optionStr user.phoneNumber),
    ("dateOfBirth", optionStr user.dateOfBirth),
    ("status", optionStr user.status),
    ("isOnline", (user.isOnline.map Json.bool).getD .null),
    ("lastActive", optionStr user.lastActive),
    ("pushToken", optionStr user.pushToken),
    ("createdAt", Json.str (user.createdAt.getD now))]

def newUser (uid name email password time : String) : UserModel :=
  { id := some uid
    name := some name
    email := some email
    password := some password
    createdAt := some time
    lastActive := some time
    status := some "active"
    pushToken := some ""
    profilePic := some ""
    gender := some ""
    phoneNumber := some ""
    dateOfBirth := some "" }

/-- A uid as Auth makes them: one path segment, and no array index. -/
def IsUid (uid : String) : Prop := IsSegment uid ∧ indexKey uid = none

instance (uid : String) : Decidable (IsUid uid) := by
  unfold IsUid
  infer_instance

/-- `created` is Auth's new uid, or why it creates no account. A failure is given as the text
    that the catch clauses make of it. -/
def createUserAccount (created : Except String String) (name email password time : String) :
    Act Unit := do
  perform (.createUserWithEmailAndPassword email password)
  let uid ← Action.lift created
  let userRef ← ref ("users/" ++ uid)
  set userRef (fromFields ((newUser uid name email password time).toMap time))

def signupFormValidates (name email password confirmPassword : String) : Bool :=
  (validateName name).isNone && (validateEmail email).isNone &&
    (validatePassword password).isNone &&
    (validateConfirmPassword confirmPassword password).isNone

def userSignUp (created : Except String String)
    (name email password confirmPassword time : String) : Act Unit :=
  Action.tryCatch (do
    perform (.openLoadingDialog "We are processing your information"
      "assets/files/signupAnimtion.json")
    if signupFormValidates name email password confirmPassword then do
      createUserAccount created name (trim email) (trim password) time
      perform .clearForm
      perform .stopLoading
      perform (.showSuccessSnackkbar "Success" "User Account is created successfully")
      perform (.navigate "SigninScreen")
    else
      perform .stopLoading)
    fun e => do
      perform .stopLoading
      perform (.showErrorSnackbar ("An unexpected error occurred: " ++ e))

def Value.toText : Value → String
  | .bool b => if b then "true" else "false"
  | .int i => toString i
  | .str s => s

/-- The items of a list, with null where an index has no child. -/
def itemTexts (texts : List (String × String)) : List String :=
  (List.range (maxKey (texts.map Prod.fst)).toNat.succ).map fun i =>
    ((texts.find? fun entry => entry.1 = toString i).map Prod.snd).getD "null"

mutual

/-- `toString` of a stored value. -/
def toText : Json → String
  | .leaf value => Value.toText value
  | .branch children =>
    let texts := entryTexts children
    if exportsArray (texts.map Prod.fst) then
      "[" ++ String.intercalate ", " (itemTexts texts) ++ "]"
    else "\x7b" ++ String.intercalate ", " (texts.map fun (key, text) => key ++ ": " ++ text) ++ "\x7d"

def entryTexts : List (String × Json) → List (String × String)
  | [] => []
  | (key, value) :: rest => (key, toText value) :: entryTexts rest

end

/-- `value[key]` on a dynamic value. A text and a list have an index too, but take an int. -/
def index (value : Json) (key : String) : Except String Json :=
  match asMap value, value with
  | .ok fields, _ => .ok (fields.child key)
  | .error _, .leaf (.str _) | .error _, .branch (_ :: _) =>
    .error "type 'String' is not a subtype of type 'int' of 'index'"
  | .error _, _ => .error "NoSuchMethodError: []"

def emailIs (lower : String → String) (target : String) (value : Json) : Except String Bool := do
  let email ← index value "email"
  return !email.isNull && lower (toText email) = target

def passwordIs (target : String) (value : Json) : Except String Bool := do
  let password ← index value "password"
  return !password.isNull && toText password = target

/-- `value as Map`, listed by `forEach`. -/
def asUsers (snapshot : Json) : Except String (List Json) := do
  let users ← asMap snapshot
  return users.keys.map users.child

/-- The loop of the sign-in: `emailExists` and `passwordMatches`. -/
def matchUsers (lower : String → String) (email password : String) :
    List Json → Bool × Bool → Except String (Bool × Bool)
  | [], found => .ok found
  | value :: rest, found =>
    match emailIs lower email value with
    | .error e => .error e
    | .ok false => matchUsers lower email password rest found
    | .ok true =>
      match passwordIs password value with
      | .error e => .error e
      | .ok matched => matchUsers lower email password rest (true, found.2 || matched)

def findEmail (lower : String → String) (email : String) : List Json → Bool → Except String Bool
  | [], found => .ok found
  | value :: rest, found =>
    match emailIs lower email value with
    | .error e => .error e
    | .ok here => findEmail lower email rest (found || here)

/-- `sent` is Auth's answer to the request for a mail. -/
def resetPassword (lower : String → String) (email : String) (sent : Except String Unit) :
    Act Unit :=
  Action.tryCatch (do
    perform (.openLoadingDialog "We are processing your information"
      "assets/files/processignAnimation.json")
    if (validateEmail email).isNone then do
      let formattedEmail := lower (trim email)
      let usersSnapshot ← get ["users"]
      let users ← Action.lift (asUsers usersSnapshot)
      let emailExists ← Action.lift (findEmail lower formattedEmail users false)
      if !emailExists then do
        perform .stopLoading
        perform (.showErrorSnackbar "Email does not exist! 🙂")
      else if formattedEmail ≠ "" then do
        perform (.sendPasswordResetEmail formattedEmail)
        Action.lift sent
        perform .clearForm
        perform .stopLoading
        perform (.navigate "EmailSendConfrimation")
      else pure ()
    else
      perform .stopLoading)
    fun e => do
      perform .stopLoading
      perform (.showErrorSnackbar ("Some error occurred: " ++ e))

def loadingMessage : Language → String
  | .it => "Stiamo effettuando l'accesso..."
  | .en => "Logging you in..."

def incorrectPassword : Language → String
  | .it => "Password errata. Per favore riprova."
  | .en => "Incorrect password. Please try again."

def loginSuccess : Language → String
  | .it => "Accesso riuscito! Bentornato!"
  | .en => "Login successful! Welcome back!"

/-- What follows the loop. `answer` is what `login` returns or throws. -/
def decideLogin (language : Language) (email password : String)
    (answer : Except String (Option String)) (emailExists passwordMatches : Bool) : Act Unit :=
  if !emailExists && !passwordMatches then do
    perform .stopLoading
    perform (.showErrorSnackbar "User not signed up! 🙁")
  else if emailExists && !passwordMatches then do
    perform .stopLoading
    perform (.showErrorSnackbar (incorrectPassword language))
  else if !emailExists then do
    perform .stopLoading
    perform (.showErrorSnackbar "Email does not exist! 🙂")
  else do
    perform (.login (trim email) (trim password))
    let errorMessage ← Action.lift answer
    match errorMessage with
    | some message => do
      perform .stopLoading
      perform (.showErrorSnackbar message)
    | none => do
      perform .clearForm
      perform .stopLoading
      perform (.showSuccessSnackkbar "Success" (loginSuccess language))
      perform (.navigate "HomeScreen")

def userSignin (lower : String → String) (language : Language) (email password : String)
    (answer : Except String (Option String)) : Act Unit :=
  Action.tryCatch (do
    perform (.openLoadingDialog (loadingMessage language) "assets/files/signupAnimtion.json")
    if (validateEmail email).isNone && (validatePassword password).isNone then do
      let usersSnapshot ← get ["users"]
      let users ← Action.lift (asUsers usersSnapshot)
      let found ← Action.lift
        (matchUsers lower (lower (trim email)) (trim password) users (false, false))
      decideLogin language email password answer found.1 found.2
    else
      perform .stopLoading)
    fun e => do
      perform .stopLoading
      perform (.showErrorSnackbar ("An unexpected error occurred: " ++ e))

section Scan
variable {lower : String → String} {value : Json} {email password : String}

/-- What sign-in reads of a user: two texts. -/
def Stored (value : Json) (email password : String) : Prop :=
  value.child "email" = Json.str email ∧ value.child "password" = Json.str password

theorem stored_unique {email' password' : String} (stored : Stored value email password)
    (stored' : Stored value email' password') : email = email' ∧ password = password' := by
  have emails := stored.1.symm.trans stored'.1
  have passwords := stored.2.symm.trans stored'.2
  simp only [Json.str, Node.leaf.injEq, Value.str.injEq] at emails passwords
  exact ⟨emails, passwords⟩

theorem index_stored (stored : Stored value email password) (key : String) :
    index value key = .ok (value.child key) := by
  have there : value.child "email" ≠ Node.null := by
    rw [stored.1]
    exact Node.leaf_ne_null _
  simp only [index, asMap_of_child there (by decide)]

theorem emailIs_stored (stored : Stored value email password) (target : String) :
    emailIs lower target value = .ok (decide (lower email = target)) := by
  unfold emailIs
  rw [index_stored stored, stored.1]
  simp [bind, Except.bind, pure, Except.pure, Json.str, Node.isNull, toText, Value.toText]

theorem passwordIs_stored (stored : Stored value email password) (target : String) :
    passwordIs target value = .ok (decide (password = target)) := by
  unfold passwordIs
  rw [index_stored stored, stored.2]
  simp [bind, Except.bind, pure, Except.pure, Json.str, Node.isNull, toText, Value.toText]

def HasEmail (lower : String → String) (target : String) (value : Json) : Prop :=
  ∃ email password, Stored value email password ∧ lower email = target

def HasPair (lower : String → String) (target password : String) (value : Json) : Prop :=
  ∃ email, Stored value email password ∧ lower email = target

theorem hasEmail_iff (stored : Stored value email password) (target : String) :
    HasEmail lower target value ↔ lower email = target := by
  constructor
  · intro stored
    obtain ⟨email', password', stored', same⟩ := stored
    rw [(stored_unique stored stored').1, same]
  · intro same
    exact ⟨email, password, stored, same⟩

theorem hasPair_iff (stored : Stored value email password) (target password' : String) :
    HasPair lower target password' value ↔ lower email = target ∧ password = password' := by
  constructor
  · intro stored
    obtain ⟨email', stored', same⟩ := stored
    obtain ⟨emails, passwords⟩ := stored_unique stored stored'
    exact ⟨emails ▸ same, passwords⟩
  · intro both
    obtain ⟨same, rfl⟩ := both
    exact ⟨email, stored, same⟩

/-- Over stored users the loop finds an email, and a pair, exactly when some user has it. -/
theorem matchUsers_stored (values : List Json)
    (stored : ∀ value ∈ values, ∃ email password, Stored value email password)
    (target password : String) (found : Bool × Bool) :
    ∃ result, matchUsers lower target password values found = .ok result ∧
      (result.1 = true ↔ found.1 = true ∨ ∃ value ∈ values, HasEmail lower target value) ∧
      (result.2 = true ↔
        found.2 = true ∨ ∃ value ∈ values, HasPair lower target password value) := by
  induction values generalizing found with
  | nil => exact ⟨found, rfl, by simp, by simp⟩
  | cons value rest ih =>
    obtain ⟨email, own, here⟩ := stored value (by simp)
    have later := ih fun v hv => stored v (by simp [hv])
    simp only [matchUsers, emailIs_stored here, passwordIs_stored here, List.mem_cons,
      exists_eq_or_imp, hasEmail_iff here, hasPair_iff here]
    by_cases same : lower email = target
    · obtain ⟨result, matched, first, second⟩ := later (true, found.2 || decide (own = password))
      refine ⟨result, by simpa [same] using matched, ?_, ?_⟩
      · simp [first, same]
      · simp [second, same, or_assoc]
    · obtain ⟨result, matched, first, second⟩ := later found
      refine ⟨result, by simpa [same] using matched, ?_, ?_⟩
      · simp [first, same]
      · simp [second, same]

end Scan

section Programs
variable {lower : String → String} {email password : String} {db : Json}

theorem asUsers_there {users : Json} {key : String} (there : users.child key ≠ Node.null)
    (named : indexKey key = none) : asUsers users = .ok (users.keys.map users.child) := by
  simp only [asUsers, asMap_of_child there named]
  rfl

/-- Sign-in asks Auth exactly when some user is stored with the email and the password. -/
theorem login_called_iff {values : List Json} (language : Language)
    (answer : Except String (Option String)) (validEmail : validateEmail email = none)
    (validPassword : validatePassword password = none)
    (read : asUsers (db.get ["users"]) = .ok values)
    (stored : ∀ value ∈ values, ∃ email password, Stored value email password) :
    Ui.login (trim email) (trim password) ∈
        shownBy (userSignin lower language email password answer) db ↔
      ∃ value ∈ values, HasPair lower (lower (trim email)) (trim password) value := by
  obtain ⟨result, matched, first, second⟩ :=
    matchUsers_stored values stored (lower (trim email)) (trim password) (false, false)
  have fetched : shownBy (userSignin lower language email password answer) db =
      .openLoadingDialog (loadingMessage language) "assets/files/signupAnimtion.json" ::
        shownBy (Action.tryCatch (do
          let users ← Action.lift (asUsers (db.get ["users"]))
          let found ← Action.lift
            (matchUsers lower (lower (trim email)) (trim password) users (false, false))
          decideLogin language email password answer found.1 found.2)
          fun e => do
            perform .stopLoading
            perform (.showErrorSnackbar ("An unexpected error occurred: " ++ e))) db := by
    unfold userSignin
    simp only [validEmail, validPassword, Option.isNone_none, Bool.and_self, ↓reduceIte]
    rfl
  rw [fetched, read, Action.lift_ok_bind, matched, Action.lift_ok_bind]
  obtain ⟨emailExists, passwordMatches⟩ := result
  simp only [Bool.false_eq_true, false_or] at first second
  rw [← second, List.mem_cons]
  simp only [reduceCtorEq, false_or]
  cases passwordMatches with
  | false =>
    cases emailExists with
    | false =>
      change _ ∈ [Ui.stopLoading, .showErrorSnackbar _] ↔ _
      simp
    | true =>
      change _ ∈ [Ui.stopLoading, .showErrorSnackbar _] ↔ _
      simp
  | true =>
    -- a pair that matches has an email that matches
    have known : emailExists = true := by
      obtain ⟨value, member, other, own, same⟩ := second.mp rfl
      exact first.mpr ⟨value, member, other, trim password, own, same⟩
    subst known
    simp only [iff_true]
    exact List.mem_cons_self

theorem alone_userSignin (language : Language) (answer : Except String (Option String)) :
    (alone (userSignin lower language email password answer) db).1 = db := by
  have decided : ∀ found : Bool × Bool,
      (alone (decideLogin language email password answer found.1 found.2) db).1 = db := by
    intro both
    obtain ⟨emailExists, passwordMatches⟩ := both
    cases emailExists <;> cases passwordMatches <;> rcases answer with e | (_ | message) <;> rfl
  have read := alone_get ["users"] db
  unfold userSignin
  by_cases valid : ((validateEmail email).isNone && (validatePassword password).isNone) = true
  · simp only [alone, valid, ↓reduceIte, Action.exec_tryCatch, Action.exec_bind, perform,
      Action.exec_tell, Action.exec_lift] at read decided ⊢
    simp only [read]
    cases listed : asUsers (db.get ["users"]) with
    | error e => rfl
    | ok users =>
      cases matched : matchUsers lower (lower (trim email)) (trim password) users
        (false, false) with
      | error e => simp only [matched]
      | ok found =>
        have kept := decided found
        simp only [matched]
        split
        · rename_i ends
          rw [ends] at kept
          exact kept
        · rename_i ends
          rw [ends] at kept
          exact kept
  · simp only [valid, Bool.false_eq_true, ↓reduceIte]
    rfl

/-- A sign-up that Auth accepts writes the user's record and nothing else. -/
theorem alone_userSignUp {uid name confirmPassword time : String} (segment : IsUid uid)
    (valid : signupFormValidates name email password confirmPassword = true) :
    alone (userSignUp (.ok uid) name email password confirmPassword time) db =
      (db.set ["users", uid]
        (fromFields ((newUser uid name (trim email) (trim password) time).toMap time)), .ok ()) := by
  have path := ref_user segment.1
  simp [alone, userSignUp, createUserAccount, perform, Firebase.ref, Firebase.set, valid, path, serve]

theorem stored_newUser (uid name email password time : String) :
    Stored (fromFields ((newUser uid name email password time).toMap time)) email password :=
  ⟨rfl, rfl⟩

end Programs
end Authentication
