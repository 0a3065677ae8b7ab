import ShutterEase.Registration
import ShutterEase.Runs

/-!
The profile a registration is stamped with. `UserRepository` fetches the profile once, when the
one instance is created, for the user signed in then; who is signed in later does not matter to
it. The `users` node does not change during a session.
-/
namespace Session
open KeyedTree Resumption Runs Firebase FirebasePath ShutterModels DeviceController Registration

/-- A user that can sign in: `users/<uid>` holds the user's own id. -/
structure Account (users : Json) where
  uid : String
  segment : IsSegment uid
  profile : (users.child uid).child "id" = Json.str uid

/-- `uid` is the current user's where the fetch starts. -/
def fetchUserDetail (uid : Option String) : Act Json :=
  Action.tryCatch
    (match uid with
    | none => Action.throw "User not logged in"
    | some uid => do
      let userRef ← ref ("users/" ++ uid)
      let snapshot ← get userRef
      match snapshot with
      | .leaf _ => Action.throw "type cast: not a Map"
      | .branch user => pure (.branch user))
    fun e => Action.throw ("An unexpected error occurred: " ++ e)

inductive Fetch where
  | waiting
  | completed
  | failed
  deriving DecidableEq

structure UserRepository where
  uid : Option String
  fetch : Fetch
  userData : Json

structure State (users : Json) where
  currentUser : Option (Account users)
  repository : Option UserRepository
  db : Json

/-- `Get.put(UserRepository())`: the instance that is there, or a new one whose `onInit` reads
    the uid and starts the fetch. -/
def State.put {users : Json} (s : State users) : UserRepository :=
  s.repository.getD ⟨s.currentUser.map Account.uid, .waiting, .null⟩

/-- `userData['id']`, `userData['name']` and `userData['email']` as the model's fields take
    them. -/
def callerData (userData : Json) : Except String UserData := do
  let id ← asString? (userData.child "id")
  let name ← asString? (userData.child "name")
  let email ← asString? (userData.child "email")
  return { id, name, email }

/-- Past the form's validator; a profile of other types throws before the write. -/
def saveFrom (userData : Json) (form : DeviceForm) (now : DateTime) : Act Unit :=
  match callerData userData with
  | .ok caller => saveShutterDevice form caller now
  | .error _ => do
    perform (.openLoadingDialog "Saving Device Information...." "assets/files/signupAnimtion.json")
    perform .stopLoading
    perform (.showErrorSnackbar
      "Unable to save the device. Please check your connection and try again.")

/-- `answered` tells whether the service applies the registration's write. -/
inductive Event (users : Json) where
  | signIn (account : Account users)
  | logout
  | openDrawer
  | fetchAnswered
  | fetchFailed
  | saveShutterDevice (form : DeviceForm) (now : DateTime) (answered : Bool)

section Steps
variable {users : Json}

def step (s : State users) : Event users → Option (State users)
  | .signIn account => some { s with currentUser := some account }
  | .logout => some { s with currentUser := none }
  | .openDrawer => some { s with repository := some s.put }
  | .fetchAnswered =>
    match s.repository with
    | some ⟨uid, .waiting, _⟩ =>
      match (alone (fetchUserDetail uid) s.db).2 with
      | .ok user => some { s with repository := some ⟨uid, .completed, user⟩ }
      | .error _ => some { s with repository := some ⟨uid, .failed, .null⟩ }
    | _ => none
  | .fetchFailed =>
    match s.repository with
    | some ⟨uid, .waiting, _⟩ => some { s with repository := some ⟨uid, .failed, .null⟩ }
    | _ => none
  | .saveShutterDevice form now answered =>
    match s.currentUser with
    | none => none
    | some _ =>
      if form.validate then
        some { s with
          repository := some s.put
          db := if answered then (alone (saveFrom s.put.userData form now) s.db).1 else s.db }
      else some s

def deviceAdded : Ui := .showSuccessSnackkbar "Success"
  "Device added successfully! You can now manage your shutters."

/-- A save that reports success has written the signed-in user's uid. -/
def RegistersCaller (s : State users) : Event users → Prop
  | .saveShutterDevice form now true => ∀ user s', s.currentUser = some user →
      step s (.saveShutterDevice form now true) = some s' →
      deviceAdded ∈ shownBy (saveFrom s.put.userData form now) s.db →
      (s'.db.get ("ShutterDevices" :: pieces (newDeviceId form))).child "userId" =
        Json.str user.uid
  | _ => True

/-- The write that a save sends, when it sends one. -/
def Sends (s : State users) (form : DeviceForm) : Prop :=
  form.validate = true ∧ validCharacters (newDeviceId form) = true ∧
    ∃ caller, callerData s.put.userData = .ok caller

/-- The one fetch of the session has completed, and was started for the user signed in now. -/
def FetchedForCaller (s : State users) : Event users → Prop
  | .saveShutterDevice form _ true => ∀ user, s.currentUser = some user → Sends s form →
      ∃ repository, s.repository = some repository ∧ repository.uid = some user.uid ∧
        repository.fetch = .completed
  | _ => True

end Steps

section Programs
variable {form : DeviceForm} {now : DateTime} {db : Json}

/-- The profile of an account is a map, so the fetch returns it. -/
theorem alone_fetchUserDetail {users : Json} (account : Account users)
    (same : db.child "users" = users) :
    (alone (fetchUserDetail (some account.uid)) db).2 = .ok (users.child account.uid) := by
  have path := ref_user account.segment
  have profile := account.profile
  subst same
  cases user : (db.child "users").child account.uid with
  | leaf value =>
    simp only [user, Node.child_leaf, Json.str] at profile
    exact absurd profile.symm (Node.leaf_ne_null _)
  | branch fields =>
    simp [alone, fetchUserDetail, Firebase.ref, Firebase.get, path, serve, user]

theorem success_shown_iff (caller : UserData) :
    deviceAdded ∈ shownBy (saveShutterDevice form caller now) db ↔
      form.validate = true ∧ validCharacters (newDeviceId form) = true := by
  have path := ref_devicePath (newDeviceId form)
  simp only [newDeviceId] at path ⊢
  unfold shownBy saveShutterDevice Firebase.ref
  by_cases filled : form.validate = true
  · by_cases valid : validCharacters (DartText.trim form.macAddress) = true
    · simp only [valid, ↓reduceIte] at path
      simp only [filled, valid, path, and_self, ↓reduceIte, Action.lift_ok_bind, iff_true]
      exact List.mem_of_getElem? (i := 3) rfl
    · simp only [valid, Bool.false_eq_true, ↓reduceIte] at path
      simp only [filled, valid, path, ↓reduceIte, Action.lift_error_bind]
      change deviceAdded ∈ [Ui.openLoadingDialog _ _, .stopLoading, .showErrorSnackbar _] ↔ _
      simp [deviceAdded]
  · simp only [filled, Bool.false_eq_true, ↓reduceIte]
    change deviceAdded ∈ [Ui.openLoadingDialog _ _, .stopLoading] ↔ _
    simp [deviceAdded]

theorem saved_shown_iff (userData : Json) (form : DeviceForm) (now : DateTime) (db : Json) :
    deviceAdded ∈ shownBy (saveFrom userData form now) db ↔ form.validate = true ∧
      validCharacters (newDeviceId form) = true ∧ ∃ caller, callerData userData = .ok caller := by
  unfold saveFrom
  cases read : callerData userData with
  | ok caller => simp [success_shown_iff]
  | error e =>
    change deviceAdded ∈ [Ui.openLoadingDialog _ _, .stopLoading, .showErrorSnackbar _] ↔ _
    simp [deviceAdded]

/-- The id a registration is stamped with is the cached one. -/
theorem callerData_id {userData : Json} {caller : UserData}
    (read : callerData userData = .ok caller) :
    asString? (userData.child "id") = .ok caller.id := by
  unfold callerData at read
  cases id : asString? (userData.child "id") with
  | error e => simp [id, bind, Except.bind] at read
  | ok i =>
    cases name : asString? (userData.child "name") with
    | error e => simp [id, name, bind, Except.bind] at read
    | ok n =>
      cases email : asString? (userData.child "email") with
      | error e => simp [id, name, email, bind, Except.bind] at read
      | ok m =>
        simp only [id, name, email, bind, Except.bind, pure, Except.pure, Except.ok.injEq] at read
        rw [← read]

end Programs

section Cache
variable {users : Json} {s s' : State users}

/-- What is cached: nothing until the fetch completes, then the profile of the user it was
    started for. -/
def UserRepository.Sound (users : Json) (r : UserRepository) : Prop :=
  match r.fetch with
  | .waiting => r.userData = .null ∧
      ∀ uid, r.uid = some uid → ∃ account : Account users, account.uid = uid
  | .completed => ∃ account : Account users,
      r.uid = some account.uid ∧ r.userData = users.child account.uid
  | .failed => r.userData = .null

def Sound (s : State users) : Prop :=
  s.db.child "users" = users ∧ ∀ r, s.repository = some r → r.Sound users

theorem put_sound (sound : Sound s) : s.put.Sound users := by
  unfold State.put
  cases there : s.repository with
  | none =>
    refine ⟨rfl, ?_⟩
    intro uid read
    cases who : s.currentUser with
    | none => simp [who] at read
    | some account => exact ⟨account, by simpa [who] using read⟩
  | some r => exact sound.2 r there

theorem put_completed (completed : s.put.fetch = .completed) : s.repository = some s.put := by
  unfold State.put at *
  cases there : s.repository with
  | none => simp [there] at completed
  | some r => rfl

theorem users_saved (userData : Json) (form : DeviceForm) (now : DateTime) (db : Json) :
    (alone (saveFrom userData form now) db).1.child "users" = db.child "users" := by
  unfold saveFrom
  split
  · rw [alone_saveShutterDevice]
    split
    · simp only [Node.set_cons]
      exact Node.child_setChild_ne (by decide) _ _
    · rfl
  · rfl

theorem step_sound (sound : Sound s) {e : Event users} (h : step s e = some s') : Sound s' := by
  obtain ⟨kept, cached⟩ := sound
  cases e with
  | signIn account =>
    simp only [step, Option.some.injEq] at h
    subst h
    exact ⟨kept, cached⟩
  | logout =>
    simp only [step, Option.some.injEq] at h
    subst h
    exact ⟨kept, cached⟩
  | openDrawer =>
    simp only [step, Option.some.injEq] at h
    subst h
    refine ⟨kept, ?_⟩
    intro r same
    cases same
    exact put_sound ⟨kept, cached⟩
  | fetchAnswered =>
    simp only [step] at h
    split at h
    · rename_i uid data there
      obtain ⟨-, started⟩ := cached _ there
      split at h
      · rename_i user fetched
        simp only [Option.some.injEq] at h
        subst h
        refine ⟨kept, ?_⟩
        intro r same
        cases same
        cases uid with
        | none => simp [alone, fetchUserDetail] at fetched
        | some uid =>
          obtain ⟨account, rfl⟩ := started uid rfl
          rw [alone_fetchUserDetail account kept] at fetched
          simp only [Except.ok.injEq] at fetched
          exact ⟨account, rfl, fetched.symm⟩
      · simp only [Option.some.injEq] at h
        subst h
        refine ⟨kept, ?_⟩
        intro r same
        cases same
        rfl
    · simp at h
  | fetchFailed =>
    simp only [step] at h
    split at h
    · simp only [Option.some.injEq] at h
      subst h
      refine ⟨kept, ?_⟩
      intro r same
      cases same
      rfl
    · simp at h
  | saveShutterDevice form now answered =>
    simp only [step] at h
    split at h
    · simp at h
    · split at h
      · simp only [Option.some.injEq] at h
        subst h
        constructor
        · cases answered with
          | true => simpa [users_saved] using kept
          | false => exact kept
        · intro r same
          cases same
          exact put_sound ⟨kept, cached⟩
      · simp only [Option.some.injEq] at h
        subst h
        exact ⟨kept, cached⟩

/-- The id of a registration is the uid of a user exactly when that user's fetch completed. -/
theorem stamped_iff (sound : Sound s) (user : Account users) {caller : UserData}
    (read : callerData s.put.userData = .ok caller) : caller.id.getD "" = user.uid ↔
      ∃ repository, s.repository = some repository ∧ repository.uid = some user.uid ∧
        repository.fetch = .completed := by
  have id := callerData_id read
  have nonempty : "" ≠ user.uid := fun eq => user.segment.1 eq.symm
  have cached := put_sound sound
  have absent : s.put.userData = .null → caller.id.getD "" = "" := by
    intro empty
    rw [empty, Node.child_null] at id
    have unset : none = caller.id := Except.ok.inj id
    rw [← unset]
    rfl
  unfold UserRepository.Sound at cached
  cases state : s.put.fetch with
  | waiting =>
    rw [state] at cached
    rw [absent cached.1]
    refine ⟨fun eq => absurd eq nonempty, ?_⟩
    intro opened
    obtain ⟨r, there, -, completed⟩ := opened
    simp [State.put, there, completed] at state
  | failed =>
    rw [state] at cached
    rw [absent cached]
    refine ⟨fun eq => absurd eq nonempty, ?_⟩
    intro opened
    obtain ⟨r, there, -, completed⟩ := opened
    simp [State.put, there, completed] at state
  | completed =>
    rw [state] at cached
    obtain ⟨account, started, profile⟩ := cached
    rw [profile, account.profile] at id
    have set : some account.uid = caller.id := Except.ok.inj id
    have there := put_completed state
    rw [← set, Option.getD_some]
    constructor
    · intro same
      exact ⟨s.put, there, same ▸ started, state⟩
    · intro opened
      obtain ⟨r, there', started', -⟩ := opened
      rw [there, Option.some.injEq] at there'
      rw [← there', started, Option.some.injEq] at started'
      exact started'

/-- The write of a save that reports success. -/
theorem step_save {form : DeviceForm} {now : DateTime} {user : Account users}
    {caller : UserData} (signedIn : s.currentUser = some user) (filled : form.validate = true)
    (valid : validCharacters (newDeviceId form) = true)
    (read : callerData s.put.userData = .ok caller) :
    step s (.saveShutterDevice form now true) = some { s with
      repository := some s.put
      db := s.db.set ("ShutterDevices" :: pieces (newDeviceId form)) (record form caller now) } := by
  simp only [step, signedIn, filled, ↓reduceIte, saveFrom, read, alone_saveShutterDevice, valid,
    and_self]

theorem registers_caller_iff (sound : Sound s) (e : Event users) :
    RegistersCaller s e ↔ FetchedForCaller s e := by
  unfold RegistersCaller FetchedForCaller
  split
  · rename_i form now
    constructor
    · rintro registers user signedIn ⟨filled, valid, caller, read⟩
      have shown := (saved_shown_iff s.put.userData form now s.db).mpr
        ⟨filled, valid, caller, read⟩
      have written := registers user _ signedIn (step_save signedIn filled valid read) shown
      rw [Node.get_set_same, record_userId] at written
      apply (stamped_iff sound user read).mp
      simpa [Json.str] using written
    · intro fetched user s' signedIn h shown
      obtain ⟨filled, valid, caller, read⟩ := (saved_shown_iff _ _ _ _).mp shown
      have stamped := (stamped_iff sound user read).mpr
        (fetched user signedIn ⟨filled, valid, caller, read⟩)
      rw [step_save signedIn filled valid read, Option.some.injEq] at h
      rw [← h, Node.get_set_same, record_userId, stamped]
  · exact Iff.rfl

/-- In a session of any users, every save that reports success is the caller's exactly when the
    session's one fetch had completed by then and was started for the caller. -/
theorem registered_to_caller_iff (db : Json) (user : Option (Account (db.child "users")))
    (events : List (Event (db.child "users"))) :
    Along step RegistersCaller ⟨user, none, db⟩ events ↔
      Along step FetchedForCaller ⟨user, none, db⟩ events := by
  apply along_iff fun s : State (db.child "users") => Sound s
  · exact fun s e s' sound h => step_sound sound h
  · exact fun s e sound => registers_caller_iff sound e
  · refine ⟨rfl, ?_⟩
    intro r there
    simp at there

end Cache

section Switch

def twoUsers : Json := .branch [("users", .branch
  [("uid-1", .branch [("id", Json.str "uid-1"), ("name", Json.str "Ada")]),
    ("uid-2", .branch [("id", Json.str "uid-2"), ("name", Json.str "Bob")])])]

def adaAccount : Account (twoUsers.child "users") := ⟨"uid-1", by decide, rfl⟩

def bobAccount : Account (twoUsers.child "users") := ⟨"uid-2", by decide, rfl⟩

/-- The first registration after a start is nobody's, and after a change of accounts one is the
    earlier user's. -/
theorem device_of_another_user :
    ¬ Along step RegistersCaller ⟨none, none, twoUsers⟩
        [.signIn adaAccount, .saveShutterDevice salon noon true] ∧
      ¬ Along step RegistersCaller ⟨none, none, twoUsers⟩
        [.signIn adaAccount, .openDrawer, .fetchAnswered, .logout, .signIn bobAccount,
          .saveShutterDevice salon noon true] := by
  constructor
  · intro registers
    have save := (registers.2 _ rfl).1
    have written := save adaAccount _ rfl (step_save rfl (by decide) (by decide) rfl)
      ((saved_shown_iff _ _ _ _).mpr ⟨by decide, by decide, _, rfl⟩)
    rw [Node.get_set_same, record_userId] at written
    simp [Json.str, adaAccount] at written
  · intro registers
    have save := (((((registers.2 _ rfl).2 _ rfl).2 _ rfl).2 _ rfl).2 _ rfl).1
    have written := save bobAccount _ rfl (step_save rfl (by decide) (by decide) rfl)
      ((saved_shown_iff _ _ _ _).mpr ⟨by decide, by decide, _, rfl⟩)
    rw [Node.get_set_same, record_userId] at written
    simp [Json.str, bobAccount] at written

end Switch
end Session
