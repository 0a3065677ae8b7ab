import ShutterEase.BulkCommands
import ShutterEase.Paths
import ShutterEase.Session
import ShutterEase.SignIn

/-!
The operations behind the blocking loader. Each opens it and pops it by hand, early returns and
handlers included. Listening to `ShutterDevices` does not throw: what fails there fails on the
stream.
-/
namespace Loader
open KeyedTree Resumption Paths Firebase ShutterModels DartText Validations Authentication
open AccountDevices CommandsController BulkCommands
open DeviceController (DeviceForm devicePath)
open ScheduleController (Language)

/-- A refused form never reads the profile. -/
def saveShutterDevice (userData : Json) (form : DeviceForm) (now : DateTime) : Act Unit :=
  if form.validate then Session.saveFrom userData form now
  else DeviceController.saveShutterDevice form ⟨none, none, none⟩ now

/-- The operations with the forms they read and the answers that Auth gives. -/
inductive Operation where
  | userSignUp (created : Except String String)
      (name email password confirmPassword time : String)
  | userSignin (language : Language) (email password : String)
      (answer : Except String (Option String))
  | resetPassword (email : String) (sent : Except String Unit)
  | saveShutterDevice (userData : Json) (form : DeviceForm) (now : DateTime)
  | bulk (command : Bulk) (currentUser : Option String)

def program (lower : String → String) : Operation → Act Unit
  | .userSignUp created name email password confirmPassword time =>
    Authentication.userSignUp created name email password confirmPassword time
  | .userSignin language email password answer =>
    Authentication.userSignin lower language email password answer
  | .resetPassword email sent => Authentication.resetPassword lower email sent
  | .saveShutterDevice userData form now => saveShutterDevice userData form now
  | .bulk command currentUser => command.program currentUser

/-- The pops so far. -/
def pops (n : Nat) (o : Ui) : Nat := if o = .stopLoading then n + 1 else n

/-- A guarded body has popped the loader where it ends well, and not where it throws. -/
def Guarded (n : Nat) : Except String Unit → Prop
  | .ok _ => n = 1
  | .error _ => n = 0

def Once (n : Nat) (_ : Except String Unit) : Prop := n = 1

theorem foldl_pops (shown : List Ui) (n : Nat) :
    shown.foldl pops n = n + shown.count .stopLoading := by
  induction shown generalizing n with
  | nil => rfl
  | cons o rest ih =>
    rw [List.foldl_cons, ih, List.count_cons]
    by_cases pop : o = Ui.stopLoading
    · simp only [pops, pop, ↓reduceIte, beq_self_eq_true]
      omega
    · simp [pops, pop]

section Parts

theorem steady_perform {o : Ui} (other : o ≠ .stopLoading) : Steady pops (perform o) := by
  apply steady_tell
  intro n
  simp [pops, other]

theorem steady_get (path : List String) : Steady pops (get path) := steady_request _

theorem steady_set (path : List String) (value : Json) : Steady pops (set path value) :=
  steady_andThen (steady_request _) fun _ => steady_pure ()

theorem steady_update (path : List String) (fields : List (String × Json)) :
    Steady pops (update path fields) :=
  steady_andThen (steady_request _) fun _ => steady_pure ()

theorem steady_ref (path : String) : Steady pops (ref path) := steady_lift _

/-- The loop over the devices pops nothing, wherever it stops. -/
theorem steady_updateEach (fields : List (String × Json)) (devices : List (String × Json)) :
    Steady pops (updateEach fields [] devices) := by
  induction devices with
  | nil => exact steady_pure ()
  | cons device rest ih =>
    apply steady_andThen (steady_update _ fields)
    intro _
    exact steady_andThen (steady_pure ()) fun _ => ih

theorem steady_createUserAccount (created : Except String String)
    (name email password time : String) :
    Steady pops (createUserAccount created name email password time) := by
  apply steady_andThen (steady_perform (by simp))
  intro _
  apply steady_andThen (steady_lift created)
  intro uid
  apply steady_andThen (steady_ref _)
  intro userRef
  exact steady_set userRef _

theorem ends_guarded {body : Act Unit} {handle : String → Act Unit}
    (guarded : Ends pops Guarded 0 body) (handled : ∀ e, Ends pops Once 0 (handle e)) :
    Ends pops Once 0 (Action.tryCatch body handle) := by
  apply ends_tryCatch
  refine ends_mono ?_ guarded
  intro n r ended
  cases r with
  | ok _ => exact ended
  | error e =>
    simp only [Guarded] at ended
    subst ended
    exact handled e

end Parts

section Operations
variable {lower : String → String}

theorem once_userSignUp (created : Except String String)
    (name email password confirmPassword time : String) :
    Ends pops Once 0 (userSignUp created name email password confirmPassword time) := by
  apply ends_guarded
  · apply ends_steady_then (steady_perform (by simp)) fun _ => rfl
    intro _
    split
    · apply ends_steady_then (steady_createUserAccount created _ _ _ _) fun _ => rfl
      intro _
      exact rfl
    · exact rfl
  · exact fun _ => rfl

/-- Four exits that pop, one throw that does not. -/
theorem guarded_decideLogin (language : Language) (email password : String)
    (answer : Except String (Option String)) (emailExists passwordMatches : Bool) :
    Ends pops Guarded 0
      (decideLogin language email password answer emailExists passwordMatches) := by
  unfold decideLogin
  split
  · exact rfl
  · split
    · exact rfl
    · split
      · exact rfl
      · apply ends_steady_then (steady_perform (by simp)) fun _ => rfl
        intro _
        apply ends_steady_then (steady_lift answer) fun _ => rfl
        intro errorMessage
        cases errorMessage with
        | some message => exact rfl
        | none => exact rfl

theorem once_userSignin (language : Language) (email password : String)
    (answer : Except String (Option String)) :
    Ends pops Once 0 (userSignin lower language email password answer) := by
  apply ends_guarded
  · apply ends_steady_then (steady_perform (by simp)) fun _ => rfl
    intro _
    split
    · apply ends_steady_then (steady_get _) fun _ => rfl
      intro usersSnapshot
      apply ends_steady_then (steady_lift _) fun _ => rfl
      intro users
      apply ends_steady_then (steady_lift _) fun _ => rfl
      intro found
      exact guarded_decideLogin language email password answer found.1 found.2
    · exact rfl
  · exact fun _ => rfl

/-- The branch for an empty formatted email would not pop; an accepted email never takes it. -/
theorem once_resetPassword (kept : ∀ text, text ≠ "" → lower text ≠ "") (email : String)
    (sent : Except String Unit) :
    Ends pops Once 0 (resetPassword lower email sent) := by
  apply ends_guarded
  · apply ends_steady_then (steady_perform (by simp)) fun _ => rfl
    intro _
    split
    · rename_i valid
      apply ends_steady_then (steady_get _) fun _ => rfl
      intro usersSnapshot
      apply ends_steady_then (steady_lift _) fun _ => rfl
      intro users
      apply ends_steady_then (steady_lift _) fun _ => rfl
      intro emailExists
      split
      · exact rfl
      · split
        · apply ends_steady_then (steady_perform (by simp)) fun _ => rfl
          intro _
          apply ends_steady_then (steady_lift sent) fun _ => rfl
          intro _
          exact rfl
        · rename_i empty
          have text := email_trimmed (Option.isNone_iff_eq_none.mp valid)
          exact absurd (kept _ text) empty
    · exact rfl
  · exact fun _ => rfl

theorem once_saveShutterDevice (userData : Json) (form : DeviceForm) (now : DateTime) :
    Ends pops Once 0 (saveShutterDevice userData form now) := by
  have saved : ∀ caller, Ends pops Once 0 (DeviceController.saveShutterDevice form caller now) := by
    intro caller
    apply ends_guarded
    · apply ends_steady_then (steady_perform (by simp)) fun _ => rfl
      intro _
      split
      · have steady := steady_ref (devicePath (trim form.macAddress))
        dsimp only
        -- which path it is does not matter, only that it may be refused
        generalize ref (devicePath (trim form.macAddress)) = parsed at steady ⊢
        apply ends_steady_then steady fun _ => rfl
        intro path
        apply ends_steady_then (steady_set path _) fun _ => rfl
        intro _
        exact rfl
      · exact rfl
    · exact fun _ => rfl
  unfold saveShutterDevice
  split
  · unfold Session.saveFrom
    split
    · exact saved _
    · exact rfl
  · exact saved _

theorem once_bulkCommand (command : Command) (currentUser : Option String) :
    Ends pops Once 0 (bulkCommand command currentUser) := by
  apply ends_guarded
  · apply ends_steady_then (steady_perform (by simp)) fun _ => rfl
    intro _
    apply ends_steady_then (steady_get _) fun _ => rfl
    intro shutterDevices
    split
    · exact rfl
    · apply ends_steady_then (steady_updateEach command.fields _) fun _ => rfl
      intro _
      exact rfl
  · exact fun _ => rfl

theorem once_program (kept : ∀ text, text ≠ "" → lower text ≠ "") (op : Operation) :
    Ends pops Once 0 (program lower op) := by
  cases op with
  | userSignUp created name email password confirmPassword time =>
    exact once_userSignUp created name email password confirmPassword time
  | userSignin language email password answer =>
    exact once_userSignin language email password answer
  | resetPassword email sent => exact once_resetPassword kept email sent
  | saveShutterDevice userData form now => exact once_saveShutterDevice userData form now
  | bulk command currentUser => cases command <;> exact once_bulkCommand _ currentUser

/-- Against any service, whatever it stores, answers or refuses, the loader is popped once. -/
theorem loader_popped_once {σ : Type} (lower : String → String)
    (kept : ∀ text, text ≠ "" → lower text ≠ "") (op : Operation)
    (service : DbCall → σ → Except String (σ × Json)) (s : σ) :
    ((program lower op).play service s).output.count Ui.stopLoading = 1 := by
  have once := ends_run (once_program kept op) service s
  rw [foldl_pops] at once
  simpa [Once, Action.play] using once

end Operations

section Ascii
open SignIn (asciiLower)

theorem asciiLower_kept (text : String) (some_text : text ≠ "") : asciiLower text ≠ "" := by
  intro gone
  apply some_text
  apply String.toList_inj.mp
  simpa [asciiLower] using congrArg String.toList gone

/-- An accepted email with a blank behind it, and a `users` node that holds no map. -/
theorem reset_popped_once : ((program asciiLower (.resetPassword "ada@x.it " (.ok ()))).play
    respond (.branch [("users", Json.str "none")])).output.count Ui.stopLoading = 1 :=
  loader_popped_once asciiLower asciiLower_kept _ _ _

end Ascii
end Loader
