import ShutterEase.AccountDevices
import ShutterEase.Validations

/- The auto-play settings and the scheduler's evaluation. `parse` stands for
   `DateFormat('h:mm a').parse`, `none` where it throws; only the hour and the minute of its
   result are used. -/
namespace AutoPlayController
open KeyedTree Resumption Interleaving Firebase AccountDevices DartText

structure TimeOfDay where
  hour : Fin 24
  minute : Fin 60
  deriving DecidableEq, Repr

def twoDigits (n : Nat) : String := padLeft (toString n) 2 '0'

/-- `DateFormat('HH:mm').format`. -/
def formatHHmm (t : TimeOfDay) : String := twoDigits t.hour ++ ":" ++ twoDigits t.minute

/-- The scheduler's own text of the clock. -/
def currentTime (now : TimeOfDay) : String :=
  padLeft (toString now.hour.val) 2 '0' ++ ":" ++ padLeft (toString now.minute.val) 2 '0'

theorem twoDigits_value : ∀ n : Fin 60, digitsValue (twoDigits n).toList = n.val := by decide

theorem twoDigits_length : ∀ n : Fin 60, (twoDigits n).toList.length = 2 := by decide

theorem twoDigits_plain : ∀ n : Fin 60, ∀ c ∈ (twoDigits n).toList,
    Validations.isLetter c = false := by
  have letters : ∀ n : Fin 60, (twoDigits n).toList.any Validations.isLetter = false := by decide
  intro n c member
  simpa using List.any_eq_false.mp (letters n) c member

theorem twoDigits_injective {m n : Nat} (hm : m < 60) (hn : n < 60)
    (same : (twoDigits m).toList = (twoDigits n).toList) : m = n := by
  have left := twoDigits_value ⟨m, hm⟩
  have right := twoDigits_value ⟨n, hn⟩
  simp only [same] at left
  simp only [left] at right
  exact_mod_cast right

/-- The scheduler's clock text tells two times of day apart. -/
theorem currentTime_eq_iff (now t : TimeOfDay) : currentTime now = formatHHmm t ↔ now = t := by
  constructor
  · intro same
    have bounds := And.intro now.hour.isLt t.hour.isLt
    have bounds' := And.intro now.minute.isLt t.minute.isLt
    have chars := congrArg String.toList same
    have parts : (twoDigits now.hour).toList ++ ':' :: (twoDigits now.minute).toList =
        (twoDigits t.hour).toList ++ ':' :: (twoDigits t.minute).toList := by
      simpa [currentTime, formatHHmm, twoDigits] using chars
    have lengths : (twoDigits now.hour).toList.length = (twoDigits t.hour).toList.length := by
      rw [twoDigits_length ⟨now.hour.val, by omega⟩, twoDigits_length ⟨t.hour.val, by omega⟩]
    obtain ⟨hours, rest⟩ := List.append_inj parts lengths
    have minutes : (twoDigits now.minute).toList = (twoDigits t.minute).toList := by
      simpa using rest
    have hour_eq := twoDigits_injective (by omega) (by omega) hours
    have minute_eq := twoDigits_injective (by omega) (by omega) minutes
    cases now
    cases t
    simp only [TimeOfDay.mk.injEq]
    exact ⟨Fin.ext hour_eq, Fin.ext minute_eq⟩
  · intro same
    subst same
    rfl

def updateAutoPlayStatus (currentUser : Option String) (isEnabled : Bool) : Act Unit :=
  Action.tryCatch (do
    let shutterDevices ← get ["ShutterDevices"]
    updateEach [("autoPlay", Json.bool isEnabled)]
      [.showSuccessToast "Auto Play status is updated"]
      (userDevices currentUser shutterDevices))
    fun e => perform (.showErrorSnackbar ("Failed to update auto play status: " ++ e))

/-- A first device without the field leaves the switch as it was. -/
def loadAutoPlayStatus (currentUser : Option String) : Act Unit :=
  match currentUser with
  | none => pure ()
  | some uid => do
    let shutterDevices ← get ["ShutterDevices"]
    match userDevices (some uid) shutterDevices with
    | [] => pure ()
    | shutter :: _ => do
      let autoPlayEnabled ← Action.lift (asBool? (shutter.2.child "autoPlay"))
      match autoPlayEnabled with
      | none => pure ()
      | some value => perform (.setAutoPlayEnabled value)

def updateAutoPlayTime (currentUser : Option String) (time : String) : Act Unit :=
  Action.tryCatch (do
    let shutterDevices ← get ["ShutterDevices"]
    match userDevices currentUser shutterDevices with
    | [] => pure ()
    | device :: rest => do
      updateEach [("autoPlayTime", Json.str time)] [] (device :: rest)
      perform (.setAutoPlayTime time)
      perform (.showSuccessToast "Auto Play time is updated."))
    fun e => perform (.showErrorSnackbar ("Failed to update auto play time: " ++ e))

def loadAutoPlayTime (currentUser : Option String) : Act Unit :=
  match currentUser with
  | none => pure ()
  | some uid => do
    let shutterDevices ← get ["ShutterDevices"]
    match userDevices (some uid) shutterDevices with
    | [] => pure ()
    | shutter :: _ => do
      let savedAutoPlayTime ← Action.lift (asString? (shutter.2.child "autoPlayTime"))
      match savedAutoPlayTime with
      | none => pure ()
      | some time => perform (.setAutoPlayTime time)

section Scheduler
variable (parse : String → Option TimeOfDay)

def convertTo24HourFormat (time : Option String) : Option String :=
  match time with
  | none => none
  | some t => if t = "" || t = "00:00" then none else (parse t).map formatHHmm

/-- The loop's test for one device. -/
def opensAt (now : TimeOfDay) (autoPlayEnabled : Bool) (autoPlayTime : String) : Bool :=
  autoPlayEnabled = true && convertTo24HourFormat parse (some autoPlayTime) = some (currentTime now)

def openingFields : List (String × Json) :=
  [("shutterIconStatus", Json.bool true), ("deviceStatus", Json.bool true)]

/-- A cast that fails leaves the loop; a write that fails does not. -/
def playEach (now : TimeOfDay) : List (String × Json) → Act Unit
  | [] => pure ()
  | shutter :: rest => do
    let autoPlayEnabled ← Action.lift (asBool (shutter.2.child "autoPlay"))
    let autoPlayTime ← Action.lift (asString (shutter.2.child "autoPlayTime"))
    if opensAt parse now autoPlayEnabled autoPlayTime then do
      Action.tryCatch (update ["ShutterDevices", shutter.1] openingFields)
        fun e => perform (.showErrorSnackbar ("Error updating device status: " ++ e))
      playEach now rest
    else playEach now rest

/-- `now` is the clock as read once the snapshot has arrived. -/
def setupAutoPlayShutters (currentUser : Option String) (now : TimeOfDay) : Act Unit :=
  match currentUser with
  | none => pure ()
  | some uid => do
    let shutterDevices ← get ["ShutterDevices"]
    playEach parse now (userDevices (some uid) shutterDevices)

theorem issues_playEach {P : DbCall → Prop} {now : TimeOfDay} {shutters : List (String × Json)}
    (each : ∀ shutter ∈ shutters, P (.update ["ShutterDevices", shutter.1] openingFields)) :
    Issues P (playEach parse now shutters) := by
  induction shutters with
  | nil => trivial
  | cons shutter rest ih =>
    have later := ih fun s hs => each s (by simp [hs])
    apply issues_andThen (issues_lift _)
    intro autoPlayEnabled
    apply issues_andThen (issues_lift _)
    intro autoPlayTime
    by_cases opens : opensAt parse now autoPlayEnabled autoPlayTime = true
    · simp only [opens, ↓reduceIte]
      apply issues_andThen
      · exact issues_tryCatch (issues_update (each shutter (by simp))) fun e => issues_tell _
      · exact fun _ => later
    · simp only [opens, Bool.false_eq_true, ↓reduceIte]
      exact later

/-- The keys the loop writes to: it stops at the first record that a cast refuses. -/
def opened (now : TimeOfDay) : List (String × Json) → List String
  | [] => []
  | shutter :: rest =>
    match asBool (shutter.2.child "autoPlay"), asString (shutter.2.child "autoPlayTime") with
    | .ok autoPlayEnabled, .ok autoPlayTime =>
      if opensAt parse now autoPlayEnabled autoPlayTime then shutter.1 :: opened now rest
      else opened now rest
    | _, _ => []

theorem alone_playEach (now : TimeOfDay) (shutters : List (String × Json)) (db : Json) :
    (alone (playEach parse now shutters) db).1 =
      writeEach openingFields (opened parse now shutters) db := by
  induction shutters generalizing db with
  | nil => rfl
  | cons shutter rest ih =>
    simp only [alone] at ih ⊢
    simp only [playEach, opened, Action.exec_bind, Action.exec_lift]
    cases asBool (shutter.2.child "autoPlay") with
    | error e => rfl
    | ok autoPlayEnabled =>
      cases asString (shutter.2.child "autoPlayTime") with
      | error e => rfl
      | ok autoPlayTime =>
        by_cases opens : opensAt parse now autoPlayEnabled autoPlayTime = true
        · have written := alone_update ["ShutterDevices", shutter.1] openingFields db
          simp only [alone] at written
          simp only [opens, ↓reduceIte, Action.exec_bind, Action.exec_tryCatch, written, ih]
          rfl
        · simp only [opens, Bool.false_eq_true, ↓reduceIte, ih]

theorem alone_setupAutoPlayShutters (uid : String) (now : TimeOfDay) (db : Json) :
    (alone (setupAutoPlayShutters parse (some uid) now) db).1 = writeEach openingFields
      (opened parse now (userDevices (some uid) (db.child "ShutterDevices"))) db := by
  have played := alone_playEach parse now (userDevices (some uid) (db.child "ShutterDevices")) db
  have read := alone_get ["ShutterDevices"] db
  simp only [alone] at read played ⊢
  simp only [setupAutoPlayShutters, Action.exec_bind, read, Node.get_cons, Node.get_nil]
  exact played

theorem opened_sublist (now : TimeOfDay) (shutters : List (String × Json)) :
    (opened parse now shutters).Sublist (shutters.map Prod.fst) := by
  induction shutters with
  | nil => exact List.Sublist.refl []
  | cons shutter rest ih =>
    simp only [opened, List.map_cons]
    split
    · split
      · exact ih.cons_cons _
      · exact ih.cons _
    · exact List.nil_sublist _

def Passes (shutter : Json) : Prop :=
  (∃ b, shutter.child "autoPlay" = Json.bool b) ∧ ∃ t, shutter.child "autoPlayTime" = Json.str t

/-- A device behind records that pass is opened exactly when the loop's test holds of it. -/
theorem mem_opened_reached {now : TimeOfDay} {before after : List (String × Json)}
    {key text : String} {device : Json} {enabled : Bool}
    (distinct : ((before ++ (key, device) :: after).map Prod.fst).Nodup)
    (passes : ∀ e ∈ before, Passes e.2) (flag : device.child "autoPlay" = Json.bool enabled)
    (time : device.child "autoPlayTime" = Json.str text) :
    key ∈ opened parse now (before ++ (key, device) :: after) ↔
      opensAt parse now enabled text = true := by
  induction before with
  | nil =>
    simp only [List.nil_append, List.map_cons, List.nodup_cons] at distinct
    have absent : key ∉ opened parse now after :=
      fun member => distinct.1 ((opened_sublist parse now after).subset member)
    simp only [List.nil_append, opened, flag, time, asBool, asString, Json.bool, Json.str]
    split
    · rename_i opens
      simp [opens]
    · rename_i opens
      simp [opens, absent]
  | cons first rest ih =>
    simp only [List.cons_append, List.map_cons, List.nodup_cons] at distinct
    have other : key ≠ first.1 := by
      intro eq
      apply distinct.1
      rw [← eq]
      simp
    obtain ⟨⟨b, flag'⟩, t, time'⟩ := passes first (by simp)
    have later := ih distinct.2 fun e he => passes e (by simp [he])
    simp only [List.cons_append, opened, flag', time', asBool, asString, Json.bool, Json.str]
    split
    · rw [List.mem_cons, later]
      simp [other]
    · exact later

end Scheduler

/-- The settings write one field to every device of the user's query. -/
theorem alone_updateAutoPlayStatus (user : Option String) (isEnabled : Bool) (db : Json) :
    (alone (updateAutoPlayStatus user isEnabled) db).1 = writeEach
      [("autoPlay", Json.bool isEnabled)]
      ((userDevices user (db.child "ShutterDevices")).map Prod.fst) db := by
  have read := alone_get ["ShutterDevices"] db
  have written := alone_updateEach [("autoPlay", Json.bool isEnabled)]
    [.showSuccessToast "Auto Play status is updated"]
    (userDevices user (db.child "ShutterDevices")) db
  simp only [alone] at read written ⊢
  simp only [updateAutoPlayStatus, Action.exec_tryCatch, Action.exec_bind, read, Node.get_cons,
    Node.get_nil, written]

theorem alone_updateAutoPlayTime (user : Option String) (time : String) (db : Json) :
    (alone (updateAutoPlayTime user time) db).1 = writeEach [("autoPlayTime", Json.str time)]
      ((userDevices user (db.child "ShutterDevices")).map Prod.fst) db := by
  have read := alone_get ["ShutterDevices"] db
  have written := alone_updateEach [("autoPlayTime", Json.str time)] []
    (userDevices user (db.child "ShutterDevices")) db
  simp only [alone] at read written ⊢
  simp only [updateAutoPlayTime, Action.exec_tryCatch, Action.exec_bind, read, Node.get_cons,
    Node.get_nil]
  cases devices : userDevices user (db.child "ShutterDevices") with
  | nil => rfl
  | cons device rest =>
    rw [devices] at written
    simp only [Action.exec_bind, written]
    rfl

end AutoPlayController
