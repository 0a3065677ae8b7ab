import ShutterEase.Confirmations
import ShutterEase.Events

/-!
What the operations tell the user, on every path and against every service. A call that fails is
followed by an error message of its own or ends the operation with an exception, and a success
message of an operation that reports once stands alone: no call has failed and nothing else is
reported.
-/
namespace Reports
open KeyedTree Resumption Events Firebase FirebasePath ShutterModels AccountDevices
open DeviceController CommandsController AutoPlayController ScheduleController Registration
open Operations BulkCommands Confirmations

/-- `pending` counts the failed calls that no error message has followed yet. -/
structure Tally where
  failed : Nat
  pending : Nat
  successes : Nat
  errors : Nat
  deriving DecidableEq, Repr

def Tally.fail (t : Tally) : Tally := { t with failed := t.failed + 1, pending := t.pending + 1 }

def Tally.error (t : Tally) : Tally := { t with errors := t.errors + 1, pending := t.pending - 1 }

/-- `Get.snackbar` is titled by hand; the wrappers say by their name what they report. -/
def count (t : Tally) : Event Ui String → Tally
  | .shown (.showSuccessSnackkbar _ _) | .shown (.showSuccessToast _) =>
    { t with successes := t.successes + 1 }
  | .shown (.showErrorSnackbar _) => t.error
  | .shown (.snackbar title _) => if title = "Error" then t.error else t
  | .failed _ => t.fail
  | _ => t

def nothing : Tally := ⟨0, 0, 0, 0⟩

/-- The operations whose opening read is under no handler. -/
def Unguarded : Operation → Prop
  | .toggleDeviceStatus _ | .loadAutoPlayStatus _ | .loadAutoPlayTime _
  | .setupAutoPlayShutters _ _ => True
  | _ => False

/-- How an operation may end, given what it has reported. -/
structure Honest (op : Operation) (t : Tally) (r : Except String Unit) : Prop where
  told : t.pending = 0 ∨ (∃ e, r = .error e) ∧ t.pending = 1
  alone : 0 < t.successes → ReportsOnce op → t = ⟨0, 0, 1, 0⟩ ∧ r = .ok ()
  handled : (∃ e, r = .error e) → Unguarded op

section Verdicts
variable (op : Operation)

theorem honest_silent : Honest op nothing (.ok ()) :=
  ⟨Or.inl rfl, fun some _ => absurd some (Nat.lt_irrefl 0), by simp⟩

theorem honest_success : Honest op ⟨0, 0, 1, 0⟩ (.ok ()) :=
  ⟨Or.inl rfl, fun _ _ => ⟨rfl, rfl⟩, by simp⟩

theorem honest_error {t : Tally} (told : t.pending = 0)
    (alone : ReportsOnce op → t.successes = 0) : Honest op t (.ok ()) := by
  refine ⟨Or.inl told, fun some once => ?_, by simp⟩
  have none := alone once
  omega

theorem honest_thrown (unguarded : Unguarded op) (u : Tally) (e : String)
    (said : u = nothing ∨ ∃ e', u = count nothing (.failed e')) :
    Honest op u (.error e) := by
  rcases said with rfl | ⟨e', rfl⟩
  · exact ⟨Or.inl rfl, fun some _ => absurd some (Nat.lt_irrefl 0), fun _ => unguarded⟩
  · exact ⟨Or.inr ⟨⟨e, rfl⟩, rfl⟩, fun some _ => absurd some (Nat.lt_irrefl 0), fun _ => unguarded⟩

end Verdicts

section Parts
variable {α β : Type}

section Requests
variable {τ : Type} {observe : τ → Event Ui String → τ} (still : ∀ t, observe t .answered = t)

include still

theorem mute_get (path : List String) : Mute observe (Firebase.get path) := mute_request still _

theorem mute_update (path : List String) (fields : List (String × Json)) :
    Mute observe (update path fields) := mute_andThen (mute_request still _) fun _ => mute_pure ()

theorem mute_set (path : List String) (value : Json) : Mute observe (set path value) :=
  mute_andThen (mute_request still _) fun _ => mute_pure ()

theorem mute_remove (path : List String) : Mute observe (remove path) :=
  mute_andThen (mute_request still _) fun _ => mute_pure ()

theorem mute_updateEach (fields : List (String × Json)) (devices : List (String × Json)) :
    Mute observe (updateEach fields [] devices) := by
  induction devices with
  | nil => exact mute_pure ()
  | cons device rest ih =>
    apply mute_andThen (mute_update still _ fields)
    intro _
    exact mute_andThen (mute_pure ()) fun _ => ih

theorem mute_saveDays (scheduleRef : List String) (lang : Language) (rows : Fin 7 → Times)
    (l : List (Fin 7)) : Mute observe (saveDays scheduleRef lang rows l) := by
  induction l with
  | nil => exact mute_pure ()
  | cons i rest ih => exact mute_andThen (mute_update still _ _) fun _ => ih

end Requests

theorem mute_ref {τ : Type} {observe : τ → Event Ui String → τ} (path : String) :
    Mute observe (ref path) := mute_lift _

theorem still_count (t : Tally) : count t .answered = t := rfl

theorem leads_update_then {Q : Tally → Except String β → Prop} {t : Tally} {path : List String}
    {fields : List (String × Json)} {f : Unit → Act β} (answered : Leads count Q t (f ()))
    (failed : ∀ e, Q t.fail (.error e)) :
    Leads count Q t (update path fields >>= f : Act β) := by
  intro r
  cases r with
  | ok a => exact answered
  | error e => exact failed e

/-- What a guarded body leaves to its handler: at most one failed call to report. -/
def Body (op : Operation) (u : Tally) : Except String Unit → Prop
  | .ok r => Honest op u (.ok r)
  | .error _ => u.pending ≤ 1 ∧ (ReportsOnce op → u.successes = 0)

/-- The handler says one error. -/
def Apologises (p : Act Unit) : Prop :=
  ∀ t, Leads count (fun u r => u = t.error ∧ r = .ok ()) t p

theorem honest_guarded {op : Operation} {body : Act Unit} {handle : String → Act Unit}
    (h : Leads count (Body op) nothing body) (handled : ∀ e, Apologises (handle e)) :
    Leads count (Honest op) nothing (Action.tryCatch body handle) := by
  apply leads_tryCatch
  refine leads_mono ?_ h
  intro u r ended
  cases r with
  | ok a => exact ended
  | error e =>
    refine leads_mono ?_ (handled e u)
    rintro v r ⟨rfl, rfl⟩
    obtain ⟨few, alone⟩ := ended
    exact honest_error op (Nat.sub_eq_zero_of_le few) alone

theorem body_thrown {op : Operation} (u : Tally) (e : String)
    (said : u = nothing ∨ ∃ e', u = count nothing (.failed e')) :
    Body op u (.error e) := by
  rcases said with rfl | ⟨e', rfl⟩
  · exact ⟨Nat.zero_le 1, fun _ => rfl⟩
  · exact ⟨le_rfl, fun _ => rfl⟩

end Parts

section Operations
variable {op : Operation}

theorem honest_bulkCommand (command : Command) (user : Option String) :
    Leads count (Honest op) nothing (bulkCommand command user) := by
  refine honest_guarded ?_ fun e t => show Leads count _ t _ from ⟨rfl, rfl⟩
  apply leads_tell_then
  apply mute_then (mute_request still_count _) body_thrown
  intro snapshot
  cases userDevices user snapshot with
  | nil => exact honest_error op rfl fun _ => rfl
  | cons device rest =>
    apply mute_then (mute_updateEach still_count _ _) body_thrown
    exact fun _ => honest_success op

theorem honest_update {deviceId : String} {fields : List (String × Json)} {shown : Act Unit}
    {handle : String → Act Unit} (told : Leads count (Body op) nothing shown)
    (handled : ∀ e, Apologises (handle e)) :
    Leads count (Honest op) nothing (Action.tryCatch (do
      let deviceRef ← ref (devicePath deviceId)
      update deviceRef fields
      shown) handle) := by
  refine honest_guarded ?_ handled
  apply mute_then (mute_ref _) body_thrown
  intro deviceRef
  exact mute_then (mute_update still_count _ _) body_thrown fun _ => told

theorem honest_saveShutterDevice (form : DeviceForm) (userData : UserData) (now : DateTime) :
    Leads count (Honest op) nothing (DeviceController.saveShutterDevice form userData now) := by
  refine honest_guarded ?_ fun e t => show Leads count _ t _ from ⟨rfl, rfl⟩
  apply leads_tell_then
  by_cases valid : form.validate = true
  · simp only [valid, ↓reduceIte]
    apply mute_then (mute_ref _) body_thrown
    intro path
    apply mute_then (mute_set still_count _ _) body_thrown
    exact fun _ => honest_success op
  · simp only [valid, Bool.false_eq_true, ↓reduceIte]
    exact honest_silent op

theorem honest_deleteShutterDevice (deviceId : String) (shouldDelete : Option Bool) :
    Leads count (Honest op) nothing
      (DeviceController.deleteShutterDevice deviceId shouldDelete) := by
  unfold DeviceController.deleteShutterDevice
  split
  · refine honest_guarded ?_ fun e t => show Leads count _ t _ from ⟨rfl, rfl⟩
    apply mute_then (mute_ref _) body_thrown
    intro deviceRef
    apply mute_then (mute_remove still_count _) body_thrown
    exact fun _ => honest_success op
  · exact honest_silent op

/-- The read is outside the handler, and so is the cast of what it finds. -/
theorem honest_toggleDeviceStatus (device : DeviceId) :
    Leads count (Honest (.toggleDeviceStatus device)) nothing
      (DeviceController.toggleDeviceStatus device.1) := by
  have threw := honest_thrown (.toggleDeviceStatus device) trivial
  unfold DeviceController.toggleDeviceStatus
  apply mute_then (mute_ref _) threw
  intro deviceRef
  apply mute_then (mute_request still_count _) threw
  intro snapshot
  split
  · exact honest_error _ rfl fun _ => rfl
  · apply mute_then (mute_lift _) threw
    intro deviceData
    apply mute_then (mute_lift _) threw
    intro stored
    refine honest_guarded ?_ fun e t => show Leads count _ t _ from ⟨rfl, rfl⟩
    apply mute_then (mute_update still_count _ _) body_thrown
    exact fun _ => honest_success _

theorem honest_updateAutoPlayTime (user : Option String) (time : String) :
    Leads count (Honest op) nothing (AutoPlayController.updateAutoPlayTime user time) := by
  refine honest_guarded ?_ fun e t => show Leads count _ t _ from ⟨rfl, rfl⟩
  apply mute_then (mute_request still_count _) body_thrown
  intro snapshot
  cases userDevices user snapshot with
  | nil => exact honest_silent op
  | cons device rest =>
    apply mute_then (mute_updateEach still_count _ _) body_thrown
    exact fun _ => honest_success op

/-- The loop that reports after each device stops at the first failure. -/
theorem counts_updateEach {fields : List (String × Json)} {message : String}
    (devices : List (String × Json)) (t : Tally) :
    Leads count (fun u r => match r with
      | .ok _ => u.pending = t.pending
      | .error _ => u.pending = t.pending + 1) t
      (updateEach fields [.showSuccessToast message] devices) := by
  induction devices generalizing t with
  | nil => rfl
  | cons device rest ih =>
    apply leads_update_then _ fun e => rfl
    exact ih { t with successes := t.successes + 1 }

theorem honest_updateAutoPlayStatus (user : Option String) (isEnabled : Bool) :
    Leads count (Honest (.updateAutoPlayStatus user isEnabled)) nothing
      (AutoPlayController.updateAutoPlayStatus user isEnabled) := by
  refine honest_guarded ?_ fun e t => show Leads count _ t _ from ⟨rfl, rfl⟩
  apply mute_then (mute_request still_count _) body_thrown
  intro snapshot
  refine leads_mono ?_ (counts_updateEach (userDevices user snapshot) nothing)
  intro u r counted
  cases r with
  | ok a => exact ⟨Or.inl counted, fun _ once => once.elim, by simp⟩
  | error e => exact ⟨le_of_eq counted, fun once => once.elim⟩

/-- Each write of the scheduler that fails has its own message. -/
theorem counts_playEach (parse : String → Option TimeOfDay) (now : TimeOfDay)
    (shutters : List (String × Json)) (t : Tally) (even : t.pending = 0) :
    Leads count (fun u _ => u.pending = 0) t (playEach parse now shutters) := by
  induction shutters generalizing t with
  | nil => exact even
  | cons shutter rest ih =>
    unfold playEach
    cases asBool (shutter.2.child "autoPlay") with
    | error e => exact even
    | ok autoPlayEnabled =>
      rw [Action.lift_ok_bind]
      cases asString (shutter.2.child "autoPlayTime") with
      | error e => exact even
      | ok autoPlayTime =>
        rw [Action.lift_ok_bind]
        split
        · apply leads_andThen
          apply leads_tryCatch
          intro r
          cases r with
          | ok a => exact ih t even
          | error e => exact ih t.fail.error even
        · exact ih t even

theorem honest_setupAutoPlayShutters (parse : String → Option TimeOfDay) (user : Option String)
    (now : TimeOfDay) : Leads count (Honest (.setupAutoPlayShutters user now)) nothing
      (AutoPlayController.setupAutoPlayShutters parse user now) := by
  cases user with
  | none => exact honest_silent _
  | some uid =>
    apply mute_then (mute_request still_count _)
      (honest_thrown (.setupAutoPlayShutters (some uid) now) trivial)
    intro snapshot
    refine leads_mono ?_ (counts_playEach parse now (userDevices (some uid) snapshot) nothing rfl)
    intro u r even
    exact ⟨Or.inl even, fun _ once => once.elim, fun _ => trivial⟩

theorem honest_loadAutoPlayStatus (user : Option String) :
    Leads count (Honest (.loadAutoPlayStatus user)) nothing
      (AutoPlayController.loadAutoPlayStatus user) := by
  have threw := honest_thrown (.loadAutoPlayStatus user) trivial
  cases user with
  | none => exact honest_silent _
  | some uid =>
    apply mute_then (mute_request still_count _) threw
    intro snapshot
    cases userDevices (some uid) snapshot with
    | nil => exact honest_silent _
    | cons shutter rest =>
      apply mute_then (mute_lift _) threw
      intro autoPlayEnabled
      cases autoPlayEnabled <;> exact honest_silent _

theorem honest_loadAutoPlayTime (user : Option String) :
    Leads count (Honest (.loadAutoPlayTime user)) nothing
      (AutoPlayController.loadAutoPlayTime user) := by
  have threw := honest_thrown (.loadAutoPlayTime user) trivial
  cases user with
  | none => exact honest_silent _
  | some uid =>
    apply mute_then (mute_request still_count _) threw
    intro snapshot
    cases userDevices (some uid) snapshot with
    | nil => exact honest_silent _
    | cons shutter rest =>
      apply mute_then (mute_lift _) threw
      intro savedAutoPlayTime
      cases savedAutoPlayTime <;> exact honest_silent _

theorem honest_saveSchedule (device : DeviceId) (lang shown : Language) (rows : Fin 7 → Times) :
    Leads count (Honest op) nothing
      (ScheduleController.saveSchedule device.1 lang shown rows) := by
  unfold ScheduleController.saveSchedule
  simp only [ref, ref_schedulePath device.2, Action.lift_ok_bind]
  apply leads_tell_then
  have guarded : Leads count (Honest op) nothing (Action.tryCatch (do
      saveDays ["ShutterDevices", device.1, "Schedule"] lang rows (List.finRange 7)
      perform .fetchSchedule
      perform (.showSuccessToast (scheduleUpdated shown)))
      fun _ => perform (.showErrorSnackbar (errorSchedule shown))) := by
    refine honest_guarded ?_ fun e t => show Leads count _ t _ from ⟨rfl, rfl⟩
    apply mute_then (mute_saveDays still_count _ _ _ _) body_thrown
    exact fun _ => honest_success op
  apply leads_andThen
  refine leads_mono ?_ guarded
  intro u r ended
  cases r with
  | ok a => exact ended
  | error e => exact ended

/-- On every path of every operation, whatever its calls are answered: no failure is hidden, a
    success message that reports once stands alone, and only the operations with an unguarded
    read throw. -/
theorem operations_report_honestly (parse : String → Option TimeOfDay) (op : Operation) :
    Leads count (Honest op) nothing (program parse op) := by
  have bulk : ∀ (c : Bulk) (user : Option String),
      Leads count (Honest op) nothing (c.program user) := by
    intro c user
    obtain ⟨command, same, -⟩ := bulk_command c
    rw [same]
    exact honest_bulkCommand command user
  cases op with
  | saveShutterDevice form segment userData now => exact honest_saveShutterDevice form userData now
  | deleteShutterDevice device shouldDelete =>
    exact honest_deleteShutterDevice device.1 shouldDelete
  | updateDevice device =>
    exact honest_update (honest_success _) fun e t => show Leads count _ t _ from ⟨rfl, rfl⟩
  | toggleDeviceStatus device => exact honest_toggleDeviceStatus device
  | updateDeviceNewData device =>
    exact honest_update (honest_success _) fun e t => show Leads count _ t _ from ⟨rfl, rfl⟩
  | resetAlarm device =>
    exact honest_update (honest_success _) fun e t => show Leads count _ t _ from ⟨rfl, rfl⟩
  | openAll user => exact bulk .openAll user
  | closeAll user => exact bulk .closeAll user
  | playAll user => exact bulk .playAll user
  | stopAll user => exact bulk .stopAll user
  | openAllAndStop user => exact bulk .openAllAndStop user
  | closeAllAndStop user => exact bulk .closeAllAndStop user
  | calenderON user => exact bulk .calenderON user
  | calenderOFF user => exact bulk .calenderOFF user
  | updateAutoPlayStatus user isEnabled => exact honest_updateAutoPlayStatus user isEnabled
  | loadAutoPlayStatus user => exact honest_loadAutoPlayStatus user
  | updateAutoPlayTime user time => exact honest_updateAutoPlayTime user time
  | loadAutoPlayTime user => exact honest_loadAutoPlayTime user
  | setupAutoPlayShutters user now => exact honest_setupAutoPlayShutters parse user now
  | saveSchedule device lang shown rows => exact honest_saveSchedule device lang shown rows

end Operations
end Reports
