import Mathlib.Data.Fin.VecNotation
import Mathlib.Data.List.FinRange
import Mathlib.Data.List.Sort
import ShutterEase.DeviceController

/-!
Weekday names by language, the save loop of a device's schedule, and the snapshot callback
with the successive contents it gives the published list. A platform map hands over its
entries in any order, so the callback is given the order too.
-/
namespace ScheduleController
open KeyedTree Resumption Firebase ShutterModels

inductive Language where
  | it
  | en
  deriving DecidableEq, Repr

/-- `localizedValues` under the seven weekday keys, Monday first. -/
def days : Language → Fin 7 → String
  | .it => ![ "Lunedì", "Martedì", "Mercoledì", "Giovedì", "Venerdì", "Sabato", "Domenica"]
  | .en => ![ "Monday", "Tuesday", "Wednesday", "Thursday", "Friday", "Saturday", "Sunday"]

def scheduleUpdated : Language → String
  | .it => "Il calendario è stato aggiornato"
  | .en => "The calendar is updated"

def errorSchedule : Language → String
  | .it => "Errore nel salvataggio del calendario"
  | .en => "Error when saving calendar"

structure Times where
  firstOpeningTime : String
  firstClosingTime : String
  secondOpeningTime : String
  secondClosingTime : String
  deriving DecidableEq, Repr

def newSchedule (day : String) (row : Times) : ScheduleModel :=
  { day
    firstOpeningTime := row.firstOpeningTime
    firstClosingTime := row.firstClosingTime
    secondOpeningTime := row.secondOpeningTime
    secondClosingTime := row.secondClosingTime }

def times (s : ScheduleModel) : Times :=
  ⟨s.firstOpeningTime, s.firstClosingTime, s.secondOpeningTime, s.secondClosingTime⟩

@[simp] theorem times_newSchedule (day : String) (row : Times) :
    times (newSchedule day row) = row := rfl

def schedulePath (deviceId : String) : String :=
  DeviceController.devicePath deviceId ++ "/Schedule"

def saveDays (scheduleRef : List String) (lang : Language) (rows : Fin 7 → Times) :
    List (Fin 7) → Act Unit
  | [] => pure ()
  | i :: rest => do
    update (scheduleRef ++ [days lang i]) (newSchedule (days lang i) (rows i)).toJson
    saveDays scheduleRef lang rows rest

/-- `rows i` are the texts the fields hold when the loop reaches row `i`; `lang` is the
    language the controller was created under, `shown` the one selected now. -/
def saveSchedule (deviceId : String) (lang shown : Language) (rows : Fin 7 → Times) :
    Act Unit := do
  let scheduleRef ← ref (schedulePath deviceId)
  perform (.setSaving true)
  Action.tryCatch (do
    saveDays scheduleRef lang rows (List.finRange 7)
    perform .fetchSchedule
    perform (.showSuccessToast (scheduleUpdated shown)))
    fun _ => perform (.showErrorSnackbar (errorSchedule shown))
  perform (.setSaving false)

/-- `days.indexOf`. -/
def indexOf (lang : Language) (day : String) : Int :=
  match (List.finRange 7).find? fun i => days lang i = day with
  | some i => i.val
  | none => -1

def sortByDay (lang : Language) (schedule : List ScheduleModel) : List ScheduleModel :=
  schedule.insertionSort fun a b => indexOf lang a.day ≤ indexOf lang b.day

def decodeAll : List Json → Except String (List ScheduleModel)
  | [] => .ok []
  | e :: rest =>
    match ScheduleModel.fromJson e, decodeAll rest with
    | .ok s, .ok ss => .ok (s :: ss)
    | .error e, _ => .error e
    | _, .error e => .error e

/-- The contents of `schedule` at each notification: cleared, filled in map order, sorted.
    A record that does not decode throws after the list has been cleared. What is no map,
    a node handed over as a list included, is skipped. -/
def notifications (lang : Language) (data : Json) (order : List String) :
    List (List ScheduleModel) :=
  match asMap data with
  | .ok scheduleData =>
    match decodeAll (order.map scheduleData.child) with
    | .ok schedule => [[], schedule, sortByDay lang schedule]
    | .error _ => [[]]
  | .error _ => []

theorem days_injective (lang : Language) : ∀ i j, days lang i = days lang j → i = j := by
  cases lang <;> decide

/-- No weekday name of one language names another weekday in the other. -/
theorem days_names (lang other : Language) :
    ∀ i j, days lang i = days other j → i = j ∧ lang = other := by
  cases lang <;> cases other <;> decide

theorem indexOf_days (lang : Language) : ∀ i, indexOf lang (days lang i) = i.val := by
  cases lang <;> decide

theorem indexOf_foreign {lang other : Language} (ne : lang ≠ other) :
    ∀ i, indexOf lang (days other i) = -1 := by
  cases lang <;> cases other <;> first | exact absurd rfl ne | decide

def writeRow (lang : Language) (rows : Fin 7 → Times) (node : Json) (i : Fin 7) : Json :=
  node.update [days lang i] (newSchedule (days lang i) (rows i)).toJson

def writeRows (lang : Language) (rows : Fin 7 → Times) (node : Json) (l : List (Fin 7)) : Json :=
  l.foldl (writeRow lang rows) node

theorem child_writeRow_same (lang : Language) (rows : Fin 7 → Times) (node : Json) (i : Fin 7) :
    ScheduleModel.fromJson ((writeRow lang rows node i).child (days lang i)) =
      .ok (newSchedule (days lang i) (rows i)) := by
  simp [writeRow, Node.update, ScheduleModel.fromJson_merge]

theorem child_writeRow_ne {lang : Language} {i : Fin 7} {key : String}
    (ne : key ≠ days lang i) (rows : Fin 7 → Times) (node : Json) :
    (writeRow lang rows node i).child key = node.child key := by
  simp [writeRow, Node.update, Node.child_setChild_ne ne]

theorem child_writeRows_other {lang : Language} {rows : Fin 7 → Times} {key : String}
    {l : List (Fin 7)} (other : ∀ i ∈ l, key ≠ days lang i) (node : Json) :
    (writeRows lang rows node l).child key = node.child key := by
  induction l generalizing node with
  | nil => rfl
  | cons i rest ih =>
    have here := child_writeRow_ne (other i (by simp)) rows node
    have later := ih (fun j hj => other j (by simp [hj])) (writeRow lang rows node i)
    exact later.trans here

/-- After the loop every row it wrote decodes to what was written. -/
theorem child_writeRows_written {lang : Language} {rows : Fin 7 → Times} {i : Fin 7}
    {l : List (Fin 7)} (member : i ∈ l) (node : Json) :
    ScheduleModel.fromJson ((writeRows lang rows node l).child (days lang i)) =
      .ok (newSchedule (days lang i) (rows i)) := by
  induction l generalizing node with
  | nil => simp at member
  | cons j rest ih =>
    by_cases later : i ∈ rest
    · exact ih later (writeRow lang rows node j)
    · have same : i = j := by simpa [later] using member
      subst same
      have kept : (writeRows lang rows (writeRow lang rows node i) rest).child (days lang i) =
          (writeRow lang rows node i).child (days lang i) := by
        apply child_writeRows_other
        intro k hk eq
        exact later (days_injective lang i k eq ▸ hk)
      change ScheduleModel.fromJson ((writeRows lang rows (writeRow lang rows node i) rest).child
        (days lang i)) = _
      rw [kept]
      exact child_writeRow_same lang rows node i

theorem alone_saveDays (scheduleRef : List String) (lang : Language) (rows : Fin 7 → Times)
    (l : List (Fin 7)) (db : Json) :
    (alone (saveDays scheduleRef lang rows l) db).2 = .ok () ∧
      (alone (saveDays scheduleRef lang rows l) db).1.get scheduleRef =
        writeRows lang rows (db.get scheduleRef) l ∧
      ∀ q, Apart scheduleRef q →
        (alone (saveDays scheduleRef lang rows l) db).1.get q = db.get q := by
  induction l generalizing db with
  | nil => exact ⟨rfl, rfl, fun q _ => rfl⟩
  | cons i rest ih =>
    let fields := (newSchedule (days lang i) (rows i)).toJson
    let db' := db.update (scheduleRef ++ [days lang i]) fields
    have next : alone (saveDays scheduleRef lang rows (i :: rest)) db =
        alone (saveDays scheduleRef lang rows rest) db' := by
      have written := alone_update (scheduleRef ++ [days lang i]) fields db
      simp only [alone] at written ⊢
      simp only [saveDays, Action.exec_bind]
      rw [written]
    obtain ⟨ended, stored, frame⟩ := ih db'
    have here : db'.get scheduleRef = writeRow lang rows (db.get scheduleRef) i :=
      Node.get_update_above db scheduleRef [days lang i] fields
    rw [next]
    refine ⟨ended, ?_, ?_⟩
    · rw [stored, here]
      rfl
    · intro q apart
      rw [frame q apart]
      exact Node.get_update_apart (apart_append apart _) db fields

theorem ref_schedulePath {deviceId : String} (segment : FirebasePath.IsSegment deviceId) :
    FirebasePath.parsePath (schedulePath deviceId) = .ok ["ShutterDevices", deviceId, "Schedule"] := by
  obtain ⟨nonempty, plain, valid⟩ := segment
  have slash : "ShutterDevices/" = "ShutterDevices" ++ "/" := by decide
  have slash' : "/Schedule" = "/" ++ "Schedule" := by decide
  have whole : schedulePath deviceId = "ShutterDevices" ++ "/" ++ deviceId ++ "/" ++ "Schedule" :=
    calc schedulePath deviceId
      _ = "ShutterDevices" ++ "/" ++ deviceId ++ ("/" ++ "Schedule") :=
        congrArg₂ (fun a b => a ++ deviceId ++ b) slash slash'
      _ = "ShutterDevices" ++ "/" ++ deviceId ++ "/" ++ "Schedule" :=
        (String.append_assoc).symm
  have parts : FirebasePath.pieces (schedulePath deviceId) =
      ["ShutterDevices", deviceId, "Schedule"] := by
    rw [whole, FirebasePath.pieces_append_slash, FirebasePath.pieces_append_slash,
      FirebasePath.pieces_segment nonempty plain]
    rfl
  have accepted : FirebasePath.isValidPathString (schedulePath deviceId) = true := by
    rw [whole, FirebasePath.valid_below]
    simp only [FirebasePath.valid_append, valid, Bool.and_eq_true]
    decide
  simp [FirebasePath.parsePath, accepted, parts]

/-- A save alone writes the seven rows onto the device's `Schedule` and nothing else. -/
theorem alone_saveSchedule {deviceId : String} (segment : FirebasePath.IsSegment deviceId)
    (lang shown : Language) (rows : Fin 7 → Times) (db : Json) :
    (alone (saveSchedule deviceId lang shown rows) db).2 = .ok () ∧
      (alone (saveSchedule deviceId lang shown rows) db).1.get
          ["ShutterDevices", deviceId, "Schedule"] =
        writeRows lang rows (db.get ["ShutterDevices", deviceId, "Schedule"]) (List.finRange 7) ∧
      ∀ q, Apart ["ShutterDevices", deviceId, "Schedule"] q →
        (alone (saveSchedule deviceId lang shown rows) db).1.get q = db.get q := by
  obtain ⟨ended, stored, frame⟩ :=
    alone_saveDays ["ShutterDevices", deviceId, "Schedule"] lang rows (List.finRange 7) db
  have whole : alone (saveSchedule deviceId lang shown rows) db =
      ((alone (saveDays ["ShutterDevices", deviceId, "Schedule"] lang rows (List.finRange 7)) db).1,
        .ok ()) := by
    simp only [alone, saveSchedule, ref, perform, Action.exec_bind, Action.exec_lift,
      ref_schedulePath segment, Action.exec_tell, Action.exec_tryCatch] at ended ⊢
    generalize Action.exec serve (saveDays _ lang rows _) db = out at ended ⊢
    obtain ⟨db', result⟩ := out
    subst ended
    rfl
  rw [whole]
  exact ⟨rfl, stored, frame⟩

end ScheduleController
