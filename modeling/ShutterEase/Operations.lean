import ShutterEase.AutoPlayController
import ShutterEase.CommandsController
import ShutterEase.Registration
import ShutterEase.ScheduleController

/-!
Every operation of the app that calls the database, and the pool of clients that run them
interleaved call by call. A device id is one path segment, as every key of the tree is.
What an operation asks for is stated once, in `program_opens`: its opening call, and the
calls that the answer to it allows.
-/
namespace Operations
open KeyedTree Resumption Interleaving Firebase FirebasePath ShutterModels AccountDevices
open DeviceController CommandsController AutoPlayController ScheduleController Registration

abbrev DeviceId := { id : String // IsSegment id }

/-- The rows of `saveSchedule` and the clock of `setupAutoPlayShutters` are what the operation
    reads while it runs, so any values may stand there. -/
inductive Operation where
  | saveShutterDevice (form : DeviceForm) (segment : IsSegment (newDeviceId form))
      (userData : UserData) (now : DateTime)
  | deleteShutterDevice (device : DeviceId) (shouldDelete : Option Bool)
  | updateDevice (device : DeviceId)
      (newStatus newFcrp newFauto newaParz newcalenderStatus : Bool)
  | toggleDeviceStatus (device : DeviceId)
  | updateDeviceNewData (device : DeviceId) (sleepTime openingEffort1 openingEffort2
      openingEffort3 closingEffort1 closingEffort2 closingEffort3 : Option Int)
      (deviceNames : Option String)
  | resetAlarm (device : DeviceId)
  | openAll (user : Option String)
  | closeAll (user : Option String)
  | playAll (user : Option String)
  | stopAll (user : Option String)
  | openAllAndStop (user : Option String)
  | closeAllAndStop (user : Option String)
  | calenderON (user : Option String)
  | calenderOFF (user : Option String)
  | updateAutoPlayStatus (user : Option String) (isEnabled : Bool)
  | loadAutoPlayStatus (user : Option String)
  | updateAutoPlayTime (user : Option String) (time : String)
  | loadAutoPlayTime (user : Option String)
  | setupAutoPlayShutters (user : Option String) (now : TimeOfDay)
  | saveSchedule (device : DeviceId) (lang shown : Language) (rows : Fin 7 → Times)

variable (parse : String → Option TimeOfDay)

def program : Operation → Act Unit
  | .saveShutterDevice form _ userData now => DeviceController.saveShutterDevice form userData now
  | .deleteShutterDevice device shouldDelete =>
    DeviceController.deleteShutterDevice device.1 shouldDelete
  | .updateDevice device status fcrp fauto aparz calender =>
    DeviceController.updateDevice device.1 status fcrp fauto aparz calender
  | .toggleDeviceStatus device => DeviceController.toggleDeviceStatus device.1
  | .updateDeviceNewData device sleep o1 o2 o3 c1 c2 c3 name =>
    DeviceController.updateDeviceNewData device.1 sleep o1 o2 o3 c1 c2 c3 name
  | .resetAlarm device => DeviceController.resetAlarm device.1
  | .openAll user => CommandsController.openAll user
  | .closeAll user => CommandsController.closeAll user
  | .playAll user => CommandsController.playAll user
  | .stopAll user => CommandsController.stopAll user
  | .openAllAndStop user => CommandsController.openAllAndStop user
  | .closeAllAndStop user => CommandsController.closeAllAndStop user
  | .calenderON user => CommandsController.calenderON user
  | .calenderOFF user => CommandsController.calenderOFF user
  | .updateAutoPlayStatus user isEnabled =>
    AutoPlayController.updateAutoPlayStatus user isEnabled
  | .loadAutoPlayStatus user => AutoPlayController.loadAutoPlayStatus user
  | .updateAutoPlayTime user time => AutoPlayController.updateAutoPlayTime user time
  | .loadAutoPlayTime user => AutoPlayController.loadAutoPlayTime user
  | .setupAutoPlayShutters user now => AutoPlayController.setupAutoPlayShutters parse user now
  | .saveSchedule device lang shown rows =>
    ScheduleController.saveSchedule device.1 lang shown rows

abbrev System := Pool DbCall Json Ui String (Except String Unit) Json

def step (s : System) (m : Move Operation String) : Option System :=
  s.step respond (program parse) m

/-- The calls an operation opens with. -/
def First : Operation → DbCall → Prop
  | .saveShutterDevice form _ userData now, c =>
    c = .set ["ShutterDevices", newDeviceId form] (record form userData now)
  | .deleteShutterDevice device _, c => c = .remove ["ShutterDevices", device.1]
  | .updateDevice device _ _ _ _ _, c | .updateDeviceNewData device _ _ _ _ _ _ _ _, c
  | .resetAlarm device, c => ∃ fields, c = .update ["ShutterDevices", device.1] fields ∧
      "userId" ∉ fields.map Prod.fst
  | .toggleDeviceStatus device, c => c = .get ["ShutterDevices", device.1]
  | .saveSchedule device _ _ _, c =>
    ∃ day fields, c = .update ["ShutterDevices", device.1, "Schedule", day] fields
  | _, c => c = .get ["ShutterDevices"]

/-- The calls that may follow an opening call and its answer: updates of devices the snapshot
    held, and the later days of a schedule. -/
inductive Follows : DbCall → Except String Json → DbCall → Prop where
  | listed {snapshot : Json} {key : String} {fields : List (String × Json)}
      (there : snapshot.child key ≠ Node.null) (plain : "userId" ∉ fields.map Prod.fst) :
      Follows (.get ["ShutterDevices"]) (.ok snapshot) (.update ["ShutterDevices", key] fields)
  | found {snapshot : Json} {key : String} {fields : List (String × Json)}
      (there : snapshot ≠ Node.null) (plain : "userId" ∉ fields.map Prod.fst) :
      Follows (.get ["ShutterDevices", key]) (.ok snapshot)
        (.update ["ShutterDevices", key] fields)
  | nextDay {r : Except String Json} {key day day' : String} {fields fields' : List (String × Json)} :
      Follows (.update ["ShutterDevices", key, "Schedule", day] fields) r
        (.update ["ShutterDevices", key, "Schedule", day'] fields')

section Programs
variable {F : DbCall → Prop} {Q : DbCall → Except String Json → DbCall → Prop}

/-- A loop over the query's result writes to devices that the snapshot held. -/
theorem follows_userDevices (user : Option String) (snapshot : Json)
    {fields : List (String × Json)} (plain : "userId" ∉ fields.map Prod.fst) :
    ∀ device ∈ userDevices user snapshot, Follows (.get ["ShutterDevices"]) (.ok snapshot)
      (.update ["ShutterDevices", device.1] fields) := by
  rintro ⟨key, device⟩ member
  obtain ⟨stored, there, -⟩ := mem_userDevices.mp member
  exact Follows.listed (stored ▸ there) plain

/-- A guarded update of one device, as `updateDevice` and its kin make it. -/
theorem opens_guarded {device : DeviceId} {fields : List (String × Json)} {shown : Act Unit}
    {handle : String → Act Unit} (writes : F (.update ["ShutterDevices", device.1] fields))
    (told : Quiet shown) (handled : ∀ e, Quiet (handle e)) :
    Opens F Q (Action.tryCatch (do
      let deviceRef ← ref (devicePath device.1)
      update deviceRef fields
      shown) handle) := by
  apply opens_tryCatch _ handled
  simp only [ref, ref_segment device.2, Action.lift_ok_bind]
  exact opens_update_then writes fun _ => issues_of_quiet told

theorem opens_saveShutterDevice (form : DeviceForm) (segment : IsSegment (newDeviceId form))
    (userData : UserData) (now : DateTime)
    (writes : F (.set ["ShutterDevices", newDeviceId form] (record form userData now))) :
    Opens F Q (DeviceController.saveShutterDevice form userData now) := by
  apply opens_tryCatch _ fun e => quiet_perform_then (quiet_perform _)
  apply opens_tell_then
  by_cases valid : form.validate = true
  · have path := ref_segment segment
    simp only [newDeviceId] at path
    simp only [valid, ↓reduceIte, ref, path, Action.lift_ok_bind]
    apply opens_set_quiet writes
    exact quiet_perform_then (quiet_perform_then (quiet_perform_then
      (quiet_perform_then (quiet_perform _))))
  · simp only [valid, Bool.false_eq_true, ↓reduceIte]
    exact opens_of_quiet (quiet_perform _)

theorem opens_deleteShutterDevice (device : DeviceId) (shouldDelete : Option Bool)
    (writes : F (.remove ["ShutterDevices", device.1])) :
    Opens F Q (DeviceController.deleteShutterDevice device.1 shouldDelete) := by
  unfold DeviceController.deleteShutterDevice
  split
  · apply opens_tryCatch _ fun e => quiet_perform _
    simp only [ref, ref_segment device.2, Action.lift_ok_bind]
    exact opens_remove_quiet writes (quiet_perform_then (quiet_perform_then (quiet_perform _)))
  · trivial

theorem opens_toggleDeviceStatus (device : DeviceId)
    (reads : F (.get ["ShutterDevices", device.1]))
    (writes : ∀ snapshot b, snapshot ≠ Node.null → Q (.get ["ShutterDevices", device.1])
      (.ok snapshot) (.update ["ShutterDevices", device.1] [("shutterIconStatus", Json.bool b)])) :
    Opens F Q (DeviceController.toggleDeviceStatus device.1) := by
  unfold DeviceController.toggleDeviceStatus
  simp only [ref, ref_segment device.2, Action.lift_ok_bind]
  apply opens_get_then reads
  intro snapshot
  split
  · exact issues_of_quiet (quiet_perform _)
  · rename_i shown
    have there : snapshot ≠ Node.null := fun empty => shown (Node.isNull_iff.mpr empty)
    apply issues_andThen (issues_lift _)
    intro deviceData
    apply issues_andThen (issues_lift _)
    intro stored
    apply issues_tryCatch _ fun e => issues_of_quiet (quiet_perform _)
    exact issues_andThen (issues_update (writes _ _ there)) fun _ =>
      issues_of_quiet (quiet_perform _)

theorem issues_saveDays {P : DbCall → Prop} {scheduleRef : List String} {lang : Language}
    {rows : Fin 7 → Times} {l : List (Fin 7)}
    (writes : ∀ i, P (.update (scheduleRef ++ [days lang i])
      (newSchedule (days lang i) (rows i)).toJson)) :
    Issues P (saveDays scheduleRef lang rows l) := by
  induction l with
  | nil => trivial
  | cons i rest ih => exact issues_andThen (issues_update (writes i)) fun _ => ih

theorem opens_saveSchedule (device : DeviceId) (lang shown : Language) (rows : Fin 7 → Times)
    (writes : ∀ day fields, F (.update ["ShutterDevices", device.1, "Schedule", day] fields))
    (later : ∀ day fields r day' fields',
      Q (.update ["ShutterDevices", device.1, "Schedule", day] fields) r
        (.update ["ShutterDevices", device.1, "Schedule", day'] fields')) :
    Opens F Q (ScheduleController.saveSchedule device.1 lang shown rows) := by
  unfold ScheduleController.saveSchedule
  simp only [ref, ref_schedulePath device.2, Action.lift_ok_bind]
  apply opens_tell_then
  apply opens_andThen_quiet _ fun _ => quiet_perform _
  apply opens_tryCatch _ fun e => quiet_perform _
  apply opens_andThen_quiet _ fun _ => quiet_perform_then (quiet_perform _)
  cases List.finRange 7 with
  | nil => trivial
  | cons i rest =>
    apply opens_update_then (writes _ _)
    intro r
    exact issues_saveDays fun j => later _ _ _ _ _

section Queries
variable (reads : F (.get ["ShutterDevices"]))
include reads

theorem opens_bulkCommand {command : Command} (user : Option String)
    (listed : ∀ snapshot, ∀ device ∈ userDevices user snapshot,
      Q (.get ["ShutterDevices"]) (.ok snapshot)
        (.update ["ShutterDevices", device.1] command.fields)) :
    Opens F Q (bulkCommand command user) := by
  apply opens_tryCatch _ fun e => quiet_perform_then (quiet_perform _)
  apply opens_tell_then
  apply opens_get_then reads
  intro snapshot
  have each := listed snapshot
  cases devices : userDevices user snapshot with
  | nil => exact issues_of_quiet (quiet_perform_then (quiet_perform _))
  | cons device rest =>
    rw [devices] at each
    apply issues_andThen (issues_updateEach each)
    exact fun _ => issues_of_quiet (quiet_perform_then (quiet_perform_then (quiet_perform _)))

theorem opens_updateAutoPlayStatus (user : Option String) (isEnabled : Bool)
    (listed : ∀ snapshot, ∀ device ∈ userDevices user snapshot,
      Q (.get ["ShutterDevices"]) (.ok snapshot)
        (.update ["ShutterDevices", device.1] [("autoPlay", Json.bool isEnabled)])) :
    Opens F Q (AutoPlayController.updateAutoPlayStatus user isEnabled) := by
  apply opens_tryCatch _ fun e => quiet_perform _
  apply opens_get_then reads
  intro snapshot
  exact issues_updateEach (listed snapshot)

theorem opens_updateAutoPlayTime (user : Option String) (time : String)
    (listed : ∀ snapshot, ∀ device ∈ userDevices user snapshot,
      Q (.get ["ShutterDevices"]) (.ok snapshot)
        (.update ["ShutterDevices", device.1] [("autoPlayTime", Json.str time)])) :
    Opens F Q (AutoPlayController.updateAutoPlayTime user time) := by
  apply opens_tryCatch _ fun e => quiet_perform _
  apply opens_get_then reads
  intro snapshot
  have each := listed snapshot
  cases devices : userDevices user snapshot with
  | nil => exact issues_pure ()
  | cons device rest =>
    rw [devices] at each
    apply issues_andThen (issues_updateEach each)
    exact fun _ => issues_of_quiet (quiet_perform_then (quiet_perform _))

theorem opens_loadAutoPlayStatus (user : Option String) :
    Opens F Q (AutoPlayController.loadAutoPlayStatus user) := by
  cases user with
  | none => trivial
  | some uid =>
    apply opens_get_then reads
    intro snapshot
    cases userDevices (some uid) snapshot with
    | nil => exact issues_pure ()
    | cons shutter rest =>
      apply issues_andThen (issues_lift _)
      intro autoPlayEnabled
      cases autoPlayEnabled with
      | none => exact issues_pure ()
      | some value => exact issues_of_quiet (quiet_perform _)

theorem opens_loadAutoPlayTime (user : Option String) :
    Opens F Q (AutoPlayController.loadAutoPlayTime user) := by
  cases user with
  | none => trivial
  | some uid =>
    apply opens_get_then reads
    intro snapshot
    cases userDevices (some uid) snapshot with
    | nil => exact issues_pure ()
    | cons shutter rest =>
      apply issues_andThen (issues_lift _)
      intro savedAutoPlayTime
      cases savedAutoPlayTime with
      | none => exact issues_pure ()
      | some time => exact issues_of_quiet (quiet_perform _)

theorem opens_setupAutoPlayShutters (user : Option String) (now : TimeOfDay)
    (listed : ∀ snapshot, ∀ device ∈ userDevices user snapshot,
      Q (.get ["ShutterDevices"]) (.ok snapshot)
        (.update ["ShutterDevices", device.1] openingFields)) :
    Opens F Q (AutoPlayController.setupAutoPlayShutters parse user now) := by
  cases user with
  | none => trivial
  | some uid =>
    apply opens_get_then reads
    intro snapshot
    exact issues_playEach parse (listed snapshot)

end Queries
end Programs

/-- Every operation opens with its own call and follows it as `Follows` says. -/
theorem program_opens (op : Operation) : Opens (First op) Follows (program parse op) := by
  cases op with
  | saveShutterDevice form segment userData now =>
    exact opens_saveShutterDevice form segment userData now rfl
  | deleteShutterDevice device shouldDelete =>
    exact opens_deleteShutterDevice device shouldDelete rfl
  | updateDevice device status fcrp fauto aparz calender =>
    exact opens_guarded ⟨_, rfl, by simp⟩ (quiet_perform_then (quiet_perform _))
      fun _ => quiet_perform _
  | toggleDeviceStatus device =>
    exact opens_toggleDeviceStatus device rfl fun snapshot b there => Follows.found there (by simp)
  | updateDeviceNewData device sleep o1 o2 o3 c1 c2 c3 name =>
    exact opens_guarded ⟨_, rfl, by simp⟩ (quiet_perform_then (quiet_perform _))
      fun _ => quiet_perform _
  | resetAlarm device =>
    exact opens_guarded ⟨_, rfl, by simp⟩ (quiet_perform_then (quiet_perform _))
      fun _ => quiet_perform _
  | openAll user => exact opens_bulkCommand rfl user (follows_userDevices user · (by decide))
  | closeAll user => exact opens_bulkCommand rfl user (follows_userDevices user · (by decide))
  | playAll user => exact opens_bulkCommand rfl user (follows_userDevices user · (by decide))
  | stopAll user => exact opens_bulkCommand rfl user (follows_userDevices user · (by decide))
  | openAllAndStop user => exact opens_bulkCommand rfl user (follows_userDevices user · (by decide))
  | closeAllAndStop user => exact opens_bulkCommand rfl user (follows_userDevices user · (by decide))
  | calenderON user => exact opens_bulkCommand rfl user (follows_userDevices user · (by decide))
  | calenderOFF user => exact opens_bulkCommand rfl user (follows_userDevices user · (by decide))
  | updateAutoPlayStatus user isEnabled =>
    exact opens_updateAutoPlayStatus rfl user isEnabled (follows_userDevices user · (by simp))
  | loadAutoPlayStatus user =>
    exact opens_loadAutoPlayStatus (F := First (.loadAutoPlayStatus user)) rfl user
  | updateAutoPlayTime user time =>
    exact opens_updateAutoPlayTime rfl user time (follows_userDevices user · (by simp))
  | loadAutoPlayTime user =>
    exact opens_loadAutoPlayTime (F := First (.loadAutoPlayTime user)) rfl user
  | setupAutoPlayShutters user now =>
    exact opens_setupAutoPlayShutters parse (F := First (.setupAutoPlayShutters user now)) rfl user
      now (follows_userDevices user · (by decide))
  | saveSchedule device lang shown rows =>
    exact opens_saveSchedule device lang shown rows (fun day fields => ⟨day, fields, rfl⟩)
      fun _ _ _ _ _ => Follows.nextDay

/-- What the app ever asks of the database. A `set` carries a whole new record, and no update
    names `userId`. -/
def DeviceCall : DbCall → Prop
  | .get _ => True
  | .set path value => ∃ form userData now, path = ["ShutterDevices", newDeviceId form] ∧
      value = record form userData now
  | .update path fields =>
    (∃ key, path = ["ShutterDevices", key] ∧ "userId" ∉ fields.map Prod.fst) ∨
      ∃ key day, path = ["ShutterDevices", key, "Schedule", day]
  | .remove path => ∃ key, path = ["ShutterDevices", key]

theorem deviceCall_first {op : Operation} {c : DbCall} (first : First op c) : DeviceCall c := by
  cases op with
  | saveShutterDevice form segment userData now =>
    subst first
    exact ⟨form, userData, now, rfl, rfl⟩
  | deleteShutterDevice device shouldDelete =>
    subst first
    exact ⟨device.1, rfl⟩
  | updateDevice device =>
    obtain ⟨fields, rfl, plain⟩ := first
    exact Or.inl ⟨device.1, rfl, plain⟩
  | updateDeviceNewData device =>
    obtain ⟨fields, rfl, plain⟩ := first
    exact Or.inl ⟨device.1, rfl, plain⟩
  | resetAlarm device =>
    obtain ⟨fields, rfl, plain⟩ := first
    exact Or.inl ⟨device.1, rfl, plain⟩
  | saveSchedule device =>
    obtain ⟨day, fields, rfl⟩ := first
    exact Or.inr ⟨device.1, day, rfl⟩
  | _ =>
    subst first
    trivial

theorem deviceCall_follows {c c' : DbCall} {r : Except String Json} (h : Follows c r c') :
    DeviceCall c' := by
  cases h with
  | listed there plain => exact Or.inl ⟨_, rfl, plain⟩
  | found there plain => exact Or.inl ⟨_, rfl, plain⟩
  | nextDay => exact Or.inr ⟨_, _, rfl⟩

theorem issues_program (op : Operation) : Issues DeviceCall (program parse op) :=
  issues_of_opens (program_opens parse op) (fun _ => deviceCall_first)
    fun _ _ _ _ => deviceCall_follows

end Operations
