import ShutterEase.Effects
import ShutterEase.RecordTypes

/-!
What the app is for: a home of shutters, each with an owner, its settings and its weekly
timetable, and commands that change them. Sequences of operations on the database refine
sequences of these commands. Records without an owner, which an update of a deleted device leaves
behind, are no part of the home and never become one.
-/
namespace Home
open KeyedTree Interleaving Firebase FirebasePath ShutterModels AccountDevices DartText
open DeviceController AutoPlayController ScheduleController Registration Operations Ownership
open BulkCommands Effects RecordTypes

inductive Field where
  | deviceName
  | devicePanelOperationPercentage
  | wifiPercentage
  | batteryPercentage
  | userName
  | userEmail
  | shutterType
  | priority
  | autoPlayTime
  | deviceStatus
  | fCrep
  | fAuto
  | aParz
  | calenderStatus
  | hasDeviceSchedule
  | shutterIconStatus
  | autoPlay
  | numberOfMotors
  | sleepTime
  | openingEffort1
  | openingEffort2
  | openingEffort3
  | closingEffort1
  | closingEffort2
  | closingEffort3
  | alarmResetButton
  deriving DecidableEq, Repr

structure Shutter where
  owner : String
  settings : Field → Option Value
  week : String → Option Times

abbrev State := String → Option Shutter

abbrev Edit := Field × Option Value

def Shutter.write (s : Shutter) (e : Edit) : Shutter :=
  { s with settings := Function.update s.settings e.1 e.2 }

def Shutter.edit (s : Shutter) (edits : List Edit) : Shutter := edits.foldl Shutter.write s

def Shutter.flip (s : Shutter) : Shutter :=
  s.write (.shutterIconStatus, some (.bool !(s.settings .shutterIconStatus = some (.bool true))))

/-- The days named in one language get new rows, and those of the other stay. -/
def Shutter.setWeek (lang : Language) (rows : Fin 7 → Times) (s : Shutter) : Shutter :=
  { s with week := fun day =>
      match (List.finRange 7).find? fun i => days lang i = day with
      | some i => some (rows i)
      | none => s.week day }

/-- The minute at which the shutter opens by itself, when it does. -/
def Shutter.dueAt (parse : String → Option TimeOfDay) (now : TimeOfDay) (s : Shutter) : Bool :=
  match s.settings .autoPlay, s.settings .autoPlayTime with
  | some (.bool enabled), some (.str time) => opensAt parse now enabled time
  | _, _ => false

inductive Command where
  | each (owner : String) (due : Shutter → Bool) (edits : List Edit)
  | change (id : String) (edit : Shutter → Shutter)
  | add (id : String) (shutter : Shutter)
  | remove (id : String)
  | skip

def Command.act : Command → String → Option Shutter → Option Shutter
  | .each owner due edits, _, shutter =>
    shutter.map fun s => if s.owner = owner && due s then s.edit edits else s
  | .change id edit, key, shutter => if id = key then shutter.map edit else shutter
  | .add id new, key, shutter => if id = key then some new else shutter
  | .remove id, key, shutter => if id = key then none else shutter
  | .skip, _, shutter => shutter

def Command.perform (c : Command) (home : State) : State := fun key => c.act key (home key)

def newShutter (form : DeviceForm) (userData : UserData) : Shutter :=
  { owner := userData.id.getD ""
    settings := fun
      | .deviceName => some (.str (trim form.deviceName))
      | .devicePanelOperationPercentage => some (.str (trim form.panelOperationPercentage))
      | .wifiPercentage => some (.str "")
      | .batteryPercentage => some (.str (trim form.batteryPercentage))
      | .userName => some (.str (userData.name.getD ""))
      | .userEmail => some (.str (userData.email.getD ""))
      | .shutterType => some (.str form.shutterType)
      | .priority => some (.str form.priority)
      | .autoPlayTime => some (.str "")
      | .deviceStatus => some (.bool form.deviceStatus)
      | .fCrep => some (.bool form.fCrep)
      | .fAuto => some (.bool form.fAuto)
      | .aParz => some (.bool form.aParz)
      | .calenderStatus => some (.bool form.calenderStatus)
      | .hasDeviceSchedule | .shutterIconStatus | .autoPlay => some (.bool false)
      | .numberOfMotors => some (.int form.numberOfMotors)
      | .sleepTime | .openingEffort1 | .openingEffort2 | .openingEffort3 | .closingEffort1
      | .closingEffort2 | .closingEffort3 | .alarmResetButton => some (.int 0)
    week := fun _ => none }

section Commands
variable (parse : String → Option TimeOfDay)

/-- A query by nobody finds no shutter. -/
def everyOf (user : Option String) (edits : List Edit) : Command :=
  match user with
  | some owner => .each owner (fun _ => true) edits
  | none => .skip

def bulkEdits : Bulk → List Edit
  | .openAll => [(.shutterIconStatus, some (.bool true))]
  | .closeAll => [(.shutterIconStatus, some (.bool false))]
  | .playAll => [(.deviceStatus, some (.bool true))]
  | .stopAll => [(.deviceStatus, some (.bool false))]
  | .openAllAndStop => [(.shutterIconStatus, some (.bool true)), (.deviceStatus, some (.bool false))]
  | .closeAllAndStop => [(.shutterIconStatus, some (.bool false)), (.deviceStatus, some (.bool false))]
  | .calenderON => [(.calenderStatus, some (.bool true))]
  | .calenderOFF => [(.calenderStatus, some (.bool false))]

/-- What each operation of the app asks of the home. -/
def command : Operation → Command
  | .saveShutterDevice form _ userData _ =>
    if form.validate then .add (newDeviceId form) (newShutter form userData) else .skip
  | .deleteShutterDevice device shouldDelete =>
    if shouldDelete = some true then .remove device.1 else .skip
  | .updateDevice device newStatus newFcrp newFauto newaParz newcalenderStatus =>
    .change device.1 fun s => s.edit
      [(.deviceStatus, some (.bool newStatus)), (.fCrep, some (.bool newFcrp)),
        (.fAuto, some (.bool newFauto)), (.aParz, some (.bool newaParz)),
        (.calenderStatus, some (.bool newcalenderStatus))]
  | .toggleDeviceStatus device => .change device.1 Shutter.flip
  | .updateDeviceNewData device sleepTime openingEffort1 openingEffort2 openingEffort3
      closingEffort1 closingEffort2 closingEffort3 deviceNames =>
    .change device.1 fun s => s.edit
      [(.sleepTime, sleepTime.map .int), (.openingEffort1, openingEffort1.map .int),
        (.openingEffort2, openingEffort2.map .int), (.openingEffort3, openingEffort3.map .int),
        (.closingEffort1, closingEffort1.map .int), (.closingEffort2, closingEffort2.map .int),
        (.closingEffort3, closingEffort3.map .int), (.deviceName, deviceNames.map .str)]
  | .resetAlarm device => .change device.1 fun s => s.edit [(.alarmResetButton, some (.int 1))]
  | .openAll user => everyOf user (bulkEdits .openAll)
  | .closeAll user => everyOf user (bulkEdits .closeAll)
  | .playAll user => everyOf user (bulkEdits .playAll)
  | .stopAll user => everyOf user (bulkEdits .stopAll)
  | .openAllAndStop user => everyOf user (bulkEdits .openAllAndStop)
  | .closeAllAndStop user => everyOf user (bulkEdits .closeAllAndStop)
  | .calenderON user => everyOf user (bulkEdits .calenderON)
  | .calenderOFF user => everyOf user (bulkEdits .calenderOFF)
  | .updateAutoPlayStatus user isEnabled => everyOf user [(.autoPlay, some (.bool isEnabled))]
  | .updateAutoPlayTime user time => everyOf user [(.autoPlayTime, some (.str time))]
  | .setupAutoPlayShutters (some uid) now =>
    .each uid (Shutter.dueAt parse now)
      [(.shutterIconStatus, some (.bool true)), (.deviceStatus, some (.bool true))]
  | .saveSchedule device lang _ rows => .change device.1 (Shutter.setWeek lang rows)
  | .loadAutoPlayStatus _ | .loadAutoPlayTime _ | .setupAutoPlayShutters none _ => .skip

end Commands

section Abstraction

def Field.name : Field → String
  | .deviceName => "deviceName"
  | .devicePanelOperationPercentage => "devicePanelOperationPercentage"
  | .wifiPercentage => "wifiPercentage"
  | .batteryPercentage => "batteryPercentage"
  | .userName => "userName"
  | .userEmail => "userEmail"
  | .shutterType => "shutterType"
  | .priority => "priority"
  | .autoPlayTime => "autoPlayTime"
  | .deviceStatus => "deviceStatus"
  | .fCrep => "fCrep"
  | .fAuto => "fAuto"
  | .aParz => "aParz"
  | .calenderStatus => "calenderStatus"
  | .hasDeviceSchedule => "hasDeviceSchedule"
  | .shutterIconStatus => "shutterIconStatus"
  | .autoPlay => "autoPlay"
  | .numberOfMotors => "numberOfMotors"
  | .sleepTime => "sleepTime"
  | .openingEffort1 => "openingEffort1"
  | .openingEffort2 => "openingEffort2"
  | .openingEffort3 => "openingEffort3"
  | .closingEffort1 => "closingEffort1"
  | .closingEffort2 => "closingEffort2"
  | .closingEffort3 => "closingEffort3"
  | .alarmResetButton => "alarmResetButton"

def Field.all : List Field :=
  [.deviceName, .devicePanelOperationPercentage, .wifiPercentage, .batteryPercentage, .userName,
    .userEmail, .shutterType, .priority, .autoPlayTime, .deviceStatus, .fCrep, .fAuto, .aParz,
    .calenderStatus, .hasDeviceSchedule, .shutterIconStatus, .autoPlay, .numberOfMotors,
    .sleepTime, .openingEffort1, .openingEffort2, .openingEffort3, .closingEffort1,
    .closingEffort2, .closingEffort3, .alarmResetButton]

theorem name_injective {f g : Field} (same : f.name = g.name) : f = g := by
  have nodup : (Field.all.map Field.name).Nodup := by decide
  have mem : ∀ f : Field, f ∈ Field.all := by
    intro f
    cases f <;> decide
  exact List.inj_on_of_nodup_map nodup (mem f) (mem g) same

theorem name_ne (f : Field) : f.name ≠ "userId" ∧ f.name ≠ "Schedule" := by
  cases f <;> decide

def owner? (device : Json) : Option String :=
  match (device.child "userId").value? with
  | some (.str owner) => some owner
  | _ => none

def dayOf (schedule : Json) (day : String) : Option Times :=
  match ScheduleModel.fromJson (schedule.child day) with
  | .ok s => some (times s)
  | .error _ => none

/-- The shutter that a record stands for: one without an owner stands for none. -/
def shutter (device : Json) : Option Shutter :=
  (owner? device).map fun owner =>
    { owner
      settings := fun f => (device.child f.name).value?
      week := dayOf (device.child "Schedule") }

/-- The home that a database holds. -/
def home (db : Json) : State := fun key => shutter (deviceNode db key)

def jsonOf : Option Value → Json
  | some v => .leaf v
  | none => .null

def fieldOf (e : Edit) : String × Json := (e.1.name, jsonOf e.2)

theorem value?_jsonOf (v : Option Value) : (jsonOf v).value? = v := by
  cases v <;> rfl

theorem owner?_congr {one two : Json} (same : two.child "userId" = one.child "userId") :
    owner? two = owner? one := by
  simp only [owner?, same]

theorem shutter_setChild (e : Edit) (device : Json) :
    shutter (device.setChild e.1.name (jsonOf e.2)) = (shutter device).map fun s => s.write e := by
  obtain ⟨owner_ne, week_ne⟩ := name_ne e.1
  have owner := owner?_congr (Node.child_setChild_ne (Ne.symm owner_ne) device (jsonOf e.2))
  have week := Node.child_setChild_ne (Ne.symm week_ne) device (jsonOf e.2)
  simp only [shutter, owner, week, Option.map_map, Function.comp_def, Shutter.write]
  congr 1
  funext o
  simp only [Shutter.mk.injEq, true_and, and_true]
  funext f
  by_cases here : f = e.1
  · subst here
    rw [Node.child_setChild_same, value?_jsonOf, Function.update_self]
  · have other : f.name ≠ e.1.name := fun same => here (name_injective same)
    rw [Node.child_setChild_ne other, Function.update_of_ne here]

/-- Fields written to a record edit the shutter that it stands for. -/
theorem shutter_merge (edits : List Edit) (device : Json) :
    shutter (device.merge (edits.map fieldOf)) = (shutter device).map fun s => s.edit edits := by
  induction edits generalizing device with
  | nil => simp [Shutter.edit]
  | cons e rest ih =>
    rw [List.map_cons, Node.merge_cons, fieldOf, ih, shutter_setChild, Option.map_map]
    rfl

theorem shutter_record (form : DeviceForm) (userData : UserData) (now : DateTime) :
    shutter (record form userData now) = some (newShutter form userData) := by
  have owner : owner? (record form userData now) = some (userData.id.getD "") := rfl
  simp only [shutter, owner, Option.map_some, newShutter, Option.some.injEq, Shutter.mk.injEq,
    true_and]
  constructor
  · funext f
    cases f <;> rfl
  · funext day
    rfl

end Abstraction
end Home
