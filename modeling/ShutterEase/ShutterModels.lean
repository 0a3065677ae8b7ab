import ShutterEase.Firebase

/- The stored records: a device's thirty optional fields and the day entry of a schedule,
   with the maps they are written as. -/
namespace ShutterModels
open KeyedTree Firebase DartText

structure DateTime where
  year : Int
  month : Nat
  day : Nat
  hour : Nat
  minute : Nat
  second : Nat
  millisecond : Nat
  microsecond : Nat
  isUtc : Bool
  deriving DecidableEq, Repr

def yearDigits (year : Int) : String :=
  let digits (width : Nat) := padLeft (toString year.natAbs) width '0'
  if -9999 ≤ year ∧ year ≤ 9999 then (if year < 0 then "-" else "") ++ digits 4
  else (if year < 0 then "-" else "+") ++ digits 6

/-- The two- and three-digit groups of a time; microseconds only when there are some. -/
def DateTime.toIso8601String (t : DateTime) : String :=
  let digits (width n : Nat) := padLeft (toString n) width '0'
  yearDigits t.year ++ "-" ++ digits 2 t.month ++ "-" ++ digits 2 t.day ++ "T" ++
    digits 2 t.hour ++ ":" ++ digits 2 t.minute ++ ":" ++ digits 2 t.second ++ "." ++
    digits 3 t.millisecond ++ (if t.microsecond = 0 then "" else digits 3 t.microsecond) ++
    if t.isUtc then "Z" else ""

structure ShutterDeviceModel where
  deviceId : Option String := none
  deviceMac : Option String := none
  deviceName : Option String := none
  devicePanelOperationPercentage : Option String := none
  wifiPercentage : Option String := none
  batteryPercentage : Option String := none
  deviceStatus : Option Bool := none
  fCrep : Option Bool := none
  fAuto : Option Bool := none
  aParz : Option Bool := none
  calenderStatus : Option Bool := none
  userName : Option String := none
  userEmail : Option String := none
  userId : Option String := none
  timestamp : Option DateTime := none
  shutterType : Option String := none
  priority : Option String := none
  numberOfMotors : Option Int := none
  hasDeviceSchedule : Option Bool := none
  shutterIconStatus : Option Bool := none
  autoPlayTime : Option String := none
  autoPlay : Option Bool := none
  sleepTime : Option Int := none
  openingEffort1 : Option Int := none
  openingEffort2 : Option Int := none
  openingEffort3 : Option Int := none
  closingEffort1 : Option Int := none
  closingEffort2 : Option Int := none
  closingEffort3 : Option Int := none
  alarmResetButton : Option Int := none

/-- A null field is written as its default; two of the defaults have another type than
    the field they stand for. -/
def ShutterDeviceModel.toJson (d : ShutterDeviceModel) : List (String × Json) :=
  [("deviceId", Json.str (d.deviceId.getD "")),
    ("deviceMac", Json.str (d.deviceMac.getD "")),
    ("deviceName", Json.str (d.deviceName.getD "")),
    ("devicePanelOperationPercentage", Json.str (d.devicePanelOperationPercentage.getD "")),
    ("wifiPercentage", (d.wifiPercentage.map Json.str).getD (Json.bool false)),
    ("batteryPercentage", (d.batteryPercentage.map Json.str).getD (Json.int 0)),
    ("deviceStatus", Json.bool (d.deviceStatus.getD false)),
    ("fCrep", Json.bool (d.fCrep.getD false)),
    ("fAuto", Json.bool (d.fAuto.getD false)),
    ("aParz", Json.bool (d.aParz.getD false)),
    ("calenderStatus", Json.bool (d.calenderStatus.getD false)),
    ("userName", Json.str (d.userName.getD "")),
    ("userEmail", Json.str (d.userEmail.getD "")),
    ("userId", Json.str (d.userId.getD "")),
    ("timestamp", Json.str ((d.timestamp.map DateTime.toIso8601String).getD "")),
    ("shutterType", Json.str (d.shutterType.getD "")),
    ("priority", Json.str (d.priority.getD "")),
    ("numberOfMotors", Json.int (d.numberOfMotors.getD 1)),
    ("hasDeviceSchedule", Json.bool (d.hasDeviceSchedule.getD false)),
    ("shutterIconStatus", Json.bool (d.shutterIconStatus.getD false)),
    ("autoPlayTime", Json.str (d.autoPlayTime.getD "")),
    ("autoPlay", Json.bool (d.autoPlay.getD false)),
    ("sleepTime", Json.int (d.sleepTime.getD 0)),
    ("openingEffort1", Json.int (d.openingEffort1.getD 0)),
    ("openingEffort2", Json.int (d.openingEffort2.getD 0)),
    ("openingEffort3", Json.int (d.openingEffort3.getD 0)),
    ("closingEffort1", Json.int (d.closingEffort1.getD 0)),
    ("closingEffort2", Json.int (d.closingEffort2.getD 0)),
    ("closingEffort3", Json.int (d.closingEffort3.getD 0)),
    ("alarmResetButton", Json.int (d.alarmResetButton.getD 0))]

/-- `DateTime.parse` of a text, when there is one. -/
def asDateTime? (parse : String → Except String DateTime) (json : Json) :
    Except String (Option DateTime) :=
  match json with
  | .branch [] => .ok none
  | stored => do
    let text ← asString stored
    let time ← parse text
    return some time

/-- `parse` stands for `DateTime.parse`. -/
def ShutterDeviceModel.fromJson (parse : String → Except String DateTime) (json : Json) :
    Except String ShutterDeviceModel := do
  let deviceId ← asString? (json.child "deviceId")
  let deviceMac ← asString? (json.child "deviceMac")
  let deviceName ← asString? (json.child "deviceName")
  let devicePanelOperationPercentage ← asString? (json.child "devicePanelOperationPercentage")
  let wifiPercentage ← asString? (json.child "wifiPercentage")
  let batteryPercentage ← asString? (json.child "batteryPercentage")
  let deviceStatus ← asBool? (json.child "deviceStatus")
  let fCrep ← asBool? (json.child "fCrep")
  let fAuto ← asBool? (json.child "fAuto")
  let aParz ← asBool? (json.child "aParz")
  let calenderStatus ← asBool? (json.child "calenderStatus")
  let userName ← asString? (json.child "userName")
  let userEmail ← asString? (json.child "userEmail")
  let userId ← asString? (json.child "userId")
  let timestamp ← asDateTime? parse (json.child "timestamp")
  let shutterType ← asString? (json.child "shutterType")
  let priority ← asString? (json.child "priority")
  let numberOfMotors ← asInt? (json.child "numberOfMotors")
  let hasDeviceSchedule ← asBool? (json.child "hasDeviceSchedule")
  let shutterIconStatus ← asBool? (json.child "shutterIconStatus")
  let autoPlayTime ← asString? (json.child "autoPlayTime")
  let autoPlay ← asBool? (json.child "autoPlay")
  let sleepTime ← asInt? (json.child "sleepTime")
  let openingEffort1 ← asInt? (json.child "openingEffort1")
  let openingEffort2 ← asInt? (json.child "openingEffort2")
  let openingEffort3 ← asInt? (json.child "openingEffort3")
  let closingEffort1 ← asInt? (json.child "closingEffort1")
  let closingEffort2 ← asInt? (json.child "closingEffort2")
  let closingEffort3 ← asInt? (json.child "closingEffort3")
  let alarmResetButton ← asInt? (json.child "alarmResetButton")
  pure
    { deviceId, deviceMac, deviceName, devicePanelOperationPercentage, wifiPercentage,
      batteryPercentage, deviceStatus, fCrep, fAuto, aParz, calenderStatus, userName, userEmail,
      userId, timestamp, shutterType, priority, numberOfMotors, hasDeviceSchedule,
      shutterIconStatus, autoPlayTime, autoPlay, sleepTime, openingEffort1, openingEffort2,
      openingEffort3, closingEffort1, closingEffort2, closingEffort3, alarmResetButton }

structure ScheduleModel where
  day : String
  firstOpeningTime : String
  firstClosingTime : String
  secondOpeningTime : String
  secondClosingTime : String
  deriving DecidableEq, Repr

def ScheduleModel.fromJson (json : Json) : Except String ScheduleModel := do
  let day ← asString (json.child "day")
  let firstOpeningTime ← asString (json.child "firstOpeningTime")
  let firstClosingTime ← asString (json.child "firstClosingTime")
  let secondOpeningTime ← asString (json.child "secondOpeningTime")
  let secondClosingTime ← asString (json.child "secondClosingTime")
  return { day, firstOpeningTime, firstClosingTime, secondOpeningTime, secondClosingTime }

def ScheduleModel.toJson (s : ScheduleModel) : List (String × Json) :=
  [("day", Json.str s.day),
    ("firstOpeningTime", Json.str s.firstOpeningTime),
    ("firstClosingTime", Json.str s.firstClosingTime),
    ("secondOpeningTime", Json.str s.secondOpeningTime),
    ("secondClosingTime", Json.str s.secondClosingTime)]

/-- Decoding undoes writing, on top of whatever the node held before. -/
theorem ScheduleModel.fromJson_merge (s : ScheduleModel) (json : Json) :
    ScheduleModel.fromJson (json.merge s.toJson) = .ok s := by
  have distinct : (s.toJson.map Prod.fst).Nodup := by
    simp only [toJson, List.map_cons, List.map_nil]
    decide
  have written : ∀ e ∈ s.toJson, (json.merge s.toJson).child e.1 = e.2 :=
    fun e he => Node.child_merge_written distinct he json
  simp only [toJson, List.forall_mem_cons] at written
  obtain ⟨hd, ho, hc, ho2, hc2, -⟩ := written
  simp only [fromJson, toJson, hd, ho, hc, ho2, hc2]
  rfl

end ShutterModels
