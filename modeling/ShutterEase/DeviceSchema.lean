import ShutterEase.ShutterModels

/- The casts of `ShutterDeviceModel.fromJson` field by field: it succeeds exactly when every
   field passes its own. -/
namespace DeviceSchema
open KeyedTree Firebase ShutterModels

inductive Kind where
  | string
  | bool
  | int
  | time
  deriving DecidableEq, Repr

/-- The value passes the cast of a field of this kind. -/
def Kind.Fits (parse : String → Except String DateTime) : Kind → Json → Prop
  | .string, value => ∃ s, asString? value = .ok s
  | .bool, value => ∃ b, asBool? value = .ok b
  | .int, value => ∃ i, asInt? value = .ok i
  | .time, value => ∃ t, asDateTime? parse value = .ok t

/-- The fields that the decoder reads, with their kinds. -/
def schema : List (String × Kind) :=
  [("deviceId", .string), ("deviceMac", .string), ("deviceName", .string),
    ("devicePanelOperationPercentage", .string), ("wifiPercentage", .string),
    ("batteryPercentage", .string), ("deviceStatus", .bool), ("fCrep", .bool), ("fAuto", .bool),
    ("aParz", .bool), ("calenderStatus", .bool), ("userName", .string), ("userEmail", .string),
    ("userId", .string), ("timestamp", .time), ("shutterType", .string), ("priority", .string),
    ("numberOfMotors", .int), ("hasDeviceSchedule", .bool), ("shutterIconStatus", .bool),
    ("autoPlayTime", .string), ("autoPlay", .bool), ("sleepTime", .int),
    ("openingEffort1", .int), ("openingEffort2", .int), ("openingEffort3", .int),
    ("closingEffort1", .int), ("closingEffort2", .int), ("closingEffort3", .int),
    ("alarmResetButton", .int)]

section Binds
variable {ε α β : Type} {x : Except ε α} {f : α → Except ε β} {b : β}

theorem bind_ok_iff : x >>= f = .ok b ↔ ∃ a, x = .ok a ∧ f a = .ok b := by
  cases x with
  | ok a => simp [bind, Except.bind]
  | error e => simp [bind, Except.bind]

theorem bind_succeeds : (∃ b, x >>= f = .ok b) ↔ ∃ a, x = .ok a ∧ ∃ b, f a = .ok b := by
  cases x with
  | ok a => simp [bind, Except.bind]
  | error e => simp [bind, Except.bind]

theorem pure_ok_iff {a : β} : (pure a : Except ε β) = .ok b ↔ a = b := by
  simp [pure, Except.pure]

end Binds

section Decoder
variable {parse : String → Except String DateTime} {json : Json}

theorem fromJson_succeeds_iff : (∃ d, ShutterDeviceModel.fromJson parse json = .ok d) ↔
    ∀ e ∈ schema, e.2.Fits parse (json.child e.1) := by
  simp only [ShutterDeviceModel.fromJson, bind_succeeds, pure_ok_iff, exists_eq',
    exists_and_right, and_true, schema, List.forall_mem_cons, Kind.Fits, List.not_mem_nil,
    IsEmpty.forall_iff, implies_true]

theorem fromJson_userId {d : ShutterDeviceModel}
    (h : ShutterDeviceModel.fromJson parse json = .ok d) :
    asString? (json.child "userId") = .ok d.userId := by
  simp only [ShutterDeviceModel.fromJson, bind_ok_iff, pure_ok_iff] at h
  grind

theorem fromJson_flags {d : ShutterDeviceModel}
    (h : ShutterDeviceModel.fromJson parse json = .ok d) :
    asBool? (json.child "deviceStatus") = .ok d.deviceStatus ∧
      asBool? (json.child "fCrep") = .ok d.fCrep ∧ asBool? (json.child "fAuto") = .ok d.fAuto ∧
      asBool? (json.child "aParz") = .ok d.aParz ∧
      asBool? (json.child "calenderStatus") = .ok d.calenderStatus := by
  simp only [ShutterDeviceModel.fromJson, bind_ok_iff, pure_ok_iff] at h
  grind

end Decoder
end DeviceSchema
