import ShutterEase.RecordTypes

/-!
`ShutterDeviceModel.fromJson` after `ShutterDeviceModel.toJson`. Both list the same thirty
fields, each for itself; the defaults that stand for the null fields are where they can part.
-/
namespace DeviceCodec
open KeyedTree Firebase ShutterModels DeviceSchema

def standard : ShutterDeviceModel :=
  { deviceId := some ""
    deviceMac := some ""
    deviceName := some ""
    devicePanelOperationPercentage := some ""
    wifiPercentage := some ""
    batteryPercentage := some ""
    deviceStatus := some false
    fCrep := some false
    fAuto := some false
    aParz := some false
    calenderStatus := some false
    userName := some ""
    userEmail := some ""
    userId := some ""
    timestamp := some ⟨1970, 1, 1, 0, 0, 0, 0, 0, true⟩
    shutterType := some ""
    priority := some ""
    numberOfMotors := some 1
    hasDeviceSchedule := some false
    shutterIconStatus := some false
    autoPlayTime := some ""
    autoPlay := some false
    sleepTime := some 0
    openingEffort1 := some 0
    openingEffort2 := some 0
    openingEffort3 := some 0
    closingEffort1 := some 0
    closingEffort2 := some 0
    closingEffort3 := some 0
    alarmResetButton := some 0 }

def orElse (m other : ShutterDeviceModel) : ShutterDeviceModel :=
  { deviceId := m.deviceId.or other.deviceId
    deviceMac := m.deviceMac.or other.deviceMac
    deviceName := m.deviceName.or other.deviceName
    devicePanelOperationPercentage :=
      m.devicePanelOperationPercentage.or other.devicePanelOperationPercentage
    wifiPercentage := m.wifiPercentage.or other.wifiPercentage
    batteryPercentage := m.batteryPercentage.or other.batteryPercentage
    deviceStatus := m.deviceStatus.or other.deviceStatus
    fCrep := m.fCrep.or other.fCrep
    fAuto := m.fAuto.or other.fAuto
    aParz := m.aParz.or other.aParz
    calenderStatus := m.calenderStatus.or other.calenderStatus
    userName := m.userName.or other.userName
    userEmail := m.userEmail.or other.userEmail
    userId := m.userId.or other.userId
    timestamp := m.timestamp.or other.timestamp
    shutterType := m.shutterType.or other.shutterType
    priority := m.priority.or other.priority
    numberOfMotors := m.numberOfMotors.or other.numberOfMotors
    hasDeviceSchedule := m.hasDeviceSchedule.or other.hasDeviceSchedule
    shutterIconStatus := m.shutterIconStatus.or other.shutterIconStatus
    autoPlayTime := m.autoPlayTime.or other.autoPlayTime
    autoPlay := m.autoPlay.or other.autoPlay
    sleepTime := m.sleepTime.or other.sleepTime
    openingEffort1 := m.openingEffort1.or other.openingEffort1
    openingEffort2 := m.openingEffort2.or other.openingEffort2
    openingEffort3 := m.openingEffort3.or other.openingEffort3
    closingEffort1 := m.closingEffort1.or other.closingEffort1
    closingEffort2 := m.closingEffort2.or other.closingEffort2
    closingEffort3 := m.closingEffort3.or other.closingEffort3
    alarmResetButton := m.alarmResetButton.or other.alarmResetButton }

def encoded (m : ShutterDeviceModel) : Json := fromFields m.toJson

section Codec
variable (parse : String → Except String DateTime)

/-- Decoding gives the model with its null fields filled, and changes it no more after that. -/
def RoundTrips (m : ShutterDeviceModel) : Prop :=
  ShutterDeviceModel.fromJson parse (encoded m) = .ok (orElse m standard) ∧
    ShutterDeviceModel.fromJson parse (encoded (orElse m standard)) = .ok (orElse m standard)

/-- The fields whose default is not of their own type, or is no time. -/
def Given (m : ShutterDeviceModel) : Prop :=
  m.wifiPercentage ≠ none ∧ m.batteryPercentage ≠ none ∧ m.timestamp ≠ none

variable {parse} {m : ShutterDeviceModel}

theorem toJson_names (m : ShutterDeviceModel) :
    m.toJson.map Prod.fst = schema.map Prod.fst := rfl

theorem schema_nodup : (schema.map Prod.fst).Nodup := by decide

theorem child_encoded (m : ShutterDeviceModel) : ∀ e ∈ m.toJson, (encoded m).child e.1 = e.2 := by
  intro e written
  apply Node.childOf_of_mem _ written
  rw [toJson_names]
  exact schema_nodup

theorem decodes (given : Given m)
    (inverts : ∀ t, m.timestamp = some t → parse t.toIso8601String = .ok t) :
    ShutterDeviceModel.fromJson parse (encoded m) = .ok (orElse m standard) := by
  obtain ⟨wifi, battery, time⟩ := given
  obtain ⟨wifiPercentage, wifi⟩ := Option.ne_none_iff_exists'.mp wifi
  obtain ⟨batteryPercentage, battery⟩ := Option.ne_none_iff_exists'.mp battery
  obtain ⟨timestamp, time⟩ := Option.ne_none_iff_exists'.mp time
  have dated : asDateTime? parse (Json.str timestamp.toIso8601String) = .ok (some timestamp) := by
    change (parse timestamp.toIso8601String >>= fun t => pure (some t)) = _
    rw [inverts timestamp time]
    rfl
  have written := child_encoded m
  generalize encoded m = json at written ⊢
  simp only [ShutterDeviceModel.toJson, List.forall_mem_cons, wifi, battery, time, Option.map_some,
    Option.getD_some] at written
  simp only [ShutterDeviceModel.fromJson, written, dated]
  simp [orElse, standard, wifi, battery, time]
  rfl

theorem given_of_fits (refuses : ∀ t, parse "" ≠ .ok t)
    (fits : ∀ field ∈ schema, field.2.Fits parse ((encoded m).child field.1)) : Given m := by
  refine ⟨?_, ?_, ?_⟩
  · intro absent
    obtain ⟨s, cast⟩ := fits ("wifiPercentage", .string) (by decide)
    have written := child_encoded m ("wifiPercentage", Json.bool false)
      (by simp [ShutterDeviceModel.toJson, absent])
    simp only [written] at cast
    cases cast
  · intro absent
    obtain ⟨s, cast⟩ := fits ("batteryPercentage", .string) (by decide)
    have written := child_encoded m ("batteryPercentage", Json.int 0)
      (by simp [ShutterDeviceModel.toJson, absent])
    simp only [written] at cast
    cases cast
  · intro absent
    obtain ⟨t, cast⟩ := fits ("timestamp", .time) (by decide)
    have written := child_encoded m ("timestamp", Json.str "")
      (by simp [ShutterDeviceModel.toJson, absent])
    simp only [written] at cast
    change (parse "" >>= fun time => pure (some time)) = _ at cast
    obtain ⟨time, read, -⟩ := bind_ok_iff.mp cast
    exact refuses time read

theorem orElse_orElse (m other : ShutterDeviceModel) :
    orElse (orElse m other) other = orElse m other := by
  simp [orElse, Option.or_assoc]

theorem given_orElse (given : Given m) (other : ShutterDeviceModel) : Given (orElse m other) := by
  simp [Given, orElse, given.1, given.2.1, given.2.2]

/-- Decoding undoes encoding exactly for the models whose Wi-Fi percentage, battery percentage and
    timestamp are given; for every other model it throws. -/
theorem round_trips_iff (m : ShutterDeviceModel) (parse : String → Except String DateTime)
    (inverts : ∀ t, m.timestamp = some t → parse t.toIso8601String = .ok t)
    (refuses : ∀ t, parse "" ≠ .ok t) :
    (RoundTrips parse m ↔ Given m) ∧
      (¬ Given m → ∃ e, ShutterDeviceModel.fromJson parse (encoded m) = .error e) := by
  have given_of_ok : ∀ d, ShutterDeviceModel.fromJson parse (encoded m) = .ok d → Given m :=
    fun d decoded => given_of_fits refuses (fromJson_succeeds_iff.mp ⟨d, decoded⟩)
  constructor
  · constructor
    · intro trips
      exact given_of_ok _ trips.1
    · intro given
      have again : ShutterDeviceModel.fromJson parse (encoded (orElse m standard)) =
          .ok (orElse (orElse m standard) standard) := by
        apply decodes (given_orElse given standard)
        intro t time
        obtain ⟨stamp, there⟩ := Option.ne_none_iff_exists'.mp given.2.2
        simp only [orElse, there, Option.some_or, Option.some.injEq] at time
        exact inverts t (time ▸ there)
      rw [orElse_orElse] at again
      exact ⟨decodes given inverts, again⟩
  · intro missing
    cases decoded : ShutterDeviceModel.fromJson parse (encoded m) with
    | ok d => exact absurd (given_of_ok d decoded) missing
    | error e => exact ⟨e, rfl⟩

end Codec

section Salon
open Registration RecordTypes DeviceController

theorem registered_given (form : DeviceForm) (userData : UserData) (now : DateTime) :
    Given (registered form userData now) := by
  simp [Given, registered]

theorem salon_round_trips : RoundTrips readNoon (registered salon ada noon) := by
  have trips := (round_trips_iff (registered salon ada noon) readNoon
    (by rintro t ⟨⟩; rfl) (by intro t; simp [readNoon])).1
  exact trips.mpr (registered_given salon ada noon)

/-- A model without a Wi-Fi percentage is written with `false` in its place. -/
theorem no_wifi_no_decoding : ¬ RoundTrips readNoon
    { registered salon ada noon with wifiPercentage := none } := by
  intro trips
  cases trips.1

end Salon
end DeviceCodec
