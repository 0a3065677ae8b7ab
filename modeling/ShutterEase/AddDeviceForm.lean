import ShutterEase.Cards
import ShutterEase.Provenance

/-!
The form that adds a device, from one registration to the next: its widgets, its formatters and
what a registration clears. Two of the texts and the five flags that are saved have no widget, so
whatever is registered is one of the choices on the screen, and the dashboard shows no charge.
-/
namespace AddDeviceForm
open KeyedTree Interleaving Runs Firebase FirebasePath ShutterModels DartText DeviceController
open AutoPlayController Registration Operations Ownership DeviceNodes Provenance RecordTypes
open Home HomeRefinement Cards

inductive ShutterType where
  | single
  | double
  | doubleInterlocking

def ShutterType.value : ShutterType → String
  | .single => "Single"
  | .double => "Double"
  | .doubleInterlocking => "Double Interlocking"

inductive Priority where
  | right
  | left

def Priority.value : Priority → String
  | .right => "Right"
  | .left => "Left"

inductive NumberOfMotors where
  | one
  | two

def NumberOfMotors.value : NumberOfMotors → Int
  | .one => 1
  | .two => 2

inductive Event where
  | deviceName (edited : String)
  | macAddress (edited : String)
  | shutterType (choice : ShutterType)
  | priority (choice : Priority)
  | numberOfMotors (choice : NumberOfMotors)
  | saved

/-- The controllers as `DeviceController` makes them. -/
def opened : DeviceForm := { deviceName := "", macAddress := "" }

/-- What a registration that went through clears: not the two percentages. -/
def clear (form : DeviceForm) : DeviceForm :=
  { form with
    macAddress := ""
    deviceName := ""
    deviceStatus := false
    fCrep := false
    fAuto := false
    aParz := false
    calenderStatus := false
    shutterType := ""
    priority := ""
    numberOfMotors := 1 }

section Session
variable (lengthLimit : String → String → String) (toUpperCase : String → String)

/-- The formatters of the MAC field, one after the other. -/
def formatMac (oldValue newValue : String) : String := toUpperCase (lengthLimit oldValue newValue)

def step (form : DeviceForm) : Event → Option DeviceForm
  | .deviceName edited => some { form with deviceName := edited }
  | .macAddress edited =>
    some { form with macAddress := formatMac lengthLimit toUpperCase form.macAddress edited }
  | .shutterType choice => some { form with shutterType := choice.value }
  | .priority choice => some { form with priority := choice.value }
  | .numberOfMotors choice => some { form with numberOfMotors := choice.value }
  | .saved => some (clear form)

/-- The form as the screen lets the user fill it in. -/
structure Offered (form : DeviceForm) : Prop where
  shutterType : form.shutterType = "" ∨ ∃ choice : ShutterType, form.shutterType = choice.value
  priority : form.priority = "" ∨ ∃ choice : Priority, form.priority = choice.value
  numberOfMotors : ∃ choice : NumberOfMotors, form.numberOfMotors = choice.value
  flags : (form.deviceStatus || form.fCrep || form.fAuto || form.aParz || form.calenderStatus) = false
  percentages : form.panelOperationPercentage = "" ∧ form.batteryPercentage = ""
  macAddress : form.macAddress = "" ∨
    ∃ oldValue newValue, form.macAddress = formatMac lengthLimit toUpperCase oldValue newValue

variable {lengthLimit toUpperCase} {form form' : DeviceForm}

theorem offered_opened : Offered lengthLimit toUpperCase opened :=
  ⟨Or.inl rfl, Or.inl rfl, ⟨.one, rfl⟩, rfl, ⟨rfl, rfl⟩, Or.inl rfl⟩

theorem offered_step (offered : Offered lengthLimit toUpperCase form) {e : Event}
    (h : step lengthLimit toUpperCase form e = some form') :
    Offered lengthLimit toUpperCase form' := by
  obtain ⟨shutterType, priority, numberOfMotors, flags, percentages, macAddress⟩ := offered
  cases e with
  | deviceName edited =>
    cases h
    exact ⟨shutterType, priority, numberOfMotors, flags, percentages, macAddress⟩
  | macAddress edited =>
    cases h
    exact ⟨shutterType, priority, numberOfMotors, flags, percentages, Or.inr ⟨_, edited, rfl⟩⟩
  | shutterType choice =>
    cases h
    exact ⟨Or.inr ⟨choice, rfl⟩, priority, numberOfMotors, flags, percentages, macAddress⟩
  | priority choice =>
    cases h
    exact ⟨shutterType, Or.inr ⟨choice, rfl⟩, numberOfMotors, flags, percentages, macAddress⟩
  | numberOfMotors choice =>
    cases h
    exact ⟨shutterType, priority, ⟨choice, rfl⟩, flags, percentages, macAddress⟩
  | saved =>
    cases h
    exact ⟨Or.inl rfl, Or.inl rfl, ⟨.one, rfl⟩, rfl, percentages, Or.inl rfl⟩

theorem offered_run {events : List Event}
    (ran : run (step lengthLimit toUpperCase) opened events = some form) :
    Offered lengthLimit toUpperCase form :=
  run_invariant (P := fun _ _ => True) (Offered lengthLimit toUpperCase)
    (fun _ _ _ offered _ h => offered_step offered h) offered_opened
    (along_of_all (fun _ _ _ => trivial) _) ran

end Session

section Stored
variable (lengthLimit : String → String → String) (toUpperCase : String → String)

/-- What the form puts into a registered device's record: a choice where it offers one, no
    percentage, and the device's key as the formatted MAC. -/
structure FromForm (key : String) (device : Json) : Prop where
  shutterType : device.child "shutterType" = Json.str "" ∨
    ∃ choice : ShutterType, device.child "shutterType" = Json.str choice.value
  priority : device.child "priority" = Json.str "" ∨
    ∃ choice : Priority, device.child "priority" = Json.str choice.value
  numberOfMotors : ∃ choice : NumberOfMotors,
    device.child "numberOfMotors" = Json.int choice.value
  percentages : ∀ field ∈ ["devicePanelOperationPercentage", "wifiPercentage",
    "batteryPercentage"], device.child field = Json.str ""
  deviceId : device.child "deviceId" = Json.str key
  deviceMac : device.child "deviceMac" = Json.str key
  macAddress : ∃ oldValue newValue, length (formatMac lengthLimit toUpperCase oldValue newValue) = 12 ∧
    key = trim (formatMac lengthLimit toUpperCase oldValue newValue)

/-- What an update leaves under a key that no registration stands at. -/
def Unregistered (device : Json) : Prop := ∀ field ∈ identity, device.child field = Node.null

variable {lengthLimit toUpperCase} {device : Json}

theorem fromForm_registered {form : DeviceForm} {userData : UserData} {now : DateTime}
    (valid : form.validate = true) (offered : Offered lengthLimit toUpperCase form)
    (same : ∀ field ∈ identity, device.child field = (record form userData now).child field) :
    FromForm lengthLimit toUpperCase (newDeviceId form) device := by
  have stored : ∀ field value, field ∈ identity → (record form userData now).child field = value →
      device.child field = value := fun field value member here => (same field member).trans here
  have twelve : length form.macAddress = 12 :=
    (Validations.mac_accepted_iff _).mp (form_accepts_mac valid)
  obtain ⟨panel, battery⟩ := offered.percentages
  constructor
  · rw [stored "shutterType" (Json.str form.shutterType) (by decide) rfl]
    exact offered.shutterType.imp (congrArg Json.str) fun ⟨choice, same⟩ =>
      ⟨choice, congrArg Json.str same⟩
  · rw [stored "priority" (Json.str form.priority) (by decide) rfl]
    exact offered.priority.imp (congrArg Json.str) fun ⟨choice, same⟩ =>
      ⟨choice, congrArg Json.str same⟩
  · rw [stored "numberOfMotors" (Json.int form.numberOfMotors) (by decide) rfl]
    exact offered.numberOfMotors.imp fun choice same => congrArg Json.int same
  · simp only [List.forall_mem_cons]
    refine ⟨?_, stored _ _ (by decide) rfl, ?_, by simp⟩
    · rw [stored _ (Json.str (trim form.panelOperationPercentage)) (by decide) rfl, panel]
      rfl
    · rw [stored _ (Json.str (trim form.batteryPercentage)) (by decide) rfl, battery]
      rfl
  · exact stored _ _ (by decide) rfl
  · exact stored _ _ (by decide) rfl
  · rcases offered.macAddress with empty | ⟨oldValue, newValue, formatted⟩
    · rw [empty] at twelve
      exact absurd twelve (by decide)
    · exact ⟨oldValue, newValue, formatted ▸ twelve, by rw [newDeviceId, formatted]⟩

theorem fromForm_of_one {started : Operation → Prop} {key : String}
    (offered : ∀ form segment userData now,
      started (.saveShutterDevice form segment userData now) → Offered lengthLimit toUpperCase form)
    (whole : OfOneRegistration started key device) :
    FromForm lengthLimit toUpperCase key device ∨ Unregistered device := by
  rcases whole with nothing | ⟨form, segment, userData, now, begun, rfl, valid, same⟩
  · exact Or.inr nothing
  · exact Or.inl (fromForm_registered valid (offered form segment userData now begun) same)

/-- What stands in the home has an owner, so it was registered. -/
theorem not_unregistered {s : Shutter} (stands : shutter device = some s) :
    ¬ Unregistered device := by
  intro nothing
  obtain ⟨owner, owned, -⟩ := Option.map_eq_some_iff.mp stands
  have blank := nothing "userId" (by decide)
  simp [owner?, blank] at owned

/-- No percentage that is stored shows on a card. -/
theorem share_nothing {key : String} (from_form : FromForm lengthLimit toUpperCase key device)
    {s : Shutter} (stands : shutter device = some s) {f : Field}
    (percentage : f.name ∈ ["devicePanelOperationPercentage", "wifiPercentage",
      "batteryPercentage"]) : share s f = "0%" := by
  obtain ⟨owner, -, rfl⟩ := Option.map_eq_some_iff.mp stands
  unfold share
  have blank := from_form.percentages f.name percentage
  simp [blank, Json.str, Node.value?]

variable {parse : String → Option TimeOfDay}

/-- In every state of every run whose registrations come from the form, in whatever session of
    edits and earlier registrations: each record is one that the form made, or what an update left
    where nothing is registered. Whatever stands in the home is of the first kind, and no card of
    it shows a charge. -/
theorem stored_as_offered {db : Json} (empty : db.child "ShutterDevices" = Node.null)
    {moves : List (Move Operation String)} (filled : ∀ form segment userData now,
      .start (.saveShutterDevice form segment userData now) ∈ moves →
        ∃ events, run (step lengthLimit toUpperCase) opened events = some form) :
    Throughout (Operations.step parse) (fun s : System => ∀ key,
      (FromForm lengthLimit toUpperCase key (deviceNode s.store key) ∨
        Unregistered (deviceNode s.store key)) ∧
      ∀ shutter, home s.store key = some shutter →
        FromForm lengthLimit toUpperCase key (deviceNode s.store key) ∧
        ∀ lang, (cardOf lang key shutter).panel = "0%" ∧
          (cardOf lang key shutter).wifi = "0%" ∧ (cardOf lang key shutter).battery = "0%")
      ⟨db, []⟩ moves := by
  refine throughout_mono (fun s all key => ?_) (accounted_throughout empty moves)
  have either : FromForm lengthLimit toUpperCase key (deviceNode s.store key) ∨
      Unregistered (deviceNode s.store key) := by
    refine fromForm_of_one (fun form segment userData now begun => ?_) (all key).whole
    obtain ⟨events, ran⟩ := filled form segment userData now begun
    exact offered_run ran
  refine ⟨either, fun shutter stands => ?_⟩
  have from_form := either.resolve_right (not_unregistered stands)
  refine ⟨from_form, fun lang => ⟨?_, ?_, ?_⟩⟩
  · exact share_nothing from_form stands (by decide)
  · exact share_nothing from_form stands (by decide)
  · exact share_nothing from_form stands (by decide)

def asciiUpper (s : String) : String := String.ofList (s.toList.map Char.toUpper)

/-- A first device is saved, and the next one is typed in lower case. -/
def secondDevice : List Event :=
  [.deviceName "Kitchen", .macAddress "001122334455", .shutterType .double, .saved,
    .deviceName "Salon", .macAddress "a0b1c2d3e4f5"]

theorem salon_typed : run (step (fun _ newValue => newValue) asciiUpper) opened secondDevice =
    some salon := by
  have upper : asciiUpper "a0b1c2d3e4f5" = "A0B1C2D3E4F5" := by decide
  simp only [run, secondDevice, step, formatMac, upper, clear, opened, salon]

theorem salon_stored_as_offered : Throughout (Operations.step fun _ => none)
    (fun s : System => ∀ key,
      (FromForm (fun _ newValue => newValue) asciiUpper key (deviceNode s.store key) ∨
        Unregistered (deviceNode s.store key)) ∧
      ∀ shutter, home s.store key = some shutter →
        FromForm (fun _ newValue => newValue) asciiUpper key (deviceNode s.store key) ∧
        ∀ lang, (cardOf lang key shutter).panel = "0%" ∧
          (cardOf lang key shutter).wifi = "0%" ∧ (cardOf lang key shutter).battery = "0%")
    ⟨Node.null, []⟩ registeredByTwo := by
  refine stored_as_offered rfl fun form segment userData now begun => ⟨secondDevice, ?_⟩
  have same : form = salon := by
    simp only [registeredByTwo, List.mem_cons, Move.start.injEq, reduceCtorEq, List.not_mem_nil,
      Operation.saveShutterDevice.injEq, or_false, false_or] at begun
    rcases begun with ⟨rfl, -⟩ | ⟨rfl, -⟩ <;> rfl
  exact same ▸ salon_typed

end Stored
end AddDeviceForm
