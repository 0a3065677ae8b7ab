import ShutterEase.AutoPlayController
import ShutterEase.Ownership

/-!
The account-wide auto-play setting, kept as a copy on each device. Operations of one user run
one after the other; a device id is a text of the MAC field, which turns what is typed into
upper case, so it can be blank or hold slashes but never spells a field of a record.
-/
namespace AccountSetting
open KeyedTree Resumption Runs Firebase FirebasePath ShutterModels AccountDevices DartText
open DeviceController AutoPlayController Registration Ownership

/-- No letter from `a` to `z` is left. -/
def UpperCase (text : String) : Prop :=
  (text.toList.any fun c => 'a' ≤ c && c ≤ 'z') = false

instance (text : String) : Decidable (UpperCase text) := by
  unfold UpperCase
  infer_instance

inductive Operation where
  | updateAutoPlayStatus (isEnabled : Bool)
  | updateAutoPlayTime (time : String)
  | saveShutterDevice (form : DeviceForm) (upper : UpperCase form.macAddress)
      (name email : Option String) (now : DateTime)
  | deleteShutterDevice (deviceId : String) (upper : UpperCase deviceId)
      (shouldDelete : Option Bool)

def program (uid : String) : Operation → Act Unit
  | .updateAutoPlayStatus isEnabled =>
    AutoPlayController.updateAutoPlayStatus (some uid) isEnabled
  | .updateAutoPlayTime time => AutoPlayController.updateAutoPlayTime (some uid) time
  | .saveShutterDevice form _ name email now =>
    DeviceController.saveShutterDevice form ⟨some uid, name, email⟩ now
  | .deleteShutterDevice deviceId _ shouldDelete =>
    DeviceController.deleteShutterDevice deviceId shouldDelete

/-- Each operation completes before the next one starts. -/
def step (uid : String) (db : Json) (op : Operation) : Option Json :=
  some (alone (program uid op) db).1

def HoldsSetting (enabled : Bool) (time : String) (device : Json) : Prop :=
  device.child "autoPlay" = Json.bool enabled ∧ device.child "autoPlayTime" = Json.str time

/-- If the user owns a device, all of them hold one setting and the settings screen loads it. -/
def UniformSetting (uid : String) (db : Json) : Prop :=
  (∃ key, owned uid db key) → ∃ enabled time,
    (∀ key, owned uid db key → HoldsSetting enabled time (deviceNode db key)) ∧
    shownBy (loadAutoPlayStatus (some uid)) db = [.setAutoPlayEnabled enabled] ∧
    shownBy (loadAutoPlayTime (some uid)) db = [.setAutoPlayTime time]

/-- The child of `ShutterDevices` that a registration fills, when its path has just one
    segment below it. -/
def registersAt (form : DeviceForm) : Option String :=
  if form.validate = true ∧ validCharacters (newDeviceId form) = true then
    match pieces (newDeviceId form) with
    | [key] => some key
    | _ => none
  else none

/-- A registration meets other devices of the user only while auto-play is off and no time is
    set on them. -/
def MeetsDefaults (uid : String) (db : Json) : Operation → Prop
  | .saveShutterDevice form _ _ _ _ => ∀ key, registersAt form = some key →
      ∀ other, other ≠ key → owned uid db other → HoldsSetting false "" (deviceNode db other)
  | _ => True

section Screen
variable {uid : String} {db : Json}

theorem owned_iff_listed (key : String) : owned uid db key ↔
    key ∈ (userDevices (some uid) (db.child "ShutterDevices")).map Prod.fst := by
  rw [key_mem_userDevices]
  rfl

/-- What the first device holds is what the screen shows. -/
theorem shown_of_holds {enabled : Bool} {time : String} (some_device : ∃ key, owned uid db key)
    (all : ∀ key, owned uid db key → HoldsSetting enabled time (deviceNode db key)) :
    shownBy (loadAutoPlayStatus (some uid)) db = [.setAutoPlayEnabled enabled] ∧
      shownBy (loadAutoPlayTime (some uid)) db = [.setAutoPlayTime time] := by
  obtain ⟨key, own⟩ := some_device
  have listed := (owned_iff_listed key).mp own
  cases devices : userDevices (some uid) (db.child "ShutterDevices") with
  | nil => simp [devices] at listed
  | cons shutter rest =>
    have member : (shutter.1, shutter.2) ∈ userDevices (some uid) (db.child "ShutterDevices") := by
      simp [devices]
    obtain ⟨node, -, own'⟩ := mem_userDevices.mp member
    have holds : HoldsSetting enabled time shutter.2 := by
      have at_key := all shutter.1 (by simpa [owned, deviceNode, node] using own')
      simpa [deviceNode, node] using at_key
    have read : db.get ["ShutterDevices"] = db.child "ShutterDevices" := by simp
    constructor
    · unfold loadAutoPlayStatus
      rw [shownBy_get, read, devices]
      simp only [holds.1, asBool?, Json.bool, Action.lift_ok_bind]
      exact shownBy_perform _ db
    · unfold loadAutoPlayTime
      rw [shownBy_get, read, devices]
      simp only [holds.2, asString?, Json.str, Action.lift_ok_bind]
      exact shownBy_perform _ db

theorem uniform_iff : UniformSetting uid db ↔ ∃ enabled time,
    ∀ key, owned uid db key → HoldsSetting enabled time (deviceNode db key) := by
  constructor
  · intro uniform
    by_cases none_owned : ∃ key, owned uid db key
    · obtain ⟨enabled, time, all, -⟩ := uniform none_owned
      exact ⟨enabled, time, all⟩
    · exact ⟨false, "", fun key own => absurd ⟨key, own⟩ none_owned⟩
  · rintro ⟨enabled, time, all⟩ some_device
    exact ⟨enabled, time, all, shown_of_holds some_device all⟩

end Screen

section Writes
variable {uid : String} {db : Json}

theorem toJson_leaves (device : ShutterDeviceModel) :
    ∀ e ∈ device.toJson, ∃ value, e.2 = .leaf value := by
  have wifi : ∃ value, (device.wifiPercentage.map Json.str).getD (Json.bool false) =
      .leaf value := by
    cases device.wifiPercentage <;> exact ⟨_, rfl⟩
  have battery : ∃ value, (device.batteryPercentage.map Json.str).getD (Json.int 0) =
      .leaf value := by
    cases device.batteryPercentage <;> exact ⟨_, rfl⟩
  simp only [ShutterDeviceModel.toJson, List.forall_mem_cons, wifi, battery, true_and]
  simp [Json.str, Json.bool, Json.int]

theorem childOf_leaves {fields : List (String × Json)} (leaves : ∀ e ∈ fields, ∃ value,
    e.2 = .leaf value) (key : String) : ownedBy (some uid) (Node.childOf key fields) = false := by
  induction fields with
  | nil => rfl
  | cons e rest ih =>
    simp only [Node.childOf]
    split
    · obtain ⟨value, leaf⟩ := leaves e (by simp)
      simp [leaf, ownedBy]
    · exact ih fun e he => leaves e (by simp [he])

/-- The fields of a record are no devices of anybody. -/
theorem record_owns_nothing (form : DeviceForm) (userData : UserData) (now : DateTime)
    (key : String) : ownedBy (some uid) ((record form userData now).child key) = false :=
  childOf_leaves (toJson_leaves _) key

theorem record_holds (uid : String) (form : DeviceForm) (name email : Option String) (now : DateTime) :
    ownedBy (some uid) (record form ⟨some uid, name, email⟩ now) = true ∧
      HoldsSetting false "" (record form ⟨some uid, name, email⟩ now) := by
  refine ⟨?_, rfl, rfl⟩
  have id := record_userId form ⟨some uid, name, email⟩ now
  simp [ownedBy, id, Json.str, Node.value?]

theorem deviceNode_set_here (key : String) (below : List String) (db value : Json) :
    deviceNode (db.set ("ShutterDevices" :: key :: below) value) key =
      (deviceNode db key).set below value :=
  Node.get_set_above db ["ShutterDevices", key] below value

theorem deviceNode_set_all (key : String) (db value : Json) :
    deviceNode (db.set ["ShutterDevices"] value) key = value.child key := by
  simp [deviceNode]

theorem upperCase_iff {text : String} :
    UpperCase text ↔ ∀ c ∈ text.toList, ¬ ('a' ≤ c ∧ c ≤ 'z') := by
  simp [UpperCase]

/-- Text of the MAC field spells no name with a small letter in it. -/
theorem piece_ne {text piece name : String} (upper : UpperCase text) (cut : piece ∈ pieces text)
    {c : Char} (member : c ∈ name.toList) (small : 'a' ≤ c ∧ c ≤ 'z') : name ≠ piece := by
  intro same
  subst same
  exact upperCase_iff.mp upper c (mem_of_mem_piece cut member) small

theorem upperCase_trim {text : String} (upper : UpperCase text) : UpperCase (trim text) := by
  rw [upperCase_iff] at upper ⊢
  intro c member
  exact upper c (mem_of_mem_trim member)

/-- Devices may go, and the ones that stay hold what they held. -/
def FieldsKept (uid : String) (db after : Json) : Prop :=
  ∀ key, owned uid after key → owned uid db key ∧ ∀ enabled time,
    HoldsSetting enabled time (deviceNode db key) → HoldsSetting enabled time (deviceNode after key)

theorem uniform_of_kept {after : Json} (kept : FieldsKept uid db after)
    (uniform : UniformSetting uid db) : UniformSetting uid after := by
  obtain ⟨enabled, time, all⟩ := uniform_iff.mp uniform
  refine uniform_iff.mpr ⟨enabled, time, ?_⟩
  intro key own
  obtain ⟨before, same⟩ := kept key own
  exact same enabled time (all key before)

theorem kept_refl : FieldsKept uid db db := fun _ own => ⟨own, fun _ _ holds => holds⟩

/-- A write inside a record, below a name that is none of the three fields. -/
theorem kept_below {text key inner : String} {below : List String} (upper : UpperCase text)
    (path : pieces text = key :: inner :: below) (value : Json) :
    FieldsKept uid db (db.set ("ShutterDevices" :: key :: inner :: below) value) := by
  have cut : inner ∈ pieces text := by simp [path]
  have user : "userId" ≠ inner := piece_ne upper cut (c := 's') (by decide) (by decide)
  have auto : "autoPlay" ≠ inner := piece_ne upper cut (c := 'u') (by decide) (by decide)
  have time : "autoPlayTime" ≠ inner := piece_ne upper cut (c := 'u') (by decide) (by decide)
  intro other own
  by_cases same : other = key
  · subst same
    unfold owned at own ⊢
    rw [deviceNode_set_here, Node.set_cons] at *
    constructor
    · simpa only [ownedBy, Node.child_setChild_ne user] using own
    · intro enabled text holds
      simpa only [HoldsSetting, Node.child_setChild_ne auto, Node.child_setChild_ne time]
        using holds
  · unfold owned at own ⊢
    rw [deviceNode_set_ne same] at *
    exact ⟨own, fun _ _ holds => holds⟩

theorem kept_save_elsewhere {form : DeviceForm} (upper : UpperCase form.macAddress)
    (userData : UserData) (now : DateTime) (other : ∀ key, pieces (newDeviceId form) ≠ [key]) :
    FieldsKept uid db
      (db.set ("ShutterDevices" :: pieces (newDeviceId form)) (record form userData now)) := by
  cases path : pieces (newDeviceId form) with
  | nil =>
    intro key own
    unfold owned at own
    rw [deviceNode_set_all, record_owns_nothing] at own
    simp at own
  | cons key rest =>
    cases rest with
    | nil => exact absurd path (other key)
    | cons inner below => exact kept_below (upperCase_trim upper) path _

theorem kept_delete {deviceId : String} (upper : UpperCase deviceId) :
    FieldsKept uid db (db.set ("ShutterDevices" :: pieces deviceId) .null) := by
  cases path : pieces deviceId with
  | nil =>
    intro key own
    unfold owned at own
    rw [deviceNode_set_all] at own
    simp [ownedBy] at own
  | cons key rest =>
    cases rest with
    | nil =>
      intro other own
      unfold owned at own ⊢
      by_cases same : other = key
      · subst same
        rw [deviceNode_set_here, Node.set_nil] at own
        simp [ownedBy] at own
      · rw [deviceNode_set_ne same] at *
        exact ⟨own, fun _ _ holds => holds⟩
    | cons inner below => exact kept_below upper path _

end Writes

section Updates
variable {uid : String} {db : Json}

theorem owned_written {fields : List (String × Json)} {key : String} (own : owned uid (writeEach fields
      ((userDevices (some uid) (db.child "ShutterDevices")).map Prod.fst) db) key) :
    owned uid db key ∧ deviceNode (writeEach fields
      ((userDevices (some uid) (db.child "ShutterDevices")).map Prod.fst) db) key =
        (deviceNode db key).merge fields := by
  have node := get_writeUserDevices fields uid key db
  unfold owned deviceNode at *
  rw [node] at own ⊢
  split at own
  · rename_i before
    exact ⟨before, if_pos before⟩
  · rename_i stranger
    exact absurd own stranger

theorem uniform_updateAutoPlayStatus (uniform : UniformSetting uid db) (isEnabled : Bool) :
    UniformSetting uid (alone (updateAutoPlayStatus (some uid) isEnabled) db).1 := by
  obtain ⟨enabled, time, all⟩ := uniform_iff.mp uniform
  refine uniform_iff.mpr ⟨isEnabled, time, ?_⟩
  intro key own
  rw [alone_updateAutoPlayStatus] at own ⊢
  obtain ⟨before, node⟩ := owned_written own
  rw [node]
  refine ⟨by simp, ?_⟩
  simpa [Node.child_setChild_ne] using (all key before).2

theorem uniform_updateAutoPlayTime (uniform : UniformSetting uid db) (time : String) :
    UniformSetting uid (alone (updateAutoPlayTime (some uid) time) db).1 := by
  obtain ⟨enabled, old, all⟩ := uniform_iff.mp uniform
  refine uniform_iff.mpr ⟨enabled, time, ?_⟩
  intro key own
  rw [alone_updateAutoPlayTime] at own ⊢
  obtain ⟨before, node⟩ := owned_written own
  rw [node]
  refine ⟨?_, by simp⟩
  simpa [Node.child_setChild_ne] using (all key before).1

end Updates

section Registrations
variable {uid : String} {db : Json} {form : DeviceForm} {name email : Option String}
    {now : DateTime}

/-- A new device comes with the defaults, so the others must hold them already. -/
theorem uniform_registered (key : String) : UniformSetting uid (db.set ["ShutterDevices", key]
      (record form ⟨some uid, name, email⟩ now)) ↔
    ∀ other, other ≠ key → owned uid db other → HoldsSetting false "" (deviceNode db other) := by
  have filled := deviceNode_set_here key [] db (record form ⟨some uid, name, email⟩ now)
  rw [Node.set_nil] at filled
  obtain ⟨own, defaults⟩ := record_holds uid form name email now
  rw [uniform_iff]
  constructor
  · rintro ⟨enabled, time, all⟩ other apart own'
    have here := all key (by rw [owned, filled, own])
    have there := all other (by rw [owned, deviceNode_set_ne apart, own'])
    rw [filled] at here
    rw [deviceNode_set_ne apart] at there
    have enabled_eq := defaults.1.symm.trans here.1
    have time_eq := defaults.2.symm.trans here.2
    constructor
    · rw [enabled_eq, there.1]
    · rw [time_eq, there.2]
  · intro others
    refine ⟨false, "", ?_⟩
    intro other own'
    by_cases same : other = key
    · subst same
      rw [filled]
      exact defaults
    · rw [owned, deviceNode_set_ne same] at own'
      rw [deviceNode_set_ne same]
      exact others other same own'

theorem uniform_saveShutterDevice (upper : UpperCase form.macAddress)
    (uniform : UniformSetting uid db) :
    UniformSetting uid (alone (saveShutterDevice form ⟨some uid, name, email⟩ now) db).1 ↔
      MeetsDefaults uid db (.saveShutterDevice form upper name email now) := by
  rw [alone_saveShutterDevice]
  simp only [MeetsDefaults, registersAt]
  split
  · by_cases single : ∃ key, pieces (newDeviceId form) = [key]
    · obtain ⟨key, path⟩ := single
      simp only [path, Option.some.injEq, forall_eq']
      exact uniform_registered key
    · have other : ∀ key, pieces (newDeviceId form) ≠ [key] :=
        fun key path => single ⟨key, path⟩
      have kept := uniform_of_kept (kept_save_elsewhere upper ⟨some uid, name, email⟩ now other)
        uniform
      refine ⟨?_, fun _ => kept⟩
      intro _ key registers
      split at registers
      · rename_i path
        exact absurd path (other _)
      · simp at registers
  · simp [uniform]

theorem uniform_step_iff (uniform : UniformSetting uid db) (op : Operation) {after : Json}
    (h : step uid db op = some after) : UniformSetting uid after ↔ MeetsDefaults uid db op := by
  simp only [step, Option.some.injEq] at h
  subst h
  cases op with
  | updateAutoPlayStatus isEnabled =>
    exact ⟨fun _ => trivial, fun _ => uniform_updateAutoPlayStatus uniform isEnabled⟩
  | updateAutoPlayTime time =>
    exact ⟨fun _ => trivial, fun _ => uniform_updateAutoPlayTime uniform time⟩
  | saveShutterDevice form upper name email now => exact uniform_saveShutterDevice upper uniform
  | deleteShutterDevice deviceId upper shouldDelete =>
    refine ⟨fun _ => trivial, fun _ => uniform_of_kept ?_ uniform⟩
    simp only [program]
    rw [alone_deleteShutterDevice]
    split
    · exact kept_delete upper
    · exact kept_refl

/-- From a state with one setting, all states between operations have one exactly when each
    registration meets the defaults. -/
theorem setting_uniform_iff_defaults_met (ops : List Operation)
    (initial : UniformSetting uid db) :
    Throughout (step uid) (UniformSetting uid) db ops ↔
      Along (step uid) (MeetsDefaults uid) db ops := by
  apply throughout_iff_along fun _ => True
  · exact fun _ _ _ _ _ => trivial
  · intro db op disabled
    simp [step] at disabled
  · exact fun db op after _ uniform h => uniform_step_iff uniform op h
  · trivial
  · exact initial

end Registrations

section Added

def kitchen : DeviceForm := { deviceName := "Kitchen", macAddress := "001122334455" }

theorem salon_upper : UpperCase salon.macAddress := by decide

theorem kitchen_upper : UpperCase kitchen.macAddress := by decide

theorem nothing_uniform : UniformSetting "uid-1" Node.null := by
  intro some_device
  obtain ⟨key, own⟩ := some_device
  simp [owned, deviceNode, ownedBy] at own

/-- The second device is added while auto-play is still off. -/
theorem setting_uniform_two_devices :
    let ops : List Operation := [.saveShutterDevice salon salon_upper (some "Ada") none noon,
      .saveShutterDevice kitchen kitchen_upper (some "Ada") none noon,
      .updateAutoPlayStatus true, .updateAutoPlayTime "7:05 AM",
      .deleteShutterDevice "A0B1C2D3E4F5" (by decide) (some true)]
    Throughout (step "uid-1") (UniformSetting "uid-1") Node.null ops ↔
      Along (step "uid-1") (MeetsDefaults "uid-1") Node.null ops :=
  setting_uniform_iff_defaults_met _ nothing_uniform

/-- A device registered while auto-play is on does not have it. -/
theorem added_device_differs :
    ¬ Throughout (step "uid-1") (UniformSetting "uid-1") Node.null
      [.saveShutterDevice salon salon_upper (some "Ada") none noon, .updateAutoPlayStatus true,
        .saveShutterDevice kitchen kitchen_upper (some "Ada") none noon] := by
  intro uniform
  have switched := (uniform.2 _ rfl).2 _ rfl
  have meets := (uniform_step_iff switched.1 _ rfl).mp (switched.2 _ rfl)
  have others := meets "001122334455" (by decide) "A0B1C2D3E4F5" (by decide) rfl
  have differs : Json.bool true = Json.bool false := others.1
  simp [Json.bool] at differs

end Added
end AccountSetting
