import ShutterEase.DeviceList
import ShutterEase.Ownership

/-!
The types of what is stored, over every interleaving of the app's operations: each record that
the app can leave behind, whole or partial, is one that the app can read.
-/
namespace RecordTypes
open KeyedTree Resumption Interleaving Runs Firebase FirebasePath ShutterModels AccountDevices
open DeviceController CommandsController AutoPlayController ScheduleController Registration
open Operations Ownership DeviceSchema DeviceList

section Records
variable {parse : String → Except String DateTime} {key : String} {device : Json}

/-- A field of the decoder, of its kind. The fields that say whose the device is and which one
    are never written alone, and those of the scheduler never as null. -/
structure Typed (parse : String → Except String DateTime) (field : String × Json) : Prop where
  known : field.1 ∈ schema.map Prod.fst
  fits : ∀ kind, (field.1, kind) ∈ schema → kind.Fits parse field.2
  plain : field.1 ∉ ["userId", "deviceId", "deviceMac"]
  autoPlay : field.1 = "autoPlay" → ∃ b, field.2 = Json.bool b
  autoPlayTime : field.1 = "autoPlayTime" → ∃ t, field.2 = Json.str t

/-- What is stored under a key: nothing, a record, or the part of one that an update has left. -/
structure Sound (parse : String → Except String DateTime) (key : String) (device : Json) :
    Prop where
  branch : ∃ children, device = .branch children
  known : ∀ name, device.child name ≠ Node.null → name = "Schedule" ∨ name ∈ schema.map Prod.fst
  fits : ∀ field ∈ schema, field.2.Fits parse (device.child field.1)
  registered : device.child "userId" ≠ Node.null →
    device.child "deviceId" = Json.str key ∧ device.child "deviceMac" = Json.str key ∧
      Passes device

theorem fits_null (kind : Kind) : kind.Fits parse Node.null := by
  cases kind <;> exact ⟨none, rfl⟩

theorem sound_null : Sound parse key Node.null :=
  ⟨⟨[], rfl⟩, fun _ there => absurd rfl there, fun field _ => fits_null field.2,
    fun there => absurd rfl there⟩

theorem child_plain {fields : List (String × Json)} (typed : ∀ e ∈ fields, Typed parse e)
    {name : String} (plain : name ∈ ["userId", "deviceId", "deviceMac"]) :
    (device.merge fields).child name = device.child name := by
  apply Node.child_merge_other
  intro member
  obtain ⟨e, written, same⟩ := List.mem_map.mp member
  exact (typed e written).plain (same ▸ plain)

theorem sound_merge {fields : List (String × Json)} (sound : Sound parse key device)
    (typed : ∀ e ∈ fields, Typed parse e) : Sound parse key (device.merge fields) := by
  constructor
  · obtain ⟨children, same⟩ := sound.branch
    rw [same]
    exact Node.branch_merge children fields
  · intro name there
    rcases Node.child_merge_cases device fields name with ⟨e, member, same, -⟩ | ⟨-, kept⟩
    · exact Or.inr (same ▸ (typed e member).known)
    · exact sound.known name (kept ▸ there)
  · intro field member
    rcases Node.child_merge_cases device fields field.1 with ⟨e, written, same, value⟩ | ⟨-, kept⟩
    · rw [value]
      exact (typed e written).fits field.2 (by rw [same]; exact member)
    · rw [kept]
      exact sound.fits field member
  · intro there
    rw [child_plain typed (by simp)] at there
    obtain ⟨id, mac, ⟨b, flag⟩, t, time⟩ := sound.registered there
    rw [child_plain typed (by simp), child_plain typed (by simp)]
    refine ⟨id, mac, ?_, ?_⟩
    · rcases Node.child_merge_cases device fields "autoPlay" with
        ⟨e, member, same, value⟩ | ⟨-, kept⟩
      · rw [value]
        exact (typed e member).autoPlay same
      · exact ⟨b, kept.trans flag⟩
    · rcases Node.child_merge_cases device fields "autoPlayTime" with
        ⟨e, member, same, value⟩ | ⟨-, kept⟩
      · rw [value]
        exact (typed e member).autoPlayTime same
      · exact ⟨t, kept.trans time⟩

/-- Writes below the schedule are none of the decoder's business. -/
theorem sound_schedule (sound : Sound parse key device) (schedule : Json) :
    Sound parse key (device.setChild "Schedule" schedule) := by
  have other : ∀ name, name ≠ "Schedule" →
      (device.setChild "Schedule" schedule).child name = device.child name :=
    fun name ne => Node.child_setChild_ne ne device schedule
  constructor
  · obtain ⟨children, same⟩ := sound.branch
    rw [same]
    exact Node.branch_setChild children "Schedule" schedule
  · intro name there
    by_cases here : name = "Schedule"
    · exact Or.inl here
    · exact sound.known name (other name here ▸ there)
  · intro field member
    have ne : field.1 ≠ "Schedule" := by
      have absent : "Schedule" ∉ schema.map Prod.fst := by decide
      intro same
      exact absent (same ▸ List.mem_map.mpr ⟨field, member, rfl⟩)
    rw [other field.1 ne]
    exact sound.fits field member
  · intro there
    rw [other "userId" (by decide)] at there
    unfold Passes
    rw [other "deviceId" (by decide), other "deviceMac" (by decide), other "autoPlay" (by decide),
      other "autoPlayTime" (by decide)]
    exact sound.registered there

/-- A whole registered record. -/
theorem sound_record {form : DeviceForm} {userData : UserData} {now : DateTime}
    (dated : ∃ t, parse now.toIso8601String = .ok t) :
    Sound parse (newDeviceId form) (record form userData now) := by
  refine ⟨⟨_, rfl⟩, ?_, ?_, fun _ => ⟨rfl, rfl, ⟨_, rfl⟩, _, rfl⟩⟩
  · intro name there
    right
    by_contra absent
    exact there (Node.childOf_absent absent)
  · obtain ⟨t, read⟩ := dated
    have timestamp : asDateTime? parse ((record form userData now).child "timestamp") =
        .ok (some t) := by
      change (do
        let time ← parse now.toIso8601String
        return some time) = _
      rw [read]
      rfl
    simp only [schema, List.forall_mem_cons, Kind.Fits, timestamp]
    repeat' apply And.intro
    all_goals first | exact ⟨_, rfl⟩ | simp

/-- No name of a field is an array index. -/
theorem known_not_index : ∀ name ∈ "Schedule" :: schema.map Prod.fst, indexKey name = none := by
  have none_index : ("Schedule" :: schema.map Prod.fst).all fun name => indexKey name = none := by
    decide
  intro name member
  simpa using List.all_eq_true.mp none_index name member

/-- Such a record is a map, and the model decodes it. -/
theorem readable_of_sound (sound : Sound parse key device) (there : device ≠ Node.null) :
    (∃ deviceData, asMap device = .ok deviceData) ∧
      ∃ d, ShutterDeviceModel.fromJson parse device = .ok d := by
  refine ⟨?_, fromJson_succeeds_iff.mpr sound.fits⟩
  have no_array : exportsArray device.keys = false := by
    cases keys : device.keys with
    | nil => rfl
    | cons name rest =>
      have stored : device.child name ≠ Node.null := Node.mem_keys.mp (by simp [keys])
      have member : name ∈ "Schedule" :: schema.map Prod.fst :=
        List.mem_cons.mpr (sound.known name stored)
      simp [exportsArray, known_not_index name member]
  obtain ⟨children, same⟩ := sound.branch
  subst same
  cases children with
  | nil => exact absurd rfl there
  | cons e rest =>
    refine ⟨.branch (e :: rest), ?_⟩
    simp only [asMap, no_array, Bool.false_eq_true, ↓reduceIte]

end Records

section Calls
variable {parse : String → Except String DateTime}

def AllSound (parse : String → Except String DateTime) (db : Json) : Prop :=
  ∀ key, Sound parse key (deviceNode db key)

/-- What the app asks of the database, with the types of what it writes. -/
def TypedCall (parse : String → Except String DateTime) : DbCall → Prop
  | .get _ => True
  | .set path value => ∃ form userData now, path = ["ShutterDevices", newDeviceId form] ∧
      value = record form userData now ∧ ∃ t, parse now.toIso8601String = .ok t
  | .update path fields =>
    (∃ key, path = ["ShutterDevices", key] ∧ ∀ e ∈ fields, Typed parse e) ∨
      ∃ key day, path = ["ShutterDevices", key, "Schedule", day]
  | .remove path => ∃ key, path = ["ShutterDevices", key]

theorem allSound_set {db value : Json} {key : String} {below : List String}
    (all : AllSound parse db)
    (here : Sound parse key (deviceNode (db.set ("ShutterDevices" :: key :: below) value) key)) :
    AllSound parse (db.set ("ShutterDevices" :: key :: below) value) := by
  intro other
  by_cases same : other = key
  · rw [same]
    exact here
  · rw [deviceNode_set_ne same]
    exact all other

theorem allSound_served {c : DbCall} (typed : TypedCall parse c) {db db' reply : Json}
    (all : AllSound parse db) (served : respond c db = .ok (db', reply)) : AllSound parse db' := by
  cases c with
  | get path =>
    simp only [respond, serve, Except.ok.injEq, Prod.mk.injEq] at served
    exact served.1 ▸ all
  | set path value =>
    obtain ⟨form, userData, now, place, written, dated⟩ := typed
    subst place written
    simp only [respond, serve, Except.ok.injEq, Prod.mk.injEq] at served
    rw [← served.1]
    apply allSound_set all
    rw [deviceNode, Node.get_set_same]
    exact sound_record dated
  | update path fields =>
    simp only [respond, serve, Except.ok.injEq, Prod.mk.injEq] at served
    rw [← served.1]
    rcases typed with ⟨key, place, fields_typed⟩ | ⟨key, day, place⟩
    · subst place
      apply allSound_set all
      have merged := Node.get_update_same db ["ShutterDevices", key] fields
      unfold Node.update at merged
      rw [deviceNode, merged]
      exact sound_merge (all key) fields_typed
    · subst place
      apply allSound_set all
      have below := Node.get_update_above db ["ShutterDevices", key] ["Schedule", day] fields
      unfold Node.update at below
      simp only [List.cons_append, List.nil_append] at below
      rw [deviceNode, below, Node.set_cons]
      exact sound_schedule (all key) _
  | remove path =>
    obtain ⟨key, place⟩ := typed
    subst place
    simp only [respond, serve, Except.ok.injEq, Prod.mk.injEq] at served
    rw [← served.1]
    apply allSound_set all
    rw [deviceNode, Node.get_set_same]
    exact sound_null

end Calls

section Writes
variable {parse : String → Except String DateTime} {name : String}

def kindOf (name : String) : Option Kind := (schema.find? fun e => e.1 = name).map Prod.snd

theorem kindOf_mem {kind : Kind} (member : (name, kind) ∈ schema) : kindOf name = some kind := by
  have all : ∀ e ∈ schema, kindOf e.1 = some e.2 := by decide
  exact all _ member

theorem known_of_kindOf {kind : Kind} (h : kindOf name = some kind) :
    name ∈ schema.map Prod.fst := by
  obtain ⟨e, found, -⟩ := Option.map_eq_some_iff.mp h
  have same : e.1 = name := by simpa using List.find?_some found
  exact List.mem_map.mpr ⟨e, List.mem_of_find?_eq_some found, same⟩

theorem plain_of_kind {kind : Kind} (h : kindOf name = some kind) (other : kind ≠ .string) :
    name ∉ ["userId", "deviceId", "deviceMac"] ∧ name ≠ "autoPlayTime" := by
  have strings : ∀ n ∈ ["userId", "deviceId", "deviceMac", "autoPlayTime"],
      kindOf n = some .string := by decide
  have apart : name ∉ ["userId", "deviceId", "deviceMac", "autoPlayTime"] := by
    intro member
    rw [strings name member] at h
    exact other (Option.some.inj h).symm
  simp only [List.mem_cons, List.not_mem_nil, or_false, not_or] at apart ⊢
  exact ⟨⟨apart.1, apart.2.1, apart.2.2.1⟩, apart.2.2.2⟩

theorem typed_bool (b : Bool) (h : kindOf name = some .bool) :
    Typed parse (name, Json.bool b) := by
  obtain ⟨plain, ne⟩ := plain_of_kind h (by decide)
  refine ⟨known_of_kindOf h, ?_, plain, fun _ => ⟨b, rfl⟩, fun same => absurd same ne⟩
  intro kind member
  rw [kindOf_mem member, Option.some.injEq] at h
  subst h
  exact ⟨some b, rfl⟩

theorem typed_int (i : Option Int) (h : kindOf name = some .int) :
    Typed parse (name, optionInt i) := by
  obtain ⟨plain, ne⟩ := plain_of_kind h (by decide)
  have flag : name ≠ "autoPlay" := by
    intro same
    rw [same] at h
    exact absurd h (by decide)
  refine ⟨known_of_kindOf h, ?_, plain, fun same => absurd same flag,
    fun same => absurd same ne⟩
  intro kind member
  rw [kindOf_mem member, Option.some.injEq] at h
  subst h
  cases i <;> exact ⟨_, rfl⟩

theorem typed_deviceName (text : Option String) :
    Typed parse ("deviceName", optionStr text) := by
  refine ⟨known_of_kindOf rfl, ?_, by simp, by simp, by simp⟩
  intro kind member
  have same := kindOf_mem member
  cases (Option.some.inj same : Kind.string = kind)
  cases text <;> exact ⟨_, rfl⟩

theorem typed_autoPlayTime (text : String) : Typed parse ("autoPlayTime", Json.str text) := by
  refine ⟨known_of_kindOf rfl, ?_, by simp, by simp, fun _ => ⟨text, rfl⟩⟩
  intro kind member
  have same := kindOf_mem member
  cases (Option.some.inj same : Kind.string = kind)
  exact ⟨_, rfl⟩

end Writes

section Programs
variable {parseTime : String → Except String DateTime} {parse : String → Option TimeOfDay}

/-- A registration is made at a time that the decoder reads back. -/
def Dated (parseTime : String → Except String DateTime) : Operation → Prop
  | .saveShutterDevice _ _ _ now => ∃ t, parseTime now.toIso8601String = .ok t
  | _ => True

theorem typedCall_fields {key : String} {fields : List (String × Json)}
    (typed : ∀ e ∈ fields, Typed parseTime e) :
    TypedCall parseTime (.update ["ShutterDevices", key] fields) := Or.inl ⟨key, rfl, typed⟩

theorem typed_bulk {command : Command} (user : Option String)
    (flags : ∀ e ∈ command.fields, ∃ b, e.2 = Json.bool b)
    (kinds : ∀ e ∈ command.fields, kindOf e.1 = some .bool) :
    Opens (TypedCall parseTime) (fun _ _ => TypedCall parseTime) (bulkCommand command user) := by
  apply opens_bulkCommand trivial user
  intro snapshot device member
  apply typedCall_fields
  intro e written
  obtain ⟨name, value⟩ := e
  obtain ⟨b, same⟩ := flags _ written
  subst same
  exact typed_bool b (kinds _ written)

/-- Every operation writes whole records and typed fields. -/
theorem typed_opens {op : Operation} (dated : Dated parseTime op) :
    Opens (TypedCall parseTime) (fun _ _ => TypedCall parseTime) (program parse op) := by
  cases op with
  | saveShutterDevice form segment userData now =>
    exact opens_saveShutterDevice form segment userData now ⟨form, userData, now, rfl, rfl, dated⟩
  | deleteShutterDevice device shouldDelete =>
    exact opens_deleteShutterDevice device shouldDelete ⟨device.1, rfl⟩
  | updateDevice device status fcrp fauto aparz calender =>
    apply opens_guarded _ (quiet_perform_then (quiet_perform _)) fun _ => quiet_perform _
    apply typedCall_fields
    simp only [List.forall_mem_cons]
    exact ⟨typed_bool _ (by decide), typed_bool _ (by decide), typed_bool _ (by decide),
      typed_bool _ (by decide), typed_bool _ (by decide), by simp⟩
  | toggleDeviceStatus device =>
    apply opens_toggleDeviceStatus device trivial
    intro snapshot b there
    apply typedCall_fields
    simp only [List.forall_mem_cons]
    exact ⟨typed_bool _ (by decide), by simp⟩
  | updateDeviceNewData device sleep o1 o2 o3 c1 c2 c3 name =>
    apply opens_guarded _ (quiet_perform_then (quiet_perform _)) fun _ => quiet_perform _
    apply typedCall_fields
    simp only [List.forall_mem_cons]
    exact ⟨typed_int _ (by decide), typed_int _ (by decide), typed_int _ (by decide),
      typed_int _ (by decide), typed_int _ (by decide), typed_int _ (by decide),
      typed_int _ (by decide), typed_deviceName name, by simp⟩
  | resetAlarm device =>
    apply opens_guarded _ (quiet_perform_then (quiet_perform _)) fun _ => quiet_perform _
    apply typedCall_fields
    simp only [List.forall_mem_cons]
    exact ⟨typed_int (some 1) (by decide), by simp⟩
  | openAll user => exact typed_bulk user (by simp) (by decide)
  | closeAll user => exact typed_bulk user (by simp) (by decide)
  | playAll user => exact typed_bulk user (by simp) (by decide)
  | stopAll user => exact typed_bulk user (by simp) (by decide)
  | openAllAndStop user => exact typed_bulk user (by simp) (by decide)
  | closeAllAndStop user => exact typed_bulk user (by simp) (by decide)
  | calenderON user => exact typed_bulk user (by simp) (by decide)
  | calenderOFF user => exact typed_bulk user (by simp) (by decide)
  | updateAutoPlayStatus user isEnabled =>
    apply opens_updateAutoPlayStatus trivial user isEnabled
    intro snapshot device member
    apply typedCall_fields
    simp only [List.forall_mem_cons]
    exact ⟨typed_bool isEnabled (by decide), by simp⟩
  | loadAutoPlayStatus user => exact opens_loadAutoPlayStatus trivial user
  | updateAutoPlayTime user time =>
    apply opens_updateAutoPlayTime trivial user time
    intro snapshot device member
    apply typedCall_fields
    simp only [List.forall_mem_cons]
    exact ⟨typed_autoPlayTime time, by simp⟩
  | loadAutoPlayTime user => exact opens_loadAutoPlayTime trivial user
  | setupAutoPlayShutters user now =>
    apply opens_setupAutoPlayShutters parse trivial user now
    intro snapshot device member
    apply typedCall_fields
    simp only [openingFields, List.forall_mem_cons]
    exact ⟨typed_bool true (by decide), typed_bool true (by decide), by simp⟩
  | saveSchedule device lang shown rows =>
    exact opens_saveSchedule device lang shown rows (fun day _ => Or.inr ⟨device.1, day, rfl⟩)
      fun _ _ _ day' _ => Or.inr ⟨device.1, day', rfl⟩

theorem keeps_program {op : Operation} (dated : Dated parseTime op) :
    Keeps respond (AllSound parseTime) (program parse op) := by
  apply keeps_of_issues
  apply issues_of_opens (typed_opens dated)
  · exact fun c typed db db' reply all served => allSound_served typed all served
  · exact fun _ _ c _ typed db db' reply all served => allSound_served typed all served

end Programs

section Runs
variable {parseTime : String → Except String DateTime} {parse : String → Option TimeOfDay}

theorem allSound_empty {db : Json} (empty : db.child "ShutterDevices" = Node.null) :
    AllSound parseTime db := by
  intro key
  have gone : deviceNode db key = Node.null := by simp [deviceNode, empty]
  rw [gone]
  exact sound_null

theorem allSound_run {db : Json} (empty : db.child "ShutterDevices" = Node.null)
    {moves : List (Move Operation String)}
    (dated : ∀ op, .start op ∈ moves → Dated parseTime op) {s : System}
    (ran : run (step parse) ⟨db, []⟩ moves = some s) : AllSound parseTime s.store := by
  have along : Along (step parse) (fun _ m => ∀ op, m = .start op → Dated parseTime op)
      ⟨db, []⟩ moves := by
    apply along_of_all
    intro m member u op same
    exact dated op (same ▸ member)
  have kept : AllSound parseTime s.store ∧
      ∀ q ∈ s.clients, Keeps respond (AllSound parseTime) q := by
    refine run_invariant (fun u : System => AllSound parseTime u.store ∧
      ∀ q ∈ u.clients, Keeps respond (AllSound parseTime) q) ?_ ?_ along ran
    · intro u m u' holds started h
      apply stepped_keeps holds.1 holds.2 _ (step_cases h)
      intro op same
      exact keeps_program (started op same)
    · exact ⟨allSound_empty empty, by simp⟩
  exact kept.1

/-- Whatever the interleaving and the failures, from an empty node: the listener reads every
    child, a record with an owner is stored under the id it names, and the scheduler's casts
    pass on every device of every user. -/
theorem reachable_records_readable {db : Json} (empty : db.child "ShutterDevices" = Node.null)
    {moves : List (Move Operation String)}
    (dated : ∀ op, .start op ∈ moves → Dated parseTime op) {s : System}
    (ran : run (step parse) ⟨db, []⟩ moves = some s) :
    Readable parseTime (s.store.child "ShutterDevices") ∧
      (∀ key, (deviceNode s.store key).child "userId" ≠ Node.null →
        (deviceNode s.store key).child "deviceId" = Json.str key ∧
          (deviceNode s.store key).child "deviceMac" = Json.str key ∧
          Passes (deviceNode s.store key)) ∧
      ∀ uid, ∀ shutter ∈ userDevices (some uid) (s.store.child "ShutterDevices"),
        Passes shutter.2 := by
  have all := allSound_run empty dated ran
  refine ⟨?_, fun key => (all key).registered, ?_⟩
  · intro key member
    have there : (s.store.child "ShutterDevices").child key ≠ Node.null := Node.mem_keys.mp member
    exact readable_of_sound (all key) there
  · intro uid shutter member
    obtain ⟨key, device⟩ := shutter
    obtain ⟨stored, -, owned⟩ := mem_userDevices.mp member
    have owner : device.child "userId" ≠ Node.null := by
      intro gone
      simp [ownedBy, gone] at owned
    subst stored
    exact ((all key).registered owner).2.2

/-- The clock text of one registration, read back. -/
def readNoon (text : String) : Except String DateTime :=
  if text = "2025-01-01T12:00:00.000" then .ok noon else .error "FormatException"

theorem registered_salon_readable : ∃ s : System,
    run (step fun _ => none) ⟨Node.null, []⟩
      [.start (.saveShutterDevice salon salon_segment ada noon), .answer 0] = some s ∧
    Readable readNoon (s.store.child "ShutterDevices") ∧
      (∀ key, (deviceNode s.store key).child "userId" ≠ Node.null →
        (deviceNode s.store key).child "deviceId" = Json.str key ∧
          (deviceNode s.store key).child "deviceMac" = Json.str key ∧
          Passes (deviceNode s.store key)) ∧
      ∀ uid, ∀ shutter ∈ userDevices (some uid) (s.store.child "ShutterDevices"),
        Passes shutter.2 := by
  have goes : ∃ s, run (step fun _ => none) ⟨Node.null, []⟩
      [.start (.saveShutterDevice salon salon_segment ada noon), .answer 0] = some s := ⟨_, rfl⟩
  obtain ⟨s, ran⟩ := goes
  refine ⟨s, ran, reachable_records_readable rfl ?_ ran⟩
  intro op member
  simp only [List.mem_cons, Move.start.injEq, reduceCtorEq, List.not_mem_nil, or_false] at member
  subst member
  exact ⟨noon, rfl⟩

end Runs
end RecordTypes
