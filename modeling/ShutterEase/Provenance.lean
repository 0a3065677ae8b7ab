import ShutterEase.DeviceNodes
import ShutterEase.Retries

/-!
Where the stored values come from, over every interleaving and every failure. What is found in a
field of a device was left there by an operation that was started. The fields that only a
registration writes are all of one registration, never of two, and each day of the schedule is
one row of one save, whole.
-/
namespace Provenance
open KeyedTree Resumption Interleaving Runs Firebase FirebasePath ShutterModels AccountDevices
open DeviceController AutoPlayController ScheduleController Registration Operations BulkCommands
open Ownership DeviceNodes Effects Retries

/-- The fields that no operation but a registration writes. -/
def identity : List String :=
  ["deviceId", "deviceMac", "devicePanelOperationPercentage", "wifiPercentage",
    "batteryPercentage", "userName", "userEmail", "userId", "timestamp", "shutterType",
    "priority", "numberOfMotors", "hasDeviceSchedule"]

section Origins
variable (parse : String → Option TimeOfDay)

/-- What an operation may leave in a field of a device. -/
inductive Gives : Operation → String → String → Json → Prop where
  | registered {form : DeviceForm} {segment : IsSegment (newDeviceId form)} {userData : UserData}
      {now : DateTime} (valid : form.validate = true) (field : String) :
      Gives (.saveShutterDevice form segment userData now) (newDeviceId form) field
        ((record form userData now).child field)
  | setting {op : Operation} {key field : String} {value : Json} (given : place op = some key)
      (written : (field, value) ∈ settings op) : Gives op key field value
  | toggled (device : DeviceId) (b : Bool) :
      Gives (.toggleDeviceStatus device) device.1 "shutterIconStatus" (Json.bool b)
  | listed {op : Operation} {q : Query} {field : String} {value : Json}
      (asks : query parse op = some q) (written : (field, value) ∈ q.fields) (key : String) :
      Gives op key field value

/-- The identity of a device is that of one registration that was started, or there is none. -/
def OfOneRegistration (started : Operation → Prop) (key : String) (device : Json) : Prop :=
  (∀ field ∈ identity, device.child field = Node.null) ∨
    ∃ form segment userData now, started (.saveShutterDevice form segment userData now) ∧
      newDeviceId form = key ∧ form.validate = true ∧
      ∀ field ∈ identity, device.child field = (record form userData now).child field

/-- The day's record holds the day and the four times that one save was started with. -/
def OfOneSave (started : Operation → Prop) (key day : String) (stored : Json) : Prop :=
  ∃ device lang shown rows i, started (.saveSchedule device lang shown rows) ∧ device.1 = key ∧
    day = days lang i ∧ ScheduleModel.fromJson stored = .ok (newSchedule day (rows i))

structure Accounted (started : Operation → Prop) (key : String) (device : Json) : Prop where
  written : ∀ field, field ≠ "Schedule" → device.child field ≠ Node.null →
    ∃ op, started op ∧ Gives parse op key field (device.child field)
  weekly : ∀ day, (device.child "Schedule").child day ≠ Node.null →
    OfOneSave started key day ((device.child "Schedule").child day)
  whole : OfOneRegistration started key device

variable {parse} {started : Operation → Prop} {key : String} {device : Json}

theorem accounted_null : Accounted parse started key .null :=
  ⟨fun _ _ there => absurd rfl there, fun _ there => absurd rfl there, Or.inl fun _ _ => rfl⟩

theorem accounted_record {form : DeviceForm} {segment : IsSegment (newDeviceId form)}
    {userData : UserData} {now : DateTime}
    (begun : started (.saveShutterDevice form segment userData now))
    (valid : form.validate = true) :
    Accounted parse started (newDeviceId form) (record form userData now) := by
  refine ⟨fun field _ _ => ⟨_, begun, Gives.registered valid field⟩,
    fun day there => absurd rfl there, Or.inr ?_⟩
  exact ⟨form, segment, userData, now, begun, rfl, valid, fun _ _ => rfl⟩

/-- Where the identity stays, so does its registration. -/
theorem whole_kept {device' : Json} (whole : OfOneRegistration started key device)
    (kept : ∀ field ∈ identity, device'.child field = device.child field) :
    OfOneRegistration started key device' := by
  rcases whole with nothing | ⟨form, segment, userData, now, begun, named, valid, same⟩
  · exact Or.inl fun field member => (kept field member).trans (nothing field member)
  · exact Or.inr ⟨form, segment, userData, now, begun, named, valid,
      fun field member => (kept field member).trans (same field member)⟩

/-- The fields of a device that no bulk command and no single change writes. -/
def kept : List String := "Schedule" :: identity

theorem accounted_merge (accounted : Accounted parse started key device)
    {fields : List (String × Json)} (plain : ∀ field ∈ kept, field ∉ fields.map Prod.fst)
    (given : ∀ e ∈ fields, ∃ op, started op ∧ Gives parse op key e.1 e.2) :
    Accounted parse started key (device.merge fields) := by
  have same : ∀ field ∈ kept, (device.merge fields).child field = device.child field :=
    fun field member => Node.child_merge_other (plain field member) device
  constructor
  · intro field ne there
    rcases Node.child_merge_cases device fields field with ⟨e, member, named, value⟩ | ⟨-, old⟩
    · rw [value, ← named]
      exact given e member
    · rw [old] at there ⊢
      exact accounted.written field ne there
  · rw [same "Schedule" List.mem_cons_self]
    exact accounted.weekly
  · exact whole_kept accounted.whole fun field member => same field (List.mem_cons_of_mem _ member)

theorem accounted_saveDay (accounted : Accounted parse started key device) {saved : DeviceId}
    {lang shown : Language} {rows : Fin 7 → Times}
    (begun : started (.saveSchedule saved lang shown rows)) (named : saved.1 = key) (i : Fin 7) :
    Accounted parse started key (device.update ["Schedule", days lang i]
      (newSchedule (days lang i) (rows i)).toJson) := by
  have other : ∀ field, field ≠ "Schedule" → (device.update ["Schedule", days lang i]
      (newSchedule (days lang i) (rows i)).toJson).child field = device.child field := by
    intro field ne
    rw [Node.update, Node.set_cons, Node.child_setChild_ne ne]
  have below : (device.update ["Schedule", days lang i]
      (newSchedule (days lang i) (rows i)).toJson).child "Schedule" =
        writeRow lang rows (device.child "Schedule") i :=
    Node.get_update_above device ["Schedule"] [days lang i] _
  constructor
  · intro field ne there
    rw [other field ne] at there ⊢
    exact accounted.written field ne there
  · rw [below]
    intro day there
    by_cases here : day = days lang i
    · subst here
      exact ⟨saved, lang, shown, rows, i, begun, named, rfl, child_writeRow_same lang rows _ i⟩
    · rw [child_writeRow_ne here] at there ⊢
      exact accounted.weekly day there
  · refine whole_kept accounted.whole fun field member => other field ?_
    rintro rfl
    exact absurd member (by decide)

end Origins

section Calls
variable {parse : String → Option TimeOfDay} {started : Operation → Prop} {op : Operation}

theorem query_plain {q : Query} (asks : query parse op = some q) :
    ∀ field ∈ kept, field ∉ q.fields.map Prod.fst := by
  cases op with
  | setupAutoPlayShutters user now =>
    cases user with
    | none => simp [query] at asks
    | some uid =>
      cases asks
      simp [openingFields, kept, identity]
  | updateAutoPlayStatus user isEnabled =>
    cases asks
    simp [always, kept, identity]
  | updateAutoPlayTime user time =>
    cases asks
    simp [always, kept, identity]
  | _ => cases asks <;> simp [always, kept, identity, Bulk.fields]

theorem settings_plain (op : Operation) :
    ∀ field ∈ kept, field ∉ (settings op).map Prod.fst := by
  cases op with
  | _ => simp [settings, kept, identity]

/-- Where an operation is given a device and neither registers nor deletes it, a write to the
    device is one that the operation gives. -/
theorem keeps_given {key : String} (begun : started op)
    (fields : List (String × Json)) (plain : ∀ field ∈ kept, field ∉ fields.map Prod.fst)
    (given : ∀ e ∈ fields, Gives parse op key e.1 e.2) :
    KeepsDevices (Accounted parse started) (.update ["ShutterDevices", key] fields) :=
  Or.inl ⟨key, rfl, fun _ accounted =>
    accounted_merge accounted plain fun e member => ⟨op, begun, given e member⟩⟩

theorem issues_accounted (begun : started op) :
    Issues (KeepsDevices (Accounted parse started)) (program parse op) := by
  have opened : ∀ {p : Act Unit}, Opens (KeepsDevices (Accounted parse started))
      (fun _ _ => KeepsDevices (Accounted parse started)) p →
        Issues (KeepsDevices (Accounted parse started)) p :=
    fun opens => issues_of_opens opens (fun _ first => first) fun _ _ _ _ later => later
  have reads : ∀ c, c = Call.get ["ShutterDevices"] →
      KeepsDevices (Accounted parse started) c := fun c first => first ▸ trivial
  have told : ∀ one two : Ui, Quiet (perform one >>= fun _ => perform two : Act Unit) :=
    fun _ _ => quiet_perform_then (quiet_perform _)
  have setting : ∀ {key : String}, place op = some key →
      KeepsDevices (Accounted parse started) (.update ["ShutterDevices", key] (settings op)) :=
    fun named => keeps_given begun _ (settings_plain op) fun _ member => .setting named member
  cases asks : query parse op with
  | some q =>
    refine issues_of_opens (query_opens parse asks) reads ?_
    intro c r c' first listed
    obtain ⟨snapshot, key, -, -, rfl⟩ := listed
    exact keeps_given begun _ (query_plain asks) fun e member => .listed asks member key
  | none =>
    cases op with
    | saveShutterDevice form segment userData now =>
      by_cases valid : form.validate = true
      · exact opened (opens_saveShutterDevice form segment userData now
          ⟨_, rfl, accounted_record begun valid⟩)
      · apply issues_tryCatch (issues_andThen (issues_tell _) fun _ => ?_)
          fun e => issues_andThen (issues_tell _) fun _ => issues_tell _
        simp only [valid, Bool.false_eq_true, ↓reduceIte]
        exact issues_tell _
    | deleteShutterDevice device shouldDelete =>
      exact opened (opens_deleteShutterDevice device shouldDelete ⟨device.1, rfl, accounted_null⟩)
    | updateDevice device =>
      exact opened (opens_guarded (setting rfl) (told _ _) fun _ => quiet_perform _)
    | toggleDeviceStatus device =>
      refine opened (opens_toggleDeviceStatus device trivial fun _ b _ => ?_)
      refine keeps_given begun _ (by simp [kept, identity]) fun e member => ?_
      cases List.mem_singleton.mp member
      exact .toggled device b
    | updateDeviceNewData device =>
      exact opened (opens_guarded (setting rfl) (told _ _) fun _ => quiet_perform _)
    | resetAlarm device =>
      exact opened (opens_guarded (setting rfl) (told _ _) fun _ => quiet_perform _)
    | saveSchedule device lang shown rows =>
      refine issues_saveSchedule fun i => Or.inr ⟨device.1, days lang i, rfl, ?_⟩
      exact fun _ accounted => accounted_saveDay accounted begun rfl i
    | loadAutoPlayStatus user =>
      exact issues_of_opens (reads_opens parse rfl rfl) reads fun _ _ _ _ no => no.elim
    | loadAutoPlayTime user =>
      exact issues_of_opens (reads_opens parse rfl rfl) reads fun _ _ _ _ no => no.elim
    | setupAutoPlayShutters user now =>
      cases user with
      | none => trivial
      | some uid => simp [query] at asks
    | _ => simp [query] at asks

end Calls

section Runs
variable {parse : String → Option TimeOfDay}

theorem accounted_throughout {db : Json} (empty : db.child "ShutterDevices" = Node.null)
    (moves : List (Move Operation String)) :
    Throughout (step parse) (fun s : System =>
      AllDevices (Accounted parse fun op => .start op ∈ moves) s.store) ⟨db, []⟩ moves :=
  allDevices_throughout (allDevices_empty empty fun _ => accounted_null)
    fun _ begun => issues_accounted begun

/-- In every state of every run: each value stored under a device was left there by an operation
    that was started, each stored day is one row of one save, and the device's identity is that
    of one registration. -/
theorem stored_values_written {db : Json} (empty : db.child "ShutterDevices" = Node.null)
    (moves : List (Move Operation String)) :
    Throughout (step parse) (fun s : System => ∀ key,
      (∀ field, field ≠ "Schedule" → (deviceNode s.store key).child field ≠ Node.null →
        ∃ op, .start op ∈ moves ∧ Gives parse op key field ((deviceNode s.store key).child field)) ∧
      (∀ day, ((deviceNode s.store key).child "Schedule").child day ≠ Node.null →
        OfOneSave (fun op => .start op ∈ moves) key day
          (((deviceNode s.store key).child "Schedule").child day)) ∧
      OfOneRegistration (fun op => .start op ∈ moves) key (deviceNode s.store key))
      ⟨db, []⟩ moves :=
  throughout_mono (fun _ all key => ⟨(all key).written, (all key).weekly, (all key).whole⟩)
    (accounted_throughout empty moves)

/-- Two users register one device at a time, and the first opens all shutters meanwhile. -/
def registeredByTwo : List (Move Operation String) :=
  [.start (.saveShutterDevice salon salon_segment ada noon), .answer 0,
    .start (.openAll (some "uid-1")), .answer 1,
    .start (.saveShutterDevice salon salon_segment bob noon), .answer 2, .answer 1]

theorem registered_by_two_written : Throughout (step fun _ => none) (fun s : System => ∀ key,
    (∀ field, field ≠ "Schedule" → (deviceNode s.store key).child field ≠ Node.null →
      ∃ op, .start op ∈ registeredByTwo ∧
        Gives (fun _ => none) op key field ((deviceNode s.store key).child field)) ∧
    (∀ day, ((deviceNode s.store key).child "Schedule").child day ≠ Node.null →
      OfOneSave (fun op => .start op ∈ registeredByTwo) key day
        (((deviceNode s.store key).child "Schedule").child day)) ∧
    OfOneRegistration (fun op => .start op ∈ registeredByTwo) key (deviceNode s.store key))
    ⟨Node.null, []⟩ registeredByTwo :=
  stored_values_written rfl registeredByTwo

end Runs
end Provenance
