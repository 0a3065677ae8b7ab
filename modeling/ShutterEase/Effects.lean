import ShutterEase.BulkCommands
import ShutterEase.Deletion

/-!
What an operation writes, said once for all of them. It either asks for the user's devices and
writes the same fields to each that is due, or it is given one device and writes to that one.
Run to its end with nobody else writing, it changes every device's record by itself.
-/
namespace Effects
open KeyedTree Resumption Interleaving Firebase FirebasePath ShutterModels AccountDevices
open DeviceController CommandsController AutoPlayController ScheduleController Registration
open Operations Ownership BulkCommands

structure Query where
  user : Option String
  due : Json → Bool
  fields : List (String × Json)

/-- The query returns the device, and the loop writes to it. -/
def Query.picks (q : Query) (device : Json) : Bool :=
  !device.isNull && ownedBy q.user device && q.due device

section Shapes
variable (parse : String → Option TimeOfDay)

/-- The scheduler's test of one device. A record that a cast refuses is not due. -/
def isDue (now : TimeOfDay) (shutter : Json) : Bool :=
  match asBool (shutter.child "autoPlay"), asString (shutter.child "autoPlayTime") with
  | .ok autoPlayEnabled, .ok autoPlayTime => opensAt parse now autoPlayEnabled autoPlayTime
  | _, _ => false

def always (user : Option String) (fields : List (String × Json)) : Query :=
  ⟨user, fun _ => true, fields⟩

/-- The query an operation makes, when it writes to what it returns. -/
def query : Operation → Option Query
  | .openAll user => some (always user Bulk.openAll.fields)
  | .closeAll user => some (always user Bulk.closeAll.fields)
  | .playAll user => some (always user Bulk.playAll.fields)
  | .stopAll user => some (always user Bulk.stopAll.fields)
  | .openAllAndStop user => some (always user Bulk.openAllAndStop.fields)
  | .closeAllAndStop user => some (always user Bulk.closeAllAndStop.fields)
  | .calenderON user => some (always user Bulk.calenderON.fields)
  | .calenderOFF user => some (always user Bulk.calenderOFF.fields)
  | .updateAutoPlayStatus user isEnabled => some (always user [("autoPlay", Json.bool isEnabled)])
  | .updateAutoPlayTime user time => some (always user [("autoPlayTime", Json.str time)])
  | .setupAutoPlayShutters (some uid) now => some ⟨some uid, isDue parse now, openingFields⟩
  | _ => none

/-- The device an operation is given, when it writes to it. -/
def place : Operation → Option String
  | .saveShutterDevice form _ _ _ => some (newDeviceId form)
  | .deleteShutterDevice device _ => some device.1
  | .updateDevice device _ _ _ _ _ => some device.1
  | .toggleDeviceStatus device => some device.1
  | .updateDeviceNewData device _ _ _ _ _ _ _ _ => some device.1
  | .resetAlarm device => some device.1
  | .saveSchedule device _ _ _ => some device.1
  | _ => none

/-- The fields that `updateDevice`, `updateDeviceNewData` and `resetAlarm` write. -/
def settings : Operation → List (String × Json)
  | .updateDevice _ newStatus newFcrp newFauto newaParz newcalenderStatus =>
    [("deviceStatus", Json.bool newStatus), ("fCrep", Json.bool newFcrp),
      ("fAuto", Json.bool newFauto), ("aParz", Json.bool newaParz),
      ("calenderStatus", Json.bool newcalenderStatus)]
  | .updateDeviceNewData _ sleepTime openingEffort1 openingEffort2 openingEffort3 closingEffort1
      closingEffort2 closingEffort3 deviceNames =>
    [("sleepTime", optionInt sleepTime), ("openingEffort1", optionInt openingEffort1),
      ("openingEffort2", optionInt openingEffort2), ("openingEffort3", optionInt openingEffort3),
      ("closingEffort1", optionInt closingEffort1), ("closingEffort2", optionInt closingEffort2),
      ("closingEffort3", optionInt closingEffort3), ("deviceName", optionStr deviceNames)]
  | .resetAlarm _ => [("alarmResetButton", Json.int 1)]
  | _ => []

/-- The icon's flag of a record that a toggle reads, negated; an absent one counts as false. -/
def toggled (device : Json) : Json :=
  match asMap device with
  | .ok deviceData =>
    match asBool? (deviceData.child "shutterIconStatus") with
    | .ok stored => device.merge [("shutterIconStatus", Json.bool (!stored.getD false))]
    | .error _ => device
  | .error _ => device

def dayRecords (lang : Language) (rows : Fin 7 → Times) (l : List (Fin 7)) :
    List (List String × List (String × Json)) :=
  l.map fun i => (["Schedule", days lang i], (newSchedule (days lang i) (rows i)).toJson)

/-- What is stored under the device that an operation is given, once it has ended. -/
def rewritten : Operation → Json → Json
  | .saveShutterDevice form _ userData now, device =>
    if form.validate then record form userData now else device
  | .deleteShutterDevice _ shouldDelete, device =>
    if shouldDelete = some true then .null else device
  | .toggleDeviceStatus _, device => toggled device
  | .saveSchedule _ lang _ rows, device =>
    device.updateAll (dayRecords lang rows (List.finRange 7))
  | op, device => device.merge (settings op)

def effect (op : Operation) (key : String) (device : Json) : Json :=
  match query parse op with
  | some q => if q.picks device then device.merge q.fields else device
  | none => if place op = some key then rewritten op device else device

end Shapes

section Calls
variable (parse : String → Option TimeOfDay)

/-- A write to a device that the snapshot showed, that the query returned and that was due. -/
def Listed (q : Query) (_ : DbCall) (r : Except String Json) (c : DbCall) : Prop :=
  ∃ snapshot key, r = .ok snapshot ∧ q.picks (snapshot.child key) = true ∧
    c = .update ["ShutterDevices", key] q.fields

/-- What an operation may write to a field of its device, when it is given one. -/
def Writes : Operation → String → Json → Prop
  | .saveShutterDevice _ _ _ _, _, _ | .deleteShutterDevice _ _, _, _ => True
  | .toggleDeviceStatus _, field, value => field = "shutterIconStatus" ∧ ∃ b, value = Json.bool b
  | .saveSchedule _ _ _ _, field, _ => field = "Schedule"
  | op, field, value => (field, value) ∈ settings op

/-- A read, or a write at or below one device that writes only what `allowed` says. -/
def At (key : String) (allowed : String → Json → Prop) : DbCall → Prop
  | .get _ => True
  | .set path _ | .remove path => path = ["ShutterDevices", key] ∧ ∀ field value, allowed field value
  | .update path fields =>
    path = ["ShutterDevices", key] ∧ (∀ e ∈ fields, allowed e.1 e.2) ∨
      ∃ day, path = ["ShutterDevices", key, "Schedule", day] ∧ ∀ value, allowed "Schedule" value

theorem picks_listed {q : Query} {snapshot : Json} {device : String × Json}
    (member : device ∈ userDevices q.user snapshot) (due : q.due device.2 = true) :
    Listed q (.get ["ShutterDevices"]) (.ok snapshot)
      (.update ["ShutterDevices", device.1] q.fields) := by
  obtain ⟨key, stored⟩ := device
  obtain ⟨same, there, owned⟩ := mem_userDevices.mp member
  have present : stored.isNull = false := by
    cases empty : stored.isNull with
    | false => rfl
    | true => exact absurd (Node.isNull_iff.mp empty) there
  refine ⟨snapshot, key, rfl, ?_, rfl⟩
  simp only [same, Query.picks, present, owned, due, Bool.not_false, Bool.and_self]

/-- The scheduler's loop writes to devices that are due, and to no other. -/
theorem issues_playEach_due {P : DbCall → Prop} {now : TimeOfDay}
    {shutters : List (String × Json)} (each : ∀ shutter ∈ shutters,
      isDue parse now shutter.2 = true → P (.update ["ShutterDevices", shutter.1] openingFields)) :
    Issues P (playEach parse now shutters) := by
  induction shutters with
  | nil => trivial
  | cons shutter rest ih =>
    have later := ih fun s member => each s (by simp [member])
    have here := each shutter (by simp)
    unfold playEach
    cases flag : asBool (shutter.2.child "autoPlay") with
    | error e => exact issues_throw e
    | ok autoPlayEnabled =>
      rw [Action.lift_ok_bind]
      cases time : asString (shutter.2.child "autoPlayTime") with
      | error e => exact issues_throw e
      | ok autoPlayTime =>
        rw [Action.lift_ok_bind]
        by_cases opens : opensAt parse now autoPlayEnabled autoPlayTime = true
        · simp only [opens, ↓reduceIte]
          have due : isDue parse now shutter.2 = true := by
            simp only [isDue, flag, time, opens]
          apply issues_andThen
          · exact issues_tryCatch (issues_update (here due)) fun e => issues_tell _
          · exact fun _ => later
        · simp only [opens, Bool.false_eq_true, ↓reduceIte]
          exact later

/-- An operation with a query reads once, and then writes to what the query picked. -/
theorem query_opens {op : Operation} {q : Query} (asks : query parse op = some q) :
    Opens (· = .get ["ShutterDevices"]) (Listed q) (program parse op) := by
  have bulk : ∀ (c : Bulk) (user : Option String),
      Opens (· = .get ["ShutterDevices"]) (Listed (always user c.fields)) (c.program user) := by
    intro c user
    obtain ⟨command, same, fields⟩ := bulk_command c
    rw [same, ← fields]
    exact opens_bulkCommand rfl user fun _ _ member => picks_listed member rfl
  cases op with
  | updateAutoPlayStatus user isEnabled =>
    simp only [query, Option.some.injEq] at asks
    subst asks
    exact opens_updateAutoPlayStatus rfl user isEnabled fun _ _ member => picks_listed member rfl
  | updateAutoPlayTime user time =>
    simp only [query, Option.some.injEq] at asks
    subst asks
    exact opens_updateAutoPlayTime rfl user time fun _ _ member => picks_listed member rfl
  | setupAutoPlayShutters user now =>
    cases user with
    | none => simp [query] at asks
    | some uid =>
      simp only [query, Option.some.injEq] at asks
      subst asks
      apply opens_get_then rfl
      intro snapshot
      exact issues_playEach_due parse fun _ member due => picks_listed member due
  | openAll user => exact Option.some.inj asks ▸ bulk .openAll user
  | closeAll user => exact Option.some.inj asks ▸ bulk .closeAll user
  | playAll user => exact Option.some.inj asks ▸ bulk .playAll user
  | stopAll user => exact Option.some.inj asks ▸ bulk .stopAll user
  | openAllAndStop user => exact Option.some.inj asks ▸ bulk .openAllAndStop user
  | closeAllAndStop user => exact Option.some.inj asks ▸ bulk .closeAllAndStop user
  | calenderON user => exact Option.some.inj asks ▸ bulk .calenderON user
  | calenderOFF user => exact Option.some.inj asks ▸ bulk .calenderOFF user
  | _ => simp [query] at asks

/-- An operation that is given a device writes its own fields of that one. -/
theorem place_opens {op : Operation} {key : String} (named : place op = some key) :
    Opens (At key (Writes op)) (fun _ _ => At key (Writes op)) (program parse op) := by
  have told : ∀ one two : Ui, Quiet (perform one >>= fun _ => perform two : Act Unit) :=
    fun _ _ => quiet_perform_then (quiet_perform _)
  cases op with
  | saveShutterDevice form segment userData now =>
    cases named
    exact opens_saveShutterDevice form segment userData now ⟨rfl, fun _ _ => trivial⟩
  | deleteShutterDevice device shouldDelete =>
    cases named
    exact opens_deleteShutterDevice device shouldDelete ⟨rfl, fun _ _ => trivial⟩
  | updateDevice device =>
    cases named
    exact opens_guarded (Or.inl ⟨rfl, by simp [Writes, settings]⟩) (told _ _) fun _ => quiet_perform _
  | toggleDeviceStatus device =>
    cases named
    exact opens_toggleDeviceStatus device trivial fun _ b _ =>
      Or.inl ⟨rfl, List.forall_mem_singleton.mpr ⟨rfl, b, rfl⟩⟩
  | updateDeviceNewData device =>
    cases named
    exact opens_guarded (Or.inl ⟨rfl, by simp [Writes, settings]⟩) (told _ _) fun _ => quiet_perform _
  | resetAlarm device =>
    cases named
    exact opens_guarded (Or.inl ⟨rfl, by simp [Writes, settings]⟩) (told _ _) fun _ => quiet_perform _
  | saveSchedule device lang shown rows =>
    cases named
    exact opens_saveSchedule device lang shown rows (fun day _ => Or.inr ⟨day, rfl, fun _ => rfl⟩)
      fun _ _ _ day _ => Or.inr ⟨day, rfl, fun _ => rfl⟩
  | _ => simp [place] at named

/-- The other operations only read. -/
theorem reads_opens {op : Operation} (asks : query parse op = none) (named : place op = none) :
    Opens (· = .get ["ShutterDevices"]) (fun _ _ _ => False) (program parse op) := by
  cases op with
  | loadAutoPlayStatus user =>
    exact opens_loadAutoPlayStatus (F := (· = .get ["ShutterDevices"])) rfl user
  | loadAutoPlayTime user =>
    exact opens_loadAutoPlayTime (F := (· = .get ["ShutterDevices"])) rfl user
  | setupAutoPlayShutters user now =>
    cases user with
    | none => trivial
    | some uid => simp [query] at asks
  | _ => simp [query, place] at asks named

theorem query_distinct {op : Operation} {q : Query}
    (asks : query parse op = some q) :
    (q.fields.map Prod.fst).Nodup ∧ "userId" ∉ q.fields.map Prod.fst := by
  cases op with
  | setupAutoPlayShutters user now =>
    cases user with
    | none => simp [query] at asks
    | some uid =>
      cases asks
      simp [openingFields]
  | _ => cases asks <;> simp [always, Bulk.fields]

end Calls

section Alone
variable {parse : String → Option TimeOfDay} {op : Operation} {db : Json}

/-- Where the operation is the scheduler's, its casts pass on every device of its user. -/
def Evaluable (op : Operation) (db : Json) : Prop :=
  ∀ uid now, op = .setupAutoPlayShutters (some uid) now →
    ∀ shutter ∈ userDevices (some uid) (db.child "ShutterDevices"), Passes shutter.2

theorem opened_of_passes (parse : String → Option TimeOfDay) (now : TimeOfDay)
    {shutters : List (String × Json)}
    (passes : ∀ shutter ∈ shutters, Passes shutter.2) :
    opened parse now shutters =
      (shutters.filter fun shutter => isDue parse now shutter.2).map Prod.fst := by
  induction shutters with
  | nil => rfl
  | cons shutter rest ih =>
    obtain ⟨⟨enabled, flag⟩, time, text⟩ := passes shutter (by simp)
    have later := ih fun s member => passes s (by simp [member])
    have due : isDue parse now shutter.2 = opensAt parse now enabled time := by
      simp only [isDue, flag, text, asBool, asString, Json.bool, Json.str]
    simp only [opened, flag, text, asBool, asString, Json.bool, Json.str, List.filter_cons, due,
      later]
    split <;> rfl

/-- The keys that the loop of a query writes to. -/
def Query.keys (q : Query) (shutterDevices : Json) : List String :=
  ((userDevices q.user shutterDevices).filter fun device => q.due device.2).map Prod.fst

theorem keys_always (user : Option String) (fields : List (String × Json)) (shutterDevices : Json) :
    (always user fields).keys shutterDevices = (userDevices user shutterDevices).map Prod.fst := by
  simp [Query.keys, always]

theorem mem_keys {q : Query} {shutterDevices : Json} {key : String} :
    key ∈ q.keys shutterDevices ↔ q.picks (shutterDevices.child key) = true := by
  have present : ∀ device : Json, device ≠ Node.null ↔ device.isNull = false := by
    intro device
    rw [ne_eq, ← Node.isNull_iff, Bool.not_eq_true]
  constructor
  · intro member
    obtain ⟨⟨k, device⟩, found, rfl⟩ := List.mem_map.mp member
    obtain ⟨listed, due⟩ := List.mem_filter.mp found
    obtain ⟨rfl, there, owned⟩ := mem_userDevices.mp listed
    simp only [Query.picks, (present _).mp there, owned, due, Bool.not_false, Bool.and_self]
  · intro picked
    simp only [Query.picks, Bool.and_eq_true, Bool.not_eq_true'] at picked
    obtain ⟨⟨there, owned⟩, due⟩ := picked
    refine List.mem_map.mpr ⟨(key, shutterDevices.child key), ?_, rfl⟩
    exact List.mem_filter.mpr ⟨mem_userDevices.mpr ⟨rfl, (present _).mpr there, owned⟩, due⟩

theorem keys_nodup (q : Query) (shutterDevices : Json) : (q.keys shutterDevices).Nodup :=
  (userDevices_keys_nodup q.user shutterDevices).sublist (List.filter_sublist.map Prod.fst)

theorem alone_query {q : Query} (asks : query parse op = some q) (evaluable : Evaluable op db) :
    (alone (program parse op) db).1 =
      writeEach q.fields (q.keys (db.child "ShutterDevices")) db := by
  have bulk : ∀ (c : Bulk) (user : Option String), (alone (c.program user) db).1 =
      writeEach c.fields ((always user c.fields).keys (db.child "ShutterDevices")) db := by
    intro c user
    obtain ⟨command, same, fields⟩ := bulk_command c
    rw [same, ← fields, alone_bulkCommand, keys_always]
  cases op with
  | updateAutoPlayStatus user isEnabled =>
    simp only [query, Option.some.injEq] at asks
    subst asks
    rw [keys_always]
    exact alone_updateAutoPlayStatus user isEnabled db
  | updateAutoPlayTime user time =>
    simp only [query, Option.some.injEq] at asks
    subst asks
    rw [keys_always]
    exact alone_updateAutoPlayTime user time db
  | setupAutoPlayShutters user now =>
    cases user with
    | none => simp [query] at asks
    | some uid =>
      simp only [query, Option.some.injEq] at asks
      subst asks
      have passed := opened_of_passes parse now (evaluable uid now rfl)
      simp only [Query.keys, ← passed]
      exact alone_setupAutoPlayShutters parse uid now db
  | openAll user => exact Option.some.inj asks ▸ bulk .openAll user
  | closeAll user => exact Option.some.inj asks ▸ bulk .closeAll user
  | playAll user => exact Option.some.inj asks ▸ bulk .playAll user
  | stopAll user => exact Option.some.inj asks ▸ bulk .stopAll user
  | openAllAndStop user => exact Option.some.inj asks ▸ bulk .openAllAndStop user
  | closeAllAndStop user => exact Option.some.inj asks ▸ bulk .closeAllAndStop user
  | calenderON user => exact Option.some.inj asks ▸ bulk .calenderON user
  | calenderOFF user => exact Option.some.inj asks ▸ bulk .calenderOFF user
  | _ => simp [query] at asks

theorem get_alone_saveDays (above : List String) (lang : Language) (rows : Fin 7 → Times)
    (l : List (Fin 7)) (db : Json) :
    (alone (saveDays (above ++ ["Schedule"]) lang rows l) db).1.get above =
      (db.get above).updateAll (dayRecords lang rows l) := by
  induction l generalizing db with
  | nil => rfl
  | cons i rest ih =>
    let fields := (newSchedule (days lang i) (rows i)).toJson
    have next : alone (saveDays (above ++ ["Schedule"]) lang rows (i :: rest)) db =
        alone (saveDays (above ++ ["Schedule"]) lang rows rest)
          (db.update (above ++ ["Schedule"] ++ [days lang i]) fields) := by
      have written := alone_update (above ++ ["Schedule"] ++ [days lang i]) fields db
      simp only [alone] at written ⊢
      simp only [saveDays, Action.exec_bind]
      rw [written]
    rw [next, ih, List.append_assoc, Node.get_update_above]
    rfl

theorem alone_saveSchedule_state {deviceId : String} (segment : IsSegment deviceId)
    (lang shown : Language) (rows : Fin 7 → Times) (db : Json) :
    (alone (saveSchedule deviceId lang shown rows) db).1 =
      (alone (saveDays ["ShutterDevices", deviceId, "Schedule"] lang rows (List.finRange 7)) db).1 := by
  have ended := (alone_saveDays ["ShutterDevices", deviceId, "Schedule"] lang rows
    (List.finRange 7) db).1
  simp only [alone, saveSchedule, ref, perform, Action.exec_bind, Action.exec_lift,
    ref_schedulePath segment, Action.exec_tell, Action.exec_tryCatch] at ended ⊢
  generalize Action.exec respond (saveDays _ lang rows _) db = out at ended ⊢
  obtain ⟨db', result⟩ := out
  subst ended
  rfl

/-- What the operation leaves under the device that it is given. -/
theorem deviceNode_placed {key : String} (named : place op = some key) :
    deviceNode (alone (program parse op) db).1 key = rewritten op (deviceNode db key) := by
  have guarded : ∀ {device : DeviceId} {fields : List (String × Json)} {shown : Act Unit}
      {handle : String → Act Unit}, (∀ db, alone shown db = (db, .ok ())) →
      deviceNode (alone (Action.tryCatch (do
        let deviceRef ← ref (devicePath device.1)
        update deviceRef fields
        shown) handle) db).1 device.1 = (deviceNode db device.1).merge fields := by
    intro device fields shown handle told
    have written := alone_update ["ShutterDevices", device.1] fields db
    have after := told (db.update ["ShutterDevices", device.1] fields)
    simp only [alone] at written after ⊢
    simp only [ref, ref_segment device.2, Action.exec_tryCatch, Action.exec_bind, Action.exec_lift,
      written, after]
    exact Node.get_update_same db _ fields
  cases op with
  | saveShutterDevice form segment userData now =>
    cases named
    have plain := pieces_segment segment.1 segment.2.1
    have path := segment.2.2
    simp only [program, alone_saveShutterDevice, path, and_true, plain, rewritten]
    split
    · exact Node.get_set_same db _ _
    · rfl
  | deleteShutterDevice device shouldDelete =>
    cases named
    have plain := pieces_segment device.2.1 device.2.2.1
    have path := device.2.2.2
    simp only [program, alone_deleteShutterDevice, path, and_true, plain, rewritten]
    split
    · exact Node.get_set_same db _ _
    · rfl
  | updateDevice device => cases named; exact guarded fun _ => rfl
  | toggleDeviceStatus device =>
    cases named
    have read := alone_get ["ShutterDevices", device.1] db
    have written := fun fields => alone_update ["ShutterDevices", device.1] fields db
    have stored : deviceNode db device.1 = db.get ["ShutterDevices", device.1] := rfl
    simp only [alone] at read written ⊢
    simp only [program, DeviceController.toggleDeviceStatus, ref, ref_segment device.2,
      Action.exec_bind, Action.exec_lift, read, rewritten, ← stored]
    cases here : (deviceNode db device.1).isNull with
    | true =>
      rw [Node.isNull_iff] at here
      simp only [here, toggled]
      exact here
    | false =>
      simp only [toggled, Bool.false_eq_true, ↓reduceIte]
      cases asMap (deviceNode db device.1) with
      | error e => rfl
      | ok deviceData =>
        simp only [Action.exec_bind, Action.exec_lift]
        cases asBool? (deviceData.child "shutterIconStatus") with
        | error e => rfl
        | ok flag =>
          simp only [Action.exec_tryCatch, Action.exec_bind, written, perform, Action.exec_tell]
          exact Node.get_update_same db _ _
  | updateDeviceNewData device => cases named; exact guarded fun _ => rfl
  | resetAlarm device => cases named; exact guarded fun _ => rfl
  | saveSchedule device lang shown rows =>
    cases named
    rw [program, alone_saveSchedule_state device.2]
    exact get_alone_saveDays ["ShutterDevices", device.1] lang rows (List.finRange 7) db
  | _ => simp [place] at named

/-- A call at one device leaves the records of the others. -/
theorem deviceNode_at {key other : String} (ne : key ≠ other) {allowed : String → Json → Prop}
    {c : DbCall} (here : At other allowed c) {db db' reply : Json} (served : respond c db = .ok (db', reply)) :
    deviceNode db' key = deviceNode db key := by
  cases c with
  | get path =>
    simp only [respond, serve, Except.ok.injEq, Prod.mk.injEq] at served
    rw [served.1]
  | set path value =>
    simp only [respond, serve, Except.ok.injEq, Prod.mk.injEq] at served
    obtain ⟨rfl, -⟩ := (here : path = _ ∧ _)
    rw [← served.1]
    exact deviceNode_set_ne ne db value []
  | update path fields =>
    simp only [respond, serve, Except.ok.injEq, Prod.mk.injEq] at served
    rw [← served.1]
    rcases here with ⟨rfl, -⟩ | ⟨day, rfl, -⟩
    · exact deviceNode_set_ne ne db _ []
    · exact deviceNode_set_ne ne db _ ["Schedule", day]
  | remove path =>
    simp only [respond, serve, Except.ok.injEq, Prod.mk.injEq] at served
    obtain ⟨rfl, -⟩ := (here : path = _ ∧ _)
    rw [← served.1]
    exact deviceNode_set_ne ne db _ []

theorem deviceNode_placed_ne {key other : String} (named : place op = some other)
    (ne : key ≠ other) : deviceNode (alone (program parse op) db).1 key = deviceNode db key := by
  have keeps : Keeps respond (fun t => deviceNode t key = deviceNode db key) (program parse op) := by
    apply keeps_of_issues
    apply issues_of_opens (place_opens parse named)
    · exact fun c here t t' r same served => (deviceNode_at ne here served).trans same
    · exact fun _ _ c _ here t t' r same served => (deviceNode_at ne here served).trans same
  exact keeps_run keeps rfl

theorem alone_reads (asks : query parse op = none) (named : place op = none) :
    (alone (program parse op) db).1 = db := by
  have keeps : Keeps respond (fun t => t = db) (program parse op) := by
    apply keeps_of_issues
    apply issues_of_opens (reads_opens parse asks named)
    · intro c first t t' r same served
      subst first
      simp only [respond, serve, Except.ok.injEq, Prod.mk.injEq] at served
      exact served.1.symm.trans same
    · exact fun _ _ _ _ no => no.elim
  exact keeps_run keeps rfl

/-- An operation alone gives every device the record that its effect computes from the old one. -/
theorem deviceNode_alone (evaluable : Evaluable op db) (key : String) :
    deviceNode (alone (program parse op) db).1 key = effect parse op key (deviceNode db key) := by
  cases asks : query parse op with
  | some q =>
    have nodup := keys_nodup q (db.child "ShutterDevices")
    have written := get_writeEach q.fields nodup key db
    simp only [mem_keys] at written
    rw [alone_query asks evaluable]
    simp only [effect, asks]
    exact written
  | none =>
    simp only [effect, asks]
    cases named : place op with
    | none =>
      simp only [reduceCtorEq, ↓reduceIte]
      rw [alone_reads asks named]
    | some other =>
      by_cases same : other = key
      · subst same
        simp only [↓reduceIte]
        exact deviceNode_placed named
      · simp only [Option.some.injEq, same, ↓reduceIte]
        exact deviceNode_placed_ne named (Ne.symm same)

end Alone
end Effects
