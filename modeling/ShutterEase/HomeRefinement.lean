import ShutterEase.Home
import ShutterEase.Retries

/-!
The database refines the home. Each operation run to its end does to the records what its command
does to the shutters they stand for, so a whole sequence of operations from an empty node leaves
the home that the sequence of commands leaves.
-/
namespace HomeRefinement
open KeyedTree Resumption Interleaving Firebase FirebasePath ShutterModels AccountDevices
open DeviceController AutoPlayController ScheduleController Registration Operations Ownership
open BulkCommands Effects RecordTypes Retries Home

section OneRecord
variable {parse : String → Option TimeOfDay} {parseTime : String → Except String DateTime}
  {key : String} {device : Json}

theorem owner_iff {owner : String} :
    ownedBy (some owner) device = true ↔ ∃ s, shutter device = some s ∧ s.owner = owner := by
  simp only [ownedBy, decide_eq_true_eq, shutter, owner?]
  constructor
  · intro own
    simp only [own, Option.map_some, Option.some.injEq, exists_eq_left']
  · intro there
    obtain ⟨s, stored, same⟩ := there
    cases held : (device.child "userId").value? with
    | none => simp [held] at stored
    | some v =>
      cases v with
      | str o =>
        simp only [held, Option.map_some, Option.some.injEq] at stored
        subst stored
        exact congrArg (fun o => some (Value.str o)) same
      | bool b => simp [held] at stored
      | int i => simp [held] at stored

theorem present_of_shutter {s : Shutter} (stands : shutter device = some s) :
    device.isNull = false := by
  cases empty : device.isNull with
  | false => rfl
  | true =>
    rw [Node.isNull_iff.mp empty] at stands
    simp [shutter, owner?] at stands

/-- Records that nobody owns stand for no shutter. -/
theorem shutter_unowned (nobody : ownedBy none device = true) : shutter device = none := by
  simp only [ownedBy, Node.isNull_iff] at nobody
  simp [shutter, owner?, nobody]

/-- A query that picks by owner and by a test edits the shutters of this owner that pass it. -/
theorem query_refines {q : Query} {edits : List Edit} {owner : String} {due : Shutter → Bool}
    (user : q.user = some owner) (fields : q.fields = edits.map fieldOf)
    (test : ∀ s, shutter device = some s → q.due device = due s) :
    shutter (if q.picks device = true then device.merge q.fields else device) =
      (Command.each owner due edits).act key (shutter device) := by
  simp only [Command.act]
  cases stands : shutter device with
  | none =>
    have foreign : q.picks device = false := by
      cases picked : q.picks device with
      | false => rfl
      | true =>
        simp only [Query.picks, user, Bool.and_eq_true] at picked
        obtain ⟨s, stored, -⟩ := owner_iff.mp picked.1.2
        simp [stands] at stored
    simp [foreign, stands]
  | some s =>
    have own : ownedBy (some owner) device = decide (s.owner = owner) := by
      rw [Bool.eq_iff_iff, owner_iff]
      simp [stands]
    have picks : q.picks device = (decide (s.owner = owner) && due s) := by
      simp only [Query.picks, user, own, test s stands, present_of_shutter stands, Bool.not_false,
        Bool.true_and]
    rw [picks, Option.map_some]
    split
    · rw [fields, shutter_merge, stands, Option.map_some]
    · exact stands

theorem nobody_refines {q : Query} {edits : List Edit} (user : q.user = none)
    (fields : q.fields = edits.map fieldOf) :
    shutter (if q.picks device = true then device.merge q.fields else device) = shutter device := by
  split
  · rename_i picked
    simp only [Query.picks, user, Bool.and_eq_true] at picked
    have none := shutter_unowned picked.1.2
    rw [fields, shutter_merge, none]
    rfl
  · rfl

theorem everyOf_refines (user : Option String) (edits : List Edit) :
    shutter (if (always user (edits.map fieldOf)).picks device = true
      then device.merge (edits.map fieldOf) else device) =
        (everyOf user edits).act key (shutter device) := by
  cases user with
  | none => exact nobody_refines (q := always none (edits.map fieldOf)) rfl rfl
  | some owner =>
    exact query_refines (q := always (some owner) (edits.map fieldOf)) rfl rfl fun _ _ => rfl

theorem settings_of {s : Shutter} (stands : shutter device = some s) (f : Field) :
    s.settings f = (device.child f.name).value? := by
  simp only [shutter, Option.map_eq_some_iff] at stands
  obtain ⟨owner, -, rfl⟩ := stands
  rfl

/-- The scheduler's test on a record is the shutter's. -/
theorem isDue_eq {now : TimeOfDay} {s : Shutter} (stands : shutter device = some s) :
    isDue parse now device = s.dueAt parse now := by
  simp only [isDue, Shutter.dueAt, settings_of stands, Field.name]
  cases device.child "autoPlay" with
  | branch cs => rfl
  | leaf v =>
    cases v with
    | int i => rfl
    | str t => rfl
    | bool enabled =>
      cases device.child "autoPlayTime" with
      | branch cs => rfl
      | leaf w => cases w <;> rfl

/-- The toggle's casts do not fail on a sound record. -/
theorem toggled_refines (sound : Sound parseTime key device) :
    shutter (toggled device) = (shutter device).map Shutter.flip := by
  by_cases empty : device = Node.null
  · rw [empty]
    rfl
  have fits : ∃ b, asBool? (device.child "shutterIconStatus") = .ok b :=
    sound.fits ("shutterIconStatus", .bool) (by decide)
  obtain ⟨stored, cast⟩ := fits
  have flag : (stored.getD false) =
      decide ((device.child "shutterIconStatus").value? = some (.bool true)) := by
    cases held : device.child "shutterIconStatus" with
    | leaf v =>
      rw [held] at cast
      cases v with
      | bool b =>
        simp only [asBool?, Except.ok.injEq] at cast
        subst cast
        cases b <;> simp [Node.value?]
      | int i => simp [asBool?] at cast
      | str t => simp [asBool?] at cast
    | branch cs =>
      rw [held] at cast
      cases cs with
      | nil =>
        simp only [asBool?, Except.ok.injEq] at cast
        subst cast
        simp [Node.value?]
      | cons f fs => simp [asBool?] at cast
  obtain ⟨deviceData, map⟩ := (readable_of_sound sound empty).1
  rw [asMap_eq map] at map
  simp only [toggled, map, cast]
  have written := shutter_merge [(.shutterIconStatus, some (.bool !(stored.getD false)))] device
  refine Eq.trans written ?_
  cases stands : shutter device with
  | none => rfl
  | some s =>
    have icon : s.settings .shutterIconStatus = _ := settings_of stands .shutterIconStatus
    rw [Option.map_some, Option.map_some, Shutter.flip, icon, flag]
    rfl

theorem schedule_updateAll (lang : Language) (rows : Fin 7 → Times) (l : List (Fin 7))
    (device : Json) :
    (device.updateAll (dayRecords lang rows l)).child "Schedule" =
        writeRows lang rows (device.child "Schedule") l ∧
      ∀ name, name ≠ "Schedule" →
        (device.updateAll (dayRecords lang rows l)).child name = device.child name := by
  induction l generalizing device with
  | nil => exact ⟨rfl, fun _ _ => rfl⟩
  | cons i rest ih =>
    have first : device.update ["Schedule", days lang i]
        (newSchedule (days lang i) (rows i)).toJson =
          device.setChild "Schedule" (writeRow lang rows (device.child "Schedule") i) :=
      Leaves.update_cons device "Schedule" [days lang i] _
    obtain ⟨schedule, others⟩ := ih (device.update ["Schedule", days lang i]
      (newSchedule (days lang i) (rows i)).toJson)
    constructor
    · refine schedule.trans ?_
      rw [first, Node.child_setChild_same]
      rfl
    · intro name other
      refine (others name other).trans ?_
      rw [first, Node.child_setChild_ne other]

theorem dayOf_writeRows (lang : Language) (rows : Fin 7 → Times) (schedule : Json) (day : String) :
    dayOf (writeRows lang rows schedule (List.finRange 7)) day =
      match (List.finRange 7).find? fun i => days lang i = day with
      | some i => some (rows i)
      | none => dayOf schedule day := by
  cases found : (List.finRange 7).find? fun i => days lang i = day with
  | some i =>
    have named : days lang i = day := by simpa using List.find?_some found
    have written : ScheduleModel.fromJson ((writeRows lang rows schedule (List.finRange 7)).child
        (days lang i)) = .ok (newSchedule (days lang i) (rows i)) :=
      child_writeRows_written (List.mem_finRange i) schedule
    rw [← named]
    simp only [dayOf, written, times_newSchedule]
  | none =>
    have other : ∀ i ∈ List.finRange 7, day ≠ days lang i := by
      intro i member same
      have absent := List.find?_eq_none.mp found i member
      simp [same] at absent
    simp only [dayOf, child_writeRows_other other]

theorem week_refines (lang : Language) (rows : Fin 7 → Times) :
    shutter (device.updateAll (dayRecords lang rows (List.finRange 7))) =
      (shutter device).map (Shutter.setWeek lang rows) := by
  obtain ⟨schedule, others⟩ := schedule_updateAll lang rows (List.finRange 7) device
  have owner := owner?_congr (others "userId" (by decide))
  simp only [shutter, owner, schedule, Option.map_map, Function.comp_def, Shutter.setWeek]
  congr 1
  funext o
  simp only [Shutter.mk.injEq, true_and]
  constructor
  · funext f
    rw [others f.name (name_ne f).2]
  · funext day
    exact dayOf_writeRows lang rows (device.child "Schedule") day

end OneRecord

section Operations

theorem jsonOf_int (n : Option Int) : jsonOf (n.map .int) = optionInt n := by
  cases n <;> rfl

theorem jsonOf_str (text : Option String) : jsonOf (text.map .str) = optionStr text := by
  cases text <;> rfl

variable {parse : String → Option TimeOfDay} {parseTime : String → Except String DateTime}

/-- One record under one operation, and the shutter that it stands for under the command. -/
theorem effect_refines (op : Operation) {key : String} {device : Json}
    (sound : Sound parseTime key device) :
    shutter (effect parse op key device) = (command parse op).act key (shutter device) := by
  have changed : ∀ {id : String} {written : Json} {edit : Shutter → Shutter},
      shutter written = (shutter device).map edit →
      shutter (if some id = some key then written else device) =
        (Command.change id edit).act key (shutter device) := by
    intro id written edit edits
    simp only [Command.act, Option.some.injEq]
    split
    · exact edits
    · rfl
  cases op with
  | saveShutterDevice form segment userData now =>
    simp only [effect, query, place, rewritten, command, Option.some.injEq]
    by_cases valid : form.validate = true
    · simp only [valid, ↓reduceIte, Command.act]
      split
      · exact shutter_record form userData now
      · rfl
    · simp only [valid, Bool.false_eq_true, ↓reduceIte, Command.act, ite_self]
  | deleteShutterDevice device' shouldDelete =>
    simp only [effect, query, place, rewritten, command, Option.some.injEq]
    by_cases confirmed : shouldDelete = some true
    · simp only [confirmed, ↓reduceIte, Command.act]
      split
      · rfl
      · rfl
    · simp only [confirmed, ↓reduceIte, Command.act, ite_self]
  | updateDevice device' newStatus newFcrp newFauto newaParz newcalenderStatus =>
    exact changed (shutter_merge [(.deviceStatus, some (.bool newStatus)),
      (.fCrep, some (.bool newFcrp)), (.fAuto, some (.bool newFauto)),
      (.aParz, some (.bool newaParz)), (.calenderStatus, some (.bool newcalenderStatus))] device)
  | toggleDeviceStatus device' => exact changed (toggled_refines sound)
  | updateDeviceNewData device' sleepTime openingEffort1 openingEffort2 openingEffort3
      closingEffort1 closingEffort2 closingEffort3 deviceNames =>
    have merged := shutter_merge [(.sleepTime, sleepTime.map .int),
      (.openingEffort1, openingEffort1.map .int), (.openingEffort2, openingEffort2.map .int),
      (.openingEffort3, openingEffort3.map .int), (.closingEffort1, closingEffort1.map .int),
      (.closingEffort2, closingEffort2.map .int), (.closingEffort3, closingEffort3.map .int),
      (.deviceName, deviceNames.map .str)] device
    simp only [List.map_cons, List.map_nil, fieldOf, jsonOf_int, jsonOf_str, Field.name] at merged
    exact changed merged
  | resetAlarm device' => exact changed (shutter_merge [(.alarmResetButton, some (.int 1))] device)
  | saveSchedule device' lang shown rows => exact changed (week_refines lang rows)
  | openAll user => exact everyOf_refines user (bulkEdits .openAll)
  | closeAll user => exact everyOf_refines user (bulkEdits .closeAll)
  | playAll user => exact everyOf_refines user (bulkEdits .playAll)
  | stopAll user => exact everyOf_refines user (bulkEdits .stopAll)
  | openAllAndStop user => exact everyOf_refines user (bulkEdits .openAllAndStop)
  | closeAllAndStop user => exact everyOf_refines user (bulkEdits .closeAllAndStop)
  | calenderON user => exact everyOf_refines user (bulkEdits .calenderON)
  | calenderOFF user => exact everyOf_refines user (bulkEdits .calenderOFF)
  | updateAutoPlayStatus user isEnabled =>
    exact everyOf_refines user [(.autoPlay, some (.bool isEnabled))]
  | updateAutoPlayTime user time => exact everyOf_refines user [(.autoPlayTime, some (.str time))]
  | setupAutoPlayShutters user now =>
    cases user with
    | none => rfl
    | some uid =>
      exact query_refines (q := ⟨some uid, isDue parse now, openingFields⟩) rfl rfl
        fun s stands => isDue_eq stands
  | loadAutoPlayStatus user => rfl
  | loadAutoPlayTime user => rfl

theorem operation_refines {db : Json} (sound : AllSound parseTime db) (op : Operation) :
    home (alone (program parse op) db).1 = (command parse op).perform (home db) := by
  funext key
  rw [home, deviceNode_alone (evaluable_of_sound sound op)]
  exact effect_refines op (sound key)

/-- The operations one after another, each to its end. -/
def runOperations (parse : String → Option TimeOfDay) (ops : List Operation) (db : Json) : Json :=
  ops.foldl (fun db op => (alone (program parse op) db).1) db

theorem runOperations_refines {ops : List Operation} (dated : ∀ op ∈ ops, Dated parseTime op)
    {db : Json} (sound : AllSound parseTime db) : home (runOperations parse ops db) =
      (ops.map (command parse)).foldl (fun home c => c.perform home) (home db) := by
  induction ops generalizing db with
  | nil => rfl
  | cons op rest ih =>
    have next : AllSound parseTime (alone (program parse op) db).1 :=
      keeps_run (keeps_program (dated op (by simp))) sound
    have later := ih (fun o member => dated o (by simp [member])) next
    rw [List.map_cons, List.foldl_cons, ← operation_refines sound op]
    exact later

theorem home_empty {db : Json} (empty : db.child "ShutterDevices" = Node.null) :
    home db = fun _ => none := by
  funext key
  simp [home, deviceNode, empty, shutter, owner?]

/-- From an empty node, every sequence of operations leaves the home that the sequence of their
    commands leaves: nothing else of the database shows in it. -/
theorem operations_refine_commands {db : Json} (empty : db.child "ShutterDevices" = Node.null)
    {ops : List Operation} (dated : ∀ op ∈ ops, Dated parseTime op) :
    home (runOperations parse ops db) =
      (ops.map (command parse)).foldl (fun home c => c.perform home) fun _ => none := by
  rw [runOperations_refines dated (allSound_empty empty), home_empty empty]

/-- A device is registered, opened by its owner, toggled, and then deleted by nobody. -/
def firstDay : List Operation :=
  [.saveShutterDevice salon salon_segment ada noon, .openAll (some "uid-1"),
    .toggleDeviceStatus ⟨newDeviceId salon, salon_segment⟩,
    .deleteShutterDevice ⟨newDeviceId salon, salon_segment⟩ none]

theorem first_day_refines : home (runOperations (fun _ => none) firstDay Node.null) =
    (firstDay.map (command fun _ => none)).foldl (fun home c => c.perform home) fun _ => none := by
  have dated : ∀ op ∈ firstDay, Dated readNoon op := by
    intro op member
    simp only [firstDay, List.mem_cons, List.not_mem_nil, or_false] at member
    rcases member with rfl | rfl | rfl | rfl
    · exact ⟨noon, rfl⟩
    · trivial
    · trivial
    · trivial
  exact operations_refine_commands rfl dated

end Operations
end HomeRefinement
