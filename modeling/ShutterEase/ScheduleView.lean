import ShutterEase.DeviceNodes
import ShutterEase.Home
import ShutterEase.Retries
import ShutterEase.ScheduleCells

/-!
The schedule screen. Whatever the operations and their interleaving, a device's `Schedule` node
holds whole records of weekdays and nothing else, so the listener reads all of it, and the two
tables show each stored day in one row: first the days named in the other language, as the map
hands them over, then the own days from Monday on.
-/
namespace ScheduleView
open KeyedTree Resumption Interleaving Runs Firebase FirebasePath ShutterModels DeviceController
open AutoPlayController ScheduleController ScheduleWeek ScheduleCells Registration Operations
open Ownership DeviceNodes BulkCommands Effects Retries Home

section Screen

/-- The localized values that head the tables. -/
structure Texts where
  days : String
  first_opening : String
  first_closing : String
  second_opening : String
  second_closing : String

def localizedValues : Language → Texts
  | .it => ⟨"Giorni", "Prima Apertura", "Prima Chiusura", "Seconda Apertura", "Seconda Chiusura"⟩
  | .en => ⟨"Days", "First Opening", "First Closing", "Second Opening", "Second Closing"⟩

structure TableRow where
  day : String
  opening : String
  closing : String
  deriving DecidableEq, Repr

def buildFirstTable (lang : Language) (schedule : List ScheduleModel) : List TableRow :=
  ⟨(localizedValues lang).days, (localizedValues lang).first_opening,
      (localizedValues lang).first_closing⟩ ::
    schedule.map fun item =>
      ⟨item.day, orDash item.firstOpeningTime, orDash item.firstClosingTime⟩

def buildSecondTable (lang : Language) (schedule : List ScheduleModel) : List TableRow :=
  ⟨(localizedValues lang).days, (localizedValues lang).second_opening,
      (localizedValues lang).second_closing⟩ ::
    schedule.map fun item =>
      ⟨item.day, orDash item.secondOpeningTime, orDash item.secondClosingTime⟩

inductive View where
  | text (message : String)
  | pageView (first second : List TableRow)
  deriving DecidableEq, Repr

def viewTimetable (lang : Language) (deviceName : Option String) (schedule : List ScheduleModel) :
    View :=
  if schedule.isEmpty then
    .text ("No schedule is added \nfor \"" ++ deviceName.getD "null" ++ "\".")
  else .pageView (buildFirstTable lang schedule) (buildSecondTable lang schedule)

/-- The list after a snapshot has been handled; one that is no map leaves it. -/
def handled (lang : Language) (data : Json) (order : List String) (schedule : List ScheduleModel) :
    List ScheduleModel :=
  (notifications lang data order).getLast?.getD schedule

end Screen

section Records

/-- There is no schedule, or each of its records is whole, of a weekday in either language and
    stored under its name. -/
structure WholeDays (schedule : Json) : Prop where
  there : schedule = Node.null ∨ ∃ day, schedule.child day ≠ Node.null
  whole : ∀ day, schedule.child day ≠ Node.null → (∃ lang i, day = days lang i) ∧
    ∃ row, ScheduleModel.fromJson (schedule.child day) = .ok (newSchedule day row)

theorem wholeDays_null : WholeDays Node.null := ⟨Or.inl rfl, fun _ there => absurd rfl there⟩

/-- What the app asks of the database, as far as schedules go. -/
def WeekCall : DbCall → Prop
  | .get _ => True
  | .set path value => ∃ key, path = ["ShutterDevices", key] ∧ value.child "Schedule" = Node.null
  | .update path fields =>
    (∃ key, path = ["ShutterDevices", key] ∧ "Schedule" ∉ fields.map Prod.fst) ∨
      ∃ key lang i row, path = ["ShutterDevices", key, "Schedule", days lang i] ∧
        fields = (newSchedule (days lang i) row).toJson
  | .remove path => ∃ key, path = ["ShutterDevices", key]

variable {parse : String → Option TimeOfDay}

theorem weekCall_program (op : Operation) : Issues WeekCall (program parse op) := by
  have told : ∀ one two : Ui, Quiet (perform one >>= fun _ => perform two : Act Unit) :=
    fun _ _ => quiet_perform_then (quiet_perform _)
  have opened : ∀ {p : Act Unit}, Opens WeekCall (fun _ _ => WeekCall) p → Issues WeekCall p :=
    fun opens => issues_of_opens opens (fun _ first => first) fun _ _ _ _ later => later
  have reads : ∀ c, c = Call.get ["ShutterDevices"] → WeekCall c := fun c first => first ▸ trivial
  cases asks : query parse op with
  | some q =>
    have plain : "Schedule" ∉ q.fields.map Prod.fst := by
      cases op with
      | setupAutoPlayShutters user now =>
        cases user with
        | none => simp [query] at asks
        | some uid =>
          cases asks
          simp [openingFields]
      | _ => cases asks <;> simp [always, Bulk.fields]
    refine issues_of_opens (query_opens parse asks) reads ?_
    intro c r c' first listed
    obtain ⟨snapshot, key, -, -, rfl⟩ := listed
    exact Or.inl ⟨key, rfl, plain⟩
  | none =>
    cases op with
    | saveShutterDevice form segment userData now =>
      exact opened (opens_saveShutterDevice form segment userData now ⟨_, rfl, rfl⟩)
    | deleteShutterDevice device shouldDelete =>
      exact opened (opens_deleteShutterDevice device shouldDelete ⟨device.1, rfl⟩)
    | updateDevice device =>
      exact opened (opens_guarded (Or.inl ⟨_, rfl, by simp⟩) (told _ _) fun _ => quiet_perform _)
    | toggleDeviceStatus device =>
      exact opened (opens_toggleDeviceStatus device trivial fun _ _ _ =>
        Or.inl ⟨_, rfl, by simp⟩)
    | updateDeviceNewData device =>
      exact opened (opens_guarded (Or.inl ⟨_, rfl, by simp⟩) (told _ _) fun _ => quiet_perform _)
    | resetAlarm device =>
      exact opened (opens_guarded (Or.inl ⟨_, rfl, by simp⟩) (told _ _) fun _ => quiet_perform _)
    | saveSchedule device lang shown rows =>
      exact issues_saveSchedule fun i => Or.inr ⟨device.1, lang, i, rows i, rfl, rfl⟩
    | loadAutoPlayStatus user =>
      exact issues_of_opens (reads_opens parse rfl rfl) reads fun _ _ _ _ no => no.elim
    | loadAutoPlayTime user =>
      exact issues_of_opens (reads_opens parse rfl rfl) reads fun _ _ _ _ no => no.elim
    | setupAutoPlayShutters user now =>
      cases user with
      | none => trivial
      | some uid => simp [query] at asks
    | _ => simp [query] at asks

theorem wholeDays_update {schedule : Json} (whole : WholeDays schedule) (lang : Language)
    (i : Fin 7) (row : Times) :
    WholeDays (schedule.update [days lang i] (newSchedule (days lang i) row).toJson) := by
  have written : ScheduleModel.fromJson ((schedule.update [days lang i]
      (newSchedule (days lang i) row).toJson).child (days lang i)) =
        .ok (newSchedule (days lang i) row) := by
    simp [Node.update, ScheduleModel.fromJson_merge]
  refine ⟨Or.inr ⟨days lang i, decoded_ne_null written⟩, ?_⟩
  intro day there
  by_cases here : day = days lang i
  · subst here
    exact ⟨⟨lang, i, rfl⟩, row, written⟩
  · have other : (schedule.update [days lang i] (newSchedule (days lang i) row).toJson).child day =
        schedule.child day := by
      rw [Node.update, Node.set_cons, Node.child_setChild_ne here]
    rw [other] at there ⊢
    exact whole.whole day there

theorem keepsDevices_week {c : DbCall} (call : WeekCall c) :
    KeepsDevices (fun _ device => WholeDays (device.child "Schedule")) c := by
  cases c with
  | get path => trivial
  | set path value =>
    obtain ⟨key, rfl, empty⟩ := call
    refine ⟨key, rfl, ?_⟩
    show WholeDays (value.child "Schedule")
    rw [empty]
    exact wholeDays_null
  | remove path =>
    obtain ⟨key, rfl⟩ := call
    exact ⟨key, rfl, wholeDays_null⟩
  | update path fields =>
    rcases call with ⟨key, rfl, plain⟩ | ⟨key, lang, i, row, rfl, rfl⟩
    · refine Or.inl ⟨key, rfl, fun device whole => ?_⟩
      show WholeDays ((device.merge fields).child "Schedule")
      rw [Node.child_merge_other plain]
      exact whole
    · refine Or.inr ⟨key, days lang i, rfl, fun device whole => ?_⟩
      have below : (device.update ["Schedule", days lang i]
          (newSchedule (days lang i) row).toJson).child "Schedule" =
            (device.child "Schedule").update [days lang i]
              (newSchedule (days lang i) row).toJson :=
        Node.get_update_above device ["Schedule"] [days lang i] _
      show WholeDays (Node.child _ "Schedule")
      rw [below]
      exact wholeDays_update whole lang i row

theorem wholeDays_run {db : Json} (empty : db.child "ShutterDevices" = Node.null)
    {moves : List (Move Operation String)} {s : System}
    (ran : run (Operations.step parse) ⟨db, []⟩ moves = some s) (key : String) :
    WholeDays ((deviceNode s.store key).child "Schedule") := by
  have start : AllDevices (fun _ device => WholeDays (device.child "Schedule")) db :=
    allDevices_empty empty fun _ => wholeDays_null
  have all : Throughout (Operations.step parse)
      (fun s : System => AllDevices (fun _ device => WholeDays (device.child "Schedule")) s.store)
      ⟨db, []⟩ moves := by
    apply allDevices_throughout start
    intro op _
    exact issues_mono (weekCall_program op) fun _ => keepsDevices_week
  exact throughout_end all ran key

end Records

section Sorted
variable {lang : Language}

def Foreign (lang : Language) (day : String) : Bool := indexOf lang day = -1

theorem indexOf_cases (lang : Language) (day : String) :
    indexOf lang day = -1 ∨ ∃ i, day = days lang i := by
  unfold indexOf
  cases found : (List.finRange 7).find? fun i => days lang i = day with
  | none => exact Or.inl rfl
  | some i =>
    have named : days lang i = day := by simpa using List.find?_some found
    exact Or.inr ⟨i, named.symm⟩

theorem foreign_days (i : Fin 7) : Foreign lang (days lang i) = false := by
  have index := indexOf_days lang i
  simp only [Foreign, index, decide_eq_false_iff_not]
  omega

theorem own_iff {day : String} : Foreign lang day = false ↔ ∃ i, day = days lang i := by
  constructor
  · intro own
    rcases indexOf_cases lang day with foreign | named
    · simp [Foreign, foreign] at own
    · exact named
  · intro named
    obtain ⟨i, rfl⟩ := named
    exact foreign_days i

theorem orderedInsert_past {α : Type} {r : α → α → Prop} [DecidableRel r] {a : α} {front : List α}
    (past : ∀ b ∈ front, ¬ r a b) (l : List α) :
    (front ++ l).orderedInsert r a = front ++ l.orderedInsert r a := by
  induction front with
  | nil => rfl
  | cons b rest ih =>
    have later := ih fun c member => past c (by simp [member])
    simp [List.orderedInsert_cons, past b (by simp), later]

theorem foreign_le {day : String} (foreign : Foreign lang day = true) (other : String) :
    indexOf lang day ≤ indexOf lang other := by
  simp only [Foreign, decide_eq_true_eq] at foreign
  rcases indexOf_cases lang other with same | ⟨i, rfl⟩
  · omega
  · rw [indexOf_days]
    omega

theorem own_not_le {day other : String} (own : Foreign lang day = false)
    (foreign : Foreign lang other = true) : ¬ indexOf lang day ≤ indexOf lang other := by
  obtain ⟨i, rfl⟩ := own_iff.mp own
  simp only [Foreign, decide_eq_true_eq] at foreign
  rw [indexOf_days]
  omega

/-- Days of the other language compare below all own ones, and the sort keeps their order. -/
theorem sortByDay_split (lang : Language) (schedule : List ScheduleModel) :
    sortByDay lang schedule = schedule.filter (fun s => Foreign lang s.day) ++
      sortByDay lang (schedule.filter fun s => !Foreign lang s.day) := by
  induction schedule with
  | nil => rfl
  | cons s rest ih =>
    have inserted : ∀ l, sortByDay lang (s :: l) = (sortByDay lang l).orderedInsert
        (fun a b => indexOf lang a.day ≤ indexOf lang b.day) s := fun _ => rfl
    rw [inserted, ih]
    cases kind : Foreign lang s.day with
    | true =>
      have front : ∀ l : List ScheduleModel, l.orderedInsert
          (fun a b => indexOf lang a.day ≤ indexOf lang b.day) s = s :: l := by
        intro l
        cases l with
        | nil => rfl
        | cons b later => simp [List.orderedInsert_cons, foreign_le kind b.day]
      rw [front, List.filter_cons_of_pos (by simp [kind]), List.filter_cons_of_neg (by simp [kind])]
      rfl
    | false =>
      rw [List.filter_cons_of_neg (by simp [kind]), List.filter_cons_of_pos (by simp [kind]),
        inserted, orderedInsert_past]
      intro b member
      exact own_not_le kind (by simpa using (List.mem_filter.mp member).2)

end Sorted

section Shown
variable {parse : String → Option TimeOfDay} {lang : Language}

/-- The days of the tables: those of the other language in map order, then the own ones. -/
def shownDays (lang : Language) (order : List String) : List String :=
  order.filter (Foreign lang) ++ ((List.finRange 7).map (days lang)).filter (· ∈ order)

def timesOf (schedule : Json) (day : String) : Times :=
  (dayOf schedule day).getD ⟨"", "", "", ""⟩

def firstRow (schedule : Json) (day : String) : TableRow :=
  ⟨day, orDash (timesOf schedule day).firstOpeningTime,
    orDash (timesOf schedule day).firstClosingTime⟩

def secondRow (schedule : Json) (day : String) : TableRow :=
  ⟨day, orDash (timesOf schedule day).secondOpeningTime,
    orDash (timesOf schedule day).secondClosingTime⟩

theorem sorted_days {order : List String} (distinct : order.Nodup) (rows : String → Times) :
    sortByDay lang (order.map fun day => newSchedule day (rows day)) =
      (shownDays lang order).map fun day => newSchedule day (rows day) := by
  let stored := (List.finRange 7).filter fun i => days lang i ∈ order
  have increasing : stored.Pairwise (· < ·) := (List.pairwise_lt_finRange 7).filter _
  have own : (order.filter fun day => !Foreign lang day).Perm (stored.map (days lang)) := by
    have names : (stored.map (days lang)).Nodup :=
      ((List.nodup_finRange 7).filter _).map fun i j eq => days_injective lang i j eq
    rw [List.perm_ext_iff_of_nodup (distinct.filter _) names]
    intro day
    simp only [List.mem_filter, Bool.not_eq_true', own_iff, List.mem_map, stored,
      List.mem_finRange, true_and, decide_eq_true_eq]
    constructor
    · intro there
      obtain ⟨member, i, rfl⟩ := there
      exact ⟨i, member, rfl⟩
    · intro there
      obtain ⟨i, member, rfl⟩ := there
      exact ⟨member, i, rfl⟩
  have records_eq : records lang (fun i => rows (days lang i)) stored =
      (stored.map (days lang)).map fun day => newSchedule day (rows day) := by
    simp [records]
  have tail := sortByDay_records increasing
    (records_eq ▸ own.map fun day => newSchedule day (rows day))
  have filtered : ((List.finRange 7).map (days lang)).filter (fun day => day ∈ order) =
      stored.map (days lang) := by
    rw [List.filter_map]
    rfl
  have foreign : (order.map fun day => newSchedule day (rows day)).filter
      (fun s => Foreign lang s.day) =
        (order.filter (Foreign lang)).map fun day => newSchedule day (rows day) :=
    List.filter_map
  have others : (order.map fun day => newSchedule day (rows day)).filter
      (fun s => !Foreign lang s.day) =
        (order.filter fun day => !Foreign lang day).map fun day => newSchedule day (rows day) :=
    List.filter_map
  rw [sortByDay_split, foreign, others, tail, records_eq, shownDays, filtered, List.map_append]

theorem timesOf_newSchedule {schedule : Json} {day : String} {row : Times}
    (decoded : ScheduleModel.fromJson (schedule.child day) = .ok (newSchedule day row)) :
    timesOf schedule day = row := by
  simp only [timesOf, dayOf, decoded, Option.getD_some]
  rfl

/-- What the listener makes of a node of whole days. -/
theorem handled_whole {schedule : Json} (whole : WholeDays schedule) {order : List String}
    (perm : order.Perm schedule.keys) (shown : List ScheduleModel) :
    handled lang schedule order shown = if order = [] then shown
      else (shownDays lang order).map fun day => newSchedule day (timesOf schedule day) := by
  cases order with
  | nil =>
    have empty : schedule.keys = [] := perm.symm.eq_nil
    rcases whole.there with gone | ⟨day, there⟩
    · subst gone
      rfl
    · have member : day ∈ schedule.keys := Node.mem_keys.mpr there
      simp [empty] at member
  | cons first rest =>
    have there : schedule.child first ≠ Node.null :=
      Node.mem_keys.mp (perm.mem_iff.mp List.mem_cons_self)
    have map : asMap schedule = .ok schedule := by
      obtain ⟨⟨lang', i, name⟩, -⟩ := whole.whole first there
      exact asMap_of_day (name ▸ there)
    have decodes : ∀ day ∈ first :: rest, ScheduleModel.fromJson (schedule.child day) =
        .ok (newSchedule day (timesOf schedule day)) := by
      intro day member
      obtain ⟨-, row, decoded⟩ := whole.whole day (Node.mem_keys.mp (perm.mem_iff.mp member))
      rw [timesOf_newSchedule decoded, decoded]
    have distinct : (first :: rest).Nodup := perm.nodup_iff.mpr (Node.keys_nodup schedule)
    have decoded := decodeAll_map decodes
    rw [handled, notifications_of_map map, decoded]
    simp only [List.getLast?_cons_cons, List.getLast?_singleton, Option.getD_some,
      sorted_days distinct]
    simp

/-- In every reachable database and for every device, in whatever order the map comes: the
    schedule holds whole records of weekdays only, and the screen that handles it shows each of
    them in one row of either table, the other language's first and the own from Monday on. A
    schedule that is gone leaves the tables as they were. -/
theorem tables_show_schedule {db : Json} (empty : db.child "ShutterDevices" = Node.null)
    {moves : List (Move Operation String)} {s : System}
    (ran : run (Operations.step parse) ⟨db, []⟩ moves = some s) (key : String)
    {order : List String} (perm : order.Perm ((deviceNode s.store key).child "Schedule").keys)
    (deviceName : Option String) (shown : List ScheduleModel) :
    let schedule := (deviceNode s.store key).child "Schedule"
    (∀ day ∈ order, (∃ other i, day = days other i) ∧ (dayOf schedule day).isSome) ∧
      viewTimetable lang deviceName (handled lang schedule order shown) =
        if order = [] then viewTimetable lang deviceName shown
        else .pageView
          (⟨(localizedValues lang).days, (localizedValues lang).first_opening,
            (localizedValues lang).first_closing⟩ ::
              (shownDays lang order).map (firstRow schedule))
          (⟨(localizedValues lang).days, (localizedValues lang).second_opening,
            (localizedValues lang).second_closing⟩ ::
              (shownDays lang order).map (secondRow schedule)) := by
  intro schedule
  have whole : WholeDays schedule := wholeDays_run empty ran key
  constructor
  · intro day member
    obtain ⟨named, row, decoded⟩ := whole.whole day (Node.mem_keys.mp (perm.mem_iff.mp member))
    exact ⟨named, by simp [dayOf, decoded]⟩
  · rw [handled_whole whole perm]
    split
    · rfl
    · rename_i some_day
      have shown_day : (shownDays lang order).isEmpty = false := by
        obtain ⟨day, member⟩ := List.exists_mem_of_ne_nil order some_day
        have listed : day ∈ shownDays lang order := by
          cases kind : Foreign lang day with
          | true => simp [shownDays, member, kind]
          | false =>
            obtain ⟨i, rfl⟩ := own_iff.mp kind
            simp [shownDays, member]
        exact List.isEmpty_eq_false_iff.mpr (List.ne_nil_of_mem listed)
      simp only [viewTimetable, List.isEmpty_map, shown_day, Bool.false_eq_true, ↓reduceIte,
        buildFirstTable, buildSecondTable, List.map_map, Function.comp_def, newSchedule]
      rfl

/-- A save in Italian breaks off after its Monday. -/
def savedMonday : List (Move Operation String) :=
  [.start (.saveSchedule ⟨newDeviceId salon, salon_segment⟩ .it .it
    fun _ => ⟨"08:00", "20:00", "", ""⟩), .answer 0, .fail 0 "offline"]

theorem monday_shown : ∃ s : System,
    run (Operations.step fun _ => none) ⟨Node.null, []⟩ savedMonday = some s ∧
    let schedule := (deviceNode s.store (newDeviceId salon)).child "Schedule"
    (∀ day ∈ schedule.keys, (∃ other i, day = days other i) ∧ (dayOf schedule day).isSome) ∧
      viewTimetable .en (some "Salon") (handled .en schedule schedule.keys []) =
        if schedule.keys = [] then viewTimetable .en (some "Salon") []
        else .pageView
          (⟨(localizedValues .en).days, (localizedValues .en).first_opening,
            (localizedValues .en).first_closing⟩ ::
              (shownDays .en schedule.keys).map (firstRow schedule))
          (⟨(localizedValues .en).days, (localizedValues .en).second_opening,
            (localizedValues .en).second_closing⟩ ::
              (shownDays .en schedule.keys).map (secondRow schedule)) := by
  have goes : ∃ s, run (Operations.step fun _ => none) ⟨Node.null, []⟩ savedMonday = some s :=
    ⟨_, rfl⟩
  obtain ⟨s, ran⟩ := goes
  exact ⟨s, ran,
    tables_show_schedule rfl ran (newDeviceId salon) (List.Perm.refl _) (some "Salon") []⟩

end Shown
end ScheduleView
