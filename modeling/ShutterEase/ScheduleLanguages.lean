import ShutterEase.ScheduleWeek

/- Saves of one device's schedule while the language is switched: each save uses the names of
   the language its controller was created under. -/
namespace ScheduleLanguages
open KeyedTree Firebase FirebasePath ShutterModels ScheduleController ScheduleWeek

inductive Step where
  | changeLanguage (lang : Language)
  | saveSchedule (rows : Fin 7 → Times)

structure App where
  selected : Language
  db : Json

def step (deviceId : String) (s : App) : Step → App
  | .changeLanguage lang => { s with selected := lang }
  | .saveSchedule rows =>
    { s with db := (alone (saveSchedule deviceId s.selected s.selected rows) s.db).1 }

def history (deviceId : String) (s : App) (steps : List Step) : App :=
  steps.foldl (step deviceId) s

/-- The saves of a history, each with the language selected then. -/
def saves : Language → List Step → List (Language × (Fin 7 → Times))
  | _, [] => []
  | _, .changeLanguage lang :: rest => saves lang rest
  | lang, .saveSchedule rows :: rest => (lang, rows) :: saves lang rest

def scheduleOf (deviceId : String) (s : App) : Json :=
  s.db.get ["ShutterDevices", deviceId, "Schedule"]

def Names (key : String) (i : Fin 7) : Prop := ∃ lang, key = days lang i

/-- One record for each weekday, whichever language it is kept in, and a published list that
    runs from Monday to Sunday with the given times, in whatever order the map comes. -/
structure WeekOnRecord (selected : Language) (node : Json) (rows : Fin 7 → Times) : Prop where
  one_each : ∀ i, ∃! key, key ∈ node.keys ∧ Names key i
  no_other : ∀ key ∈ node.keys, ∃ i, Names key i
  published : ∀ order, order.Perm node.keys → ∃ schedule,
    (notifications selected node order).getLast? = some schedule ∧ schedule.length = 7 ∧
      ∀ i : Fin 7, ∃ s, schedule[i.val]? = some s ∧ Names s.day i ∧ times s = rows i

def saveAll (node : Json) (l : List (Language × (Fin 7 → Times))) : Json :=
  l.foldl (fun node save => writeRows save.1 save.2 node (List.finRange 7)) node

/-- A history leaves on the node what its saves write there, one after the other. -/
theorem scheduleOf_history {deviceId : String} (segment : IsSegment deviceId) (s : App)
    (steps : List Step) :
    scheduleOf deviceId (history deviceId s steps) =
      saveAll (scheduleOf deviceId s) (saves s.selected steps) := by
  induction steps generalizing s with
  | nil => rfl
  | cons e rest ih =>
    cases e with
    | changeLanguage lang => exact ih { s with selected := lang }
    | saveSchedule rows =>
      have written := (alone_saveSchedule segment s.selected s.selected rows s.db).2.1
      have later := ih (step deviceId s (.saveSchedule rows))
      simp only [scheduleOf, step, written] at later
      exact later

theorem child_saveAll_other {key : String} {l : List (Language × (Fin 7 → Times))}
    (other : ∀ save ∈ l, ∀ i, key ≠ days save.1 i) (node : Json) :
    (saveAll node l).child key = node.child key := by
  induction l generalizing node with
  | nil => rfl
  | cons save rest ih =>
    have here : (writeRows save.1 save.2 node (List.finRange 7)).child key = node.child key :=
      child_writeRows_other (fun i _ => other save (by simp) i) node
    have later := ih (fun s hs => other s (by simp [hs]))
      (writeRows save.1 save.2 node (List.finRange 7))
    exact later.trans here

/-- A record is never removed by a save. -/
theorem there_writeRows {lang : Language} {rows : Fin 7 → Times} {key : String} {node : Json}
    (there : node.child key ≠ Node.null) :
    (writeRows lang rows node (List.finRange 7)).child key ≠ Node.null := by
  by_cases day : ∃ i, key = days lang i
  · obtain ⟨i, rfl⟩ := day
    exact (holdsWeek_saved lang node rows).there i
  · rw [child_writeRows_other fun i _ eq => day ⟨i, eq⟩]
    exact there

theorem there_saveAll {key : String} {l : List (Language × (Fin 7 → Times))} {node : Json}
    (there : node.child key ≠ Node.null) : (saveAll node l).child key ≠ Node.null := by
  induction l generalizing node with
  | nil => exact there
  | cons save rest ih => exact ih (there_writeRows there)

theorem saved_there {save : Language × (Fin 7 → Times)}
    {l : List (Language × (Fin 7 → Times))} (member : save ∈ l) (node : Json) (i : Fin 7) :
    (saveAll node l).child (days save.1 i) ≠ Node.null := by
  induction l generalizing node with
  | nil => simp at member
  | cons first rest ih =>
    rcases List.mem_cons.mp member with rfl | later
    · have written := (holdsWeek_saved save.1 node save.2).there i
      change (saveAll (writeRows save.1 save.2 node (List.finRange 7)) rest).child _ ≠ _
      exact there_saveAll written
    · exact ih later _

theorem holdsWeek_last {lang : Language} {rows : Fin 7 → Times}
    {l : List (Language × (Fin 7 → Times))} (last : l.getLast? = some (lang, rows))
    (node : Json) : HoldsWeek lang (saveAll node l) rows := by
  obtain ⟨before, rfl⟩ := List.getLast?_eq_some_iff.mp last
  have whole : saveAll node (before ++ [(lang, rows)]) =
      writeRows lang rows (saveAll node before) (List.finRange 7) := by
    simp [saveAll]
  rw [whole]
  exact holdsWeek_saved lang _ rows

theorem keys_saveAll {lang : Language} {l : List (Language × (Fin 7 → Times))}
    (one : ∀ save ∈ l, save.1 = lang) :
    ∀ key ∈ (saveAll Node.null l).keys, ∃ i, key = days lang i := by
  intro key member
  by_contra foreign
  have other : ∀ save ∈ l, ∀ i, key ≠ days save.1 i := by
    intro save hs i eq
    rw [one save hs] at eq
    exact foreign ⟨i, eq⟩
  exact Node.mem_keys.mp member (child_saveAll_other other Node.null)

section Histories
variable {selected lang : Language} {node : Json} {rows : Fin 7 → Times}
    {l : List (Language × (Fin 7 → Times))}

theorem weekOnRecord_of_one_language (holds : HoldsWeek selected node rows)
    (only : ∀ key ∈ node.keys, ∃ i, key = days selected i) :
    WeekOnRecord selected node rows where
  one_each := by
    intro i
    refine ⟨days selected i, ⟨Node.mem_keys.mpr (holds.there i), selected, rfl⟩, ?_⟩
    rintro key ⟨member, lang, name⟩
    obtain ⟨j, rfl⟩ := only key member
    rw [(days_names selected lang j i name).1]
  no_other := by
    intro key member
    obtain ⟨i, name⟩ := only key member
    exact ⟨i, selected, name⟩
  published := by
    intro order perm
    obtain ⟨schedule, -, decoded, list⟩ := holds.decoded only perm
    refine ⟨week selected rows, ?_, by simp [week], ?_⟩
    · rw [notifications_of_map (asMap_of_day (holds.there 0)), decoded]
      simp [sortByDay_week list]
    · intro i
      exact ⟨newSchedule (days selected i) (rows i), by simp [week], ⟨selected, rfl⟩, rfl⟩

/-- A week kept in the other language is published in map order, and some map starts with
    Sunday. -/
theorem not_weekOnRecord_foreign (ne : selected ≠ lang) (holds : HoldsWeek lang node rows)
    (only : ∀ key ∈ node.keys, ∃ i, key = days lang i) {shown : Fin 7 → Times} :
    ¬ WeekOnRecord selected node shown := by
  intro record
  have sunday : days lang 6 ∈ node.keys := Node.mem_keys.mpr (holds.there 6)
  obtain ⟨order, perm, first⟩ := exists_order sunday (List.length_pos_of_mem sunday)
  obtain ⟨schedule, -, decoded, list⟩ := holds.decoded only perm
  have foreign : ∀ s ∈ schedule, ∃ i, s.day = days lang i := by
    intro s hs
    obtain ⟨i, -, rfl⟩ := List.mem_map.mp (list.mem_iff.mp hs)
    exact ⟨i, rfl⟩
  obtain ⟨published, last, -, entries⟩ := record.published order perm
  rw [notifications_of_map (asMap_of_day (holds.there 0)), decoded] at last
  simp only [sortByDay_foreign ne foreign, List.getLast?_cons_cons, List.getLast?_singleton,
    Option.some.injEq] at last
  subst last
  obtain ⟨s, at_first, ⟨other, name⟩, -⟩ := entries 0
  have head : (order.map node.child)[0]? = some (node.child (days lang 6)) := by
    simp [List.getElem?_map, first]
  obtain ⟨s', at_first', fits⟩ := decodeAll_getElem decoded head
  have same : s' = s := by
    have at_zero : schedule[0]? = some s := at_first
    rw [at_first'] at at_zero
    simpa using at_zero
  rw [holds 6] at fits
  simp only [Except.ok.injEq] at fits
  rw [← same, ← fits] at name
  exact absurd (days_names lang other 6 0 name).1 (by decide)

theorem language_eq {a b c : Language} (hb : b ≠ a) (hc : c ≠ a) : b = c := by
  cases a <;> cases b <;> cases c <;> simp_all

theorem one_language_of_weekOnRecord (last : l.getLast? = some (lang, rows))
    (record : WeekOnRecord selected (saveAll Node.null l) rows) :
    ∀ save ∈ l, save.1 = selected := by
  intro save member
  by_contra foreign
  by_cases mixed : ∃ own ∈ l, own.1 = selected
  · obtain ⟨own, own_member, eq⟩ := mixed
    obtain ⟨key, -, unique⟩ := record.one_each 0
    have kept := unique (days save.1 0)
      ⟨Node.mem_keys.mpr (saved_there member Node.null 0), save.1, rfl⟩
    have kept_own := unique (days own.1 0)
      ⟨Node.mem_keys.mpr (saved_there own_member Node.null 0), own.1, rfl⟩
    have same := (days_names save.1 own.1 0 0 (kept.trans kept_own.symm)).2
    exact foreign (same.trans eq)
  · have all_foreign : ∀ s ∈ l, s.1 ≠ selected := fun s hs eq => mixed ⟨s, hs, eq⟩
    have last_member : (lang, rows) ∈ l := List.mem_of_getLast? last
    have other : selected ≠ lang := Ne.symm (all_foreign _ last_member)
    have one : ∀ s ∈ l, s.1 = lang := fun s hs => language_eq (all_foreign s hs) (Ne.symm other)
    exact not_weekOnRecord_foreign other (holdsWeek_last last Node.null) (keys_saveAll one) record

/-- After a history of saves on a device without a schedule, the week is on record exactly when
    every save was made under the language selected now. -/
theorem week_on_record_iff_one_language {deviceId : String} (segment : IsSegment deviceId)
    {s : App} (fresh : scheduleOf deviceId s = Node.null) {steps : List Step}
    (last : (saves s.selected steps).getLast? = some (lang, rows)) :
    WeekOnRecord (history deviceId s steps).selected
        (scheduleOf deviceId (history deviceId s steps)) rows ↔
      ∀ save ∈ saves s.selected steps, save.1 = (history deviceId s steps).selected := by
  rw [scheduleOf_history segment, fresh]
  constructor
  · intro record
    exact one_language_of_weekOnRecord last record
  · intro one
    have own : lang = _ := one _ (List.mem_of_getLast? last)
    have holds := holdsWeek_last last Node.null
    rw [own] at holds
    exact weekOnRecord_of_one_language holds (keys_saveAll one)

end Histories

section Switched

def oneSave (lang : Language) (opening : String) : List Step :=
  [.changeLanguage lang, .saveSchedule fun _ => ⟨opening, "20:00", "-", "-"⟩]

/-- A device is known and has no schedule yet. -/
def registeredOnly : App := ⟨.it, .branch [("ShutterDevices", .branch [("AABBCCDDEEFF",
  .branch [("deviceName", Json.str "Salon")])])]⟩

/-- Two saves in English, with a look at the Italian texts in between. -/
def englishTwice : List Step := oneSave .en "08:00" ++ .changeLanguage .it :: oneSave .en "09:00"

theorem week_on_record_after_two_saves :
    WeekOnRecord (history "AABBCCDDEEFF" registeredOnly englishTwice).selected
      (scheduleOf "AABBCCDDEEFF" (history "AABBCCDDEEFF" registeredOnly englishTwice))
      fun _ => ⟨"09:00", "20:00", "-", "-"⟩ := by
  have last : (saves registeredOnly.selected englishTwice).getLast? =
    some (.en, fun _ => ⟨"09:00", "20:00", "-", "-"⟩) := rfl
  refine (week_on_record_iff_one_language (by decide) rfl last).mpr ?_
  have both : saves registeredOnly.selected englishTwice =
    [(.en, fun _ => ⟨"08:00", "20:00", "-", "-"⟩), (.en, fun _ => ⟨"09:00", "20:00", "-", "-"⟩)] :=
    rfl
  rw [both]
  simp only [List.forall_mem_cons]
  exact ⟨rfl, rfl, by simp⟩

/-- Saved in Italian, then in English: fourteen records. -/
theorem two_languages_two_weeks :
    ¬ WeekOnRecord (history "AABBCCDDEEFF" registeredOnly
          (oneSave .it "08:00" ++ oneSave .en "09:00")).selected
        (scheduleOf "AABBCCDDEEFF" (history "AABBCCDDEEFF" registeredOnly
          (oneSave .it "08:00" ++ oneSave .en "09:00")))
        (fun _ => ⟨"09:00", "20:00", "-", "-"⟩) := by
  have segment : IsSegment "AABBCCDDEEFF" := by decide
  have fresh : scheduleOf "AABBCCDDEEFF" registeredOnly = Node.null := rfl
  rw [scheduleOf_history segment, fresh]
  intro record
  have last : (saves registeredOnly.selected (oneSave .it "08:00" ++ oneSave .en "09:00")).getLast? =
    some (.en, fun _ => ⟨"09:00", "20:00", "-", "-"⟩) := rfl
  have one := one_language_of_weekOnRecord last record
  have italian := one (.it, fun _ => ⟨"08:00", "20:00", "-", "-"⟩) (List.mem_cons_self)
  exact absurd italian (by decide)

end Switched
end ScheduleLanguages
