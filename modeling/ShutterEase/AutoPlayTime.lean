import ShutterEase.AutoPlayController
import ShutterEase.Ownership

/-!
The picked auto-play time on its way to the scheduler: the picker's text in the phone's clock
format is stored on every device of the user, and each evaluation parses it back. `parse` is
the reader's `DateFormat('h:mm a')`; what is assumed of it is said at the results.
-/
namespace AutoPlayTime
open KeyedTree Firebase AccountDevices AutoPlayController DartText Ownership Validations

inductive ClockFormat where
  | twelveHour
  | twentyFourHour
  deriving DecidableEq, Repr

def hourOfPeriod (t : TimeOfDay) : Nat := if t.hour.val % 12 = 0 then 12 else t.hour.val % 12

/-- `TimeOfDay.format` under the phone's setting. -/
def format (mode : ClockFormat) (t : TimeOfDay) : String :=
  match mode with
  | .twelveHour => toString (hourOfPeriod t) ++ ":" ++ twoDigits t.minute ++ " " ++
      if t.hour.val < 12 then "AM" else "PM"
  | .twentyFourHour => twoDigits t.hour ++ ":" ++ twoDigits t.minute

/-- `TimeInputField.onTap` once a time is picked. -/
def storePick (mode : ClockFormat) (pick : TimeOfDay) (currentUser : Option String) : Act Unit :=
  updateAutoPlayTime currentUser (format mode pick)

/-- Every device of the user holds the text. -/
def Holds (uid text : String) (db : Json) : Prop :=
  ∀ key, owned uid db key → (deviceNode db key).child "autoPlayTime" = Json.str text

/-- Outside the user's devices nothing differs, and of each of them only one field. -/
def OnlyField (uid field : String) (db after : Json) : Prop :=
  (∀ key, ¬ owned uid db key → deviceNode after key = deviceNode db key) ∧
    (∀ key name, owned uid db key → name ≠ field →
      (deviceNode after key).child name = (deviceNode db key).child name) ∧
    ∀ top, top ≠ "ShutterDevices" → after.child top = db.child top

def IsOpen (device : Json) : Prop :=
  device.child "shutterIconStatus" = Json.bool true ∧ device.child "deviceStatus" = Json.bool true

def Due (uid : String) (pick now : TimeOfDay) (db : Json) (key : String) : Prop :=
  owned uid db key ∧ (deviceNode db key).child "autoPlay" = Json.bool true ∧ now = pick

/-- The evaluation opens the user's auto-play devices when its clock shows the pick, and
    changes nothing else. -/
def ActsAt (parse : String → Option TimeOfDay) (uid : String) (pick : TimeOfDay) (db : Json) :
    Prop :=
  ∀ now, let after := (alone (setupAutoPlayShutters parse (some uid) now) db).1
    (∀ key, Due uid pick now db key → IsOpen (deviceNode after key) ∧
      ∀ name, name ≠ "shutterIconStatus" → name ≠ "deviceStatus" →
        (deviceNode after key).child name = (deviceNode db key).child name) ∧
    (∀ key, ¬ Due uid pick now db key → deviceNode after key = deviceNode db key) ∧
    ∀ top, top ≠ "ShutterDevices" → after.child top = db.child top

/-- The pick is stored on the user's devices and nowhere else, and a later evaluation acts on
    it. -/
def PickIsActedOn (parse : String → Option TimeOfDay) (mode : ClockFormat) (pick : TimeOfDay)
    (uid : String) (db later : Json) : Prop :=
  let stored := (alone (storePick mode pick (some uid)) db).1
  Holds uid (format mode pick) stored ∧ OnlyField uid "autoPlayTime" db stored ∧
    ActsAt parse uid pick later

/-- Every auto-play device of the user is open already, or the phone shows twelve hours and no
    record listed before the device fails the loop's cast. -/
def Works (mode : ClockFormat) (uid : String) (db : Json) : Prop :=
  ∀ before device after,
    userDevices (some uid) (db.child "ShutterDevices") = before ++ device :: after →
    device.2.child "autoPlay" = Json.bool true → IsOpen device.2 ∨
      mode = .twelveHour ∧ ∀ e ∈ before, ∃ b, e.2.child "autoPlay" = Json.bool b

section Texts

theorem format_twelveHour_marked (t : TimeOfDay) :
    'M' ∈ (format .twelveHour t).toList := by
  by_cases morning : t.hour.val < 12
  · simp [format, morning]
  · simp [format, morning]

theorem format_twentyFourHour_plain (t : TimeOfDay) :
    ∀ c ∈ (format .twentyFourHour t).toList, isLetter c = false := by
  have hour := twoDigits_plain ⟨t.hour.val, by omega⟩
  have minute := twoDigits_plain t.minute
  intro c member
  simp only [format, String.toList_append, List.mem_append] at member
  rcases member with (inHour | inColon) | inMinute
  · exact hour c inHour
  · simp only [String.reduceToList, List.mem_singleton] at inColon
    rw [inColon]
    decide
  · exact minute c inMinute

end Texts

section Loop
variable {parse : String → Option TimeOfDay} {now : TimeOfDay} {text : String}
    {shutters : List (String × Json)}

theorem asBool_ok {json : Json} {b : Bool} : asBool json = .ok b ↔ json = Json.bool b := by
  unfold asBool
  split
  · simp [Json.bool]
  · rename_i other
    simp only [reduceCtorEq, false_iff]
    intro eq
    exact other b eq

theorem asString_str (text : String) : asString (Json.str text) = .ok text := rfl

/-- What the loop opens, it opens for an auto-play device whose text shows the clock. -/
theorem mem_opened {key : String}
    (texts : ∀ s ∈ shutters, s.2.child "autoPlayTime" = Json.str text)
    (member : key ∈ opened parse now shutters) :
    convertTo24HourFormat parse (some text) = some (currentTime now) ∧
      ∃ s ∈ shutters, s.1 = key ∧ s.2.child "autoPlay" = Json.bool true := by
  induction shutters with
  | nil => simp [opened] at member
  | cons s rest ih =>
    have later := ih fun e he => texts e (by simp [he])
    simp only [opened, texts s (by simp), asString_str] at member
    split at member
    · rename_i enabled time isBool isText
      simp only [Except.ok.injEq] at isText
      subst isText
      split at member
      · rename_i opens
        simp only [opensAt, Bool.and_eq_true, decide_eq_true_eq] at opens
        rcases List.mem_cons.mp member with rfl | inRest
        · rw [opens.1] at isBool
          exact ⟨opens.2, s, by simp, rfl, asBool_ok.mp isBool⟩
        · obtain ⟨shows, e, he, found⟩ := later inRest
          exact ⟨shows, e, by simp [he], found⟩
      · obtain ⟨shows, e, he, found⟩ := later member
        exact ⟨shows, e, by simp [he], found⟩
    · simp at member

/-- A device that was opened has no record before it that fails the cast. -/
theorem flags_of_opened {before after : List (String × Json)} {device : String × Json}
    (distinct : ((before ++ device :: after).map Prod.fst).Nodup)
    (member : device.1 ∈ opened parse now (before ++ device :: after)) :
    ∀ e ∈ before, ∃ b, e.2.child "autoPlay" = Json.bool b := by
  induction before with
  | nil => simp
  | cons first rest ih =>
    simp only [List.cons_append, List.map_cons, List.nodup_cons] at distinct
    have other : device.1 ≠ first.1 := by
      intro eq
      apply distinct.1
      rw [← eq]
      simp
    simp only [List.cons_append, opened] at member
    split at member
    · rename_i enabled time isBool isText
      have later : device.1 ∈ opened parse now (rest ++ device :: after) := by
        split at member
        · exact (List.mem_cons.mp member).resolve_left other
        · exact member
      intro e he
      rcases List.mem_cons.mp he with rfl | inRest
      · exact ⟨enabled, asBool_ok.mp isBool⟩
      · exact ih distinct.2 later e inRest
    · simp at member

end Loop

section Evaluation
variable {parse : String → Option TimeOfDay} {mode : ClockFormat} {pick : TimeOfDay}
    {uid : String} {db : Json}

theorem convert_twelveHour (reads : ∀ t, parse (format .twelveHour t) = some t) (t : TimeOfDay) :
    convertTo24HourFormat parse (some (format .twelveHour t)) = some (formatHHmm t) := by
  have marked := format_twelveHour_marked t
  have filled : format .twelveHour t ≠ "" := by
    intro empty
    simp [empty] at marked
  have other : format .twelveHour t ≠ "00:00" := by
    intro zero
    rw [zero] at marked
    exact absurd marked (by decide)
  simp [convertTo24HourFormat, filled, other, reads t]

theorem convert_twentyFourHour
    (refuses : ∀ s, (∀ c ∈ s.toList, isLetter c = false) → parse s = none) (t : TimeOfDay) :
    convertTo24HourFormat parse (some (format .twentyFourHour t)) = none := by
  simp [convertTo24HourFormat, refuses _ (format_twentyFourHour_plain t)]

theorem userDevices_texts {text : String} (holds : Holds uid text db) :
    ∀ s ∈ userDevices (some uid) (db.child "ShutterDevices"),
      s.2.child "autoPlayTime" = Json.str text := by
  rintro ⟨key, device⟩ member
  obtain ⟨rfl, -, own⟩ := mem_userDevices.mp member
  exact holds key own

theorem deviceNode_evaluated (parse : String → Option TimeOfDay) (uid : String) (now : TimeOfDay)
    (db : Json) (key : String) :
    deviceNode (alone (setupAutoPlayShutters parse (some uid) now) db).1 key =
      if key ∈ opened parse now (userDevices (some uid) (db.child "ShutterDevices"))
      then (deviceNode db key).merge openingFields else deviceNode db key := by
  rw [alone_setupAutoPlayShutters]
  have distinct := (userDevices_keys_nodup (some uid) (db.child "ShutterDevices")).sublist
    (opened_sublist parse now _)
  exact get_writeEach openingFields distinct key db

theorem merge_openingFields (device : Json) : IsOpen (device.merge openingFields) ∧
    ∀ name, name ≠ "shutterIconStatus" → name ≠ "deviceStatus" →
      (device.merge openingFields).child name = device.child name := by
  have distinct : (openingFields.map Prod.fst).Nodup := by decide
  refine ⟨⟨?_, ?_⟩, ?_⟩
  · exact Node.child_merge_written distinct (by simp [openingFields]) device
  · exact Node.child_merge_written distinct (by simp [openingFields]) device
  · intro name icon status
    apply Node.child_merge_other
    simp [openingFields, icon, status]

theorem actsAt_of_works (reads : ∀ t, parse (format .twelveHour t) = some t)
    (refuses : ∀ s, (∀ c ∈ s.toList, isLetter c = false) → parse s = none)
    (holds : Holds uid (format mode pick) db) (works : Works mode uid db) :
    ActsAt parse uid pick db := by
  intro now
  have texts := userDevices_texts holds
  refine ⟨?_, ?_, ?_⟩
  · rintro key ⟨own, enabled, rfl⟩
    rw [deviceNode_evaluated]
    split
    · exact merge_openingFields _
    · rename_i shut
      have listed : (key, deviceNode db key) ∈
          userDevices (some uid) (db.child "ShutterDevices") :=
        mem_userDevices.mpr ⟨by simp [deviceNode], ownedBy_ne_null own, own⟩
      obtain ⟨before, after, split⟩ := List.append_of_mem listed
      rcases works before _ after split enabled with isOpen | ⟨rfl, flags⟩
      · exact ⟨isOpen, fun _ _ _ => rfl⟩
      · rw [split] at texts shut
        have distinct := userDevices_keys_nodup (some uid) (db.child "ShutterDevices")
        rw [split] at distinct
        have passes : ∀ e ∈ before, Passes e.2 :=
          fun e he => ⟨flags e he, _, texts e (by simp [he])⟩
        have time := texts (key, deviceNode db key) (by simp)
        refine absurd ((mem_opened_reached parse distinct passes enabled time).mpr ?_) shut
        simp [opensAt, convert_twelveHour reads, (currentTime_eq_iff now now).mpr rfl]
  · intro key notDue
    rw [deviceNode_evaluated]
    split
    · rename_i isOpened
      obtain ⟨shows, ⟨key', device⟩, member, rfl, enabled⟩ := mem_opened texts isOpened
      obtain ⟨rfl, -, own⟩ := mem_userDevices.mp member
      refine absurd ⟨own, by simpa [deviceNode] using enabled, ?_⟩ notDue
      cases mode with
      | twelveHour =>
        rw [convert_twelveHour reads, Option.some.injEq] at shows
        exact (currentTime_eq_iff now pick).mp shows.symm
      | twentyFourHour =>
        rw [convert_twentyFourHour refuses] at shows
        simp at shows
    · rfl
  · intro top other
    rw [alone_setupAutoPlayShutters]
    exact child_writeEach_other other db

theorem works_of_actsAt (refuses : ∀ s, (∀ c ∈ s.toList, isLetter c = false) → parse s = none)
    (holds : Holds uid (format mode pick) db) (acts : ActsAt parse uid pick db) :
    Works mode uid db := by
  rintro before ⟨key, device⟩ after split enabled
  have texts := userDevices_texts holds
  have listed : (key, device) ∈ userDevices (some uid) (db.child "ShutterDevices") := by
    simp [split]
  obtain ⟨rfl, -, own⟩ := mem_userDevices.mp listed
  have opensNow := ((acts pick).1 key ⟨own, enabled, rfl⟩).1
  rw [deviceNode_evaluated] at opensNow
  by_cases isOpened : key ∈ opened parse pick
      (userDevices (some uid) (db.child "ShutterDevices"))
  · right
    have shows := (mem_opened texts isOpened).1
    constructor
    · cases mode with
      | twelveHour => rfl
      | twentyFourHour =>
        rw [convert_twentyFourHour refuses] at shows
        simp at shows
    · have distinct := userDevices_keys_nodup (some uid) (db.child "ShutterDevices")
      rw [split] at distinct isOpened
      exact flags_of_opened distinct isOpened
  · left
    simp only [isOpened, ↓reduceIte] at opensNow
    exact opensNow

/-- Storing a pick writes its text on the user's devices and nothing else. -/
theorem stored_pick (mode : ClockFormat) (pick : TimeOfDay) (uid : String) (db : Json) :
    Holds uid (format mode pick) (alone (storePick mode pick (some uid)) db).1 ∧
      OnlyField uid "autoPlayTime" db (alone (storePick mode pick (some uid)) db).1 := by
  have node : ∀ key, deviceNode (alone (storePick mode pick (some uid)) db).1 key =
      if ownedBy (some uid) (deviceNode db key) = true
      then (deviceNode db key).merge [("autoPlayTime", Json.str (format mode pick))]
      else deviceNode db key := by
    intro key
    rw [storePick, alone_updateAutoPlayTime]
    exact get_writeUserDevices _ uid key db
  have same_owner : ∀ key, owned uid (alone (storePick mode pick (some uid)) db).1 key ↔
      owned uid db key := by
    intro key
    unfold owned
    rw [node]
    split
    · rw [ownedBy_merge (by simp)]
    · rfl
  refine ⟨?_, ?_, ?_, ?_⟩
  · intro key own
    have before : ownedBy (some uid) (deviceNode db key) = true := (same_owner key).mp own
    rw [node]
    simp [before]
  · intro key other
    rw [node]
    simp only [owned] at other
    simp [other]
  · intro key name own other
    rw [node]
    simp only [owned] at own
    simp [own, Node.child_setChild_ne other]
  · intro top other
    rw [storePick, alone_updateAutoPlayTime]
    exact child_writeEach_other other db

/-- A parser of `h:mm a` acts on a pick exactly under the twelve-hour setting, short of records
    that stop its loop and devices that are open anyway. -/
theorem picked_time_acted_on_iff (reads : ∀ t, parse (format .twelveHour t) = some t)
    (refuses : ∀ s, (∀ c ∈ s.toList, isLetter c = false) → parse s = none)
    (mode : ClockFormat) (pick : TimeOfDay) (uid : String) (db : Json) {later : Json}
    (holds : Holds uid (format mode pick) later) :
    PickIsActedOn parse mode pick uid db later ↔ Works mode uid later := by
  constructor
  · intro fires
    obtain ⟨-, -, acts⟩ := fires
    exact works_of_actsAt refuses holds acts
  · intro works
    obtain ⟨stored, frame⟩ := stored_pick mode pick uid db
    exact ⟨stored, frame, actsAt_of_works reads refuses holds works⟩

end Evaluation

section TwentyFourHours

/-- The fields of `h:mm a`, hours from one to twelve. -/
def parseFields (hour minute : List Char) (marker : Char) : Option TimeOfDay :=
  let h := (digitsValue hour).toNat
  let m := (digitsValue minute).toNat
  if bounds : 1 ≤ h ∧ h ≤ 12 ∧ m < 60 then
    if marker = 'A' then some ⟨⟨h % 12, by omega⟩, ⟨m, bounds.2.2⟩⟩
    else if marker = 'P' then some ⟨⟨h % 12 + 12, by omega⟩, ⟨m, bounds.2.2⟩⟩
    else none
  else none

/-- The pattern `h:mm a`, read strictly. -/
def parsePattern (s : String) : Option TimeOfDay :=
  match s.toList with
  | [h, ':', m, n, ' ', marker, 'M'] => parseFields [h] [m, n] marker
  | [g, h, ':', m, n, ' ', marker, 'M'] => parseFields [g, h] [m, n] marker
  | _ => none

theorem hourOfPeriod_spec (t : TimeOfDay) : 1 ≤ hourOfPeriod t ∧ hourOfPeriod t ≤ 12 ∧
    hourOfPeriod t % 12 = t.hour.val % 12 := by
  have bound := t.hour.isLt
  unfold hourOfPeriod
  split
  · omega
  · omega

theorem parseFields_reads {t : TimeOfDay} {hour minute : List Char} {marker : Char}
    (hours : digitsValue hour = hourOfPeriod t) (minutes : digitsValue minute = t.minute.val)
    (half : marker = 'A' ∧ t.hour.val < 12 ∨ marker = 'P' ∧ 12 ≤ t.hour.val) :
    parseFields hour minute marker = some t := by
  obtain ⟨low, high, same⟩ := hourOfPeriod_spec t
  have bound := t.hour.isLt
  rcases half with ⟨rfl, morning⟩ | ⟨rfl, afternoon⟩
  · have hour_eq : hourOfPeriod t % 12 = t.hour.val := by omega
    simp [parseFields, hours, minutes, low, high, hour_eq]
  · have hour_eq : hourOfPeriod t % 12 + 12 = t.hour.val := by omega
    simp [parseFields, hours, minutes, low, high, hour_eq]

theorem hour_value : ∀ p : Fin 13, 1 ≤ p.val → digitsValue (toString p.val).toList = p.val ∧
    ((toString p.val).toList.length = 1 ∨ (toString p.val).toList.length = 2) := by decide

theorem parsePattern_reads (t : TimeOfDay) :
    parsePattern (format .twelveHour t) = some t := by
  obtain ⟨low, high, -⟩ := hourOfPeriod_spec t
  obtain ⟨hours, digits⟩ := hour_value ⟨hourOfPeriod t, by omega⟩ low
  obtain ⟨d, e, minute⟩ := List.length_eq_two.mp (twoDigits_length t.minute)
  have minutes := twoDigits_value t.minute
  rw [minute] at minutes
  have marked : ∃ marker, (format .twelveHour t).toList =
        (toString (hourOfPeriod t)).toList ++ [':', d, e, ' ', marker, 'M'] ∧
      (marker = 'A' ∧ t.hour.val < 12 ∨ marker = 'P' ∧ 12 ≤ t.hour.val) := by
    by_cases morning : t.hour.val < 12
    · exact ⟨'A', by simp [format, morning, minute], Or.inl ⟨rfl, morning⟩⟩
    · exact ⟨'P', by simp [format, morning, minute], Or.inr ⟨rfl, by omega⟩⟩
  obtain ⟨marker, chars, half⟩ := marked
  simp only at hours digits
  generalize (toString (hourOfPeriod t)).toList = hour at hours digits chars
  -- one digit or two decide which pattern matches
  rcases digits with one | two
  · obtain ⟨g, rfl⟩ := List.length_eq_one_iff.mp one
    simp only [List.cons_append, List.nil_append] at chars
    simp only [parsePattern, chars]
    exact parseFields_reads hours minutes half
  · obtain ⟨g, h, rfl⟩ := List.length_eq_two.mp two
    simp only [List.cons_append, List.nil_append] at chars
    simp only [parsePattern, chars]
    exact parseFields_reads hours minutes half

theorem parsePattern_refuses (s : String) (plain : ∀ c ∈ s.toList, isLetter c = false) :
    parsePattern s = none := by
  have unmarked : 'M' ∉ s.toList := by
    intro member
    exact absurd (plain 'M' member) (by decide)
  unfold parsePattern
  split
  · rename_i chars
    simp [chars] at unmarked
  · rename_i chars
    simp [chars] at unmarked
  · rfl

def earlyPick : TimeOfDay := ⟨7, 5⟩

/-- One auto-play device that holds the given text. -/
def autoPlayDevice (text : String) : Json := .branch [("ShutterDevices", .branch [("A0B1C2D3E4F5",
  .branch [("userId", Json.str "uid-1"), ("autoPlay", Json.bool true),
    ("autoPlayTime", Json.str text), ("shutterIconStatus", Json.bool false),
    ("deviceStatus", Json.bool false)])])]

theorem autoPlayDevice_holds (text : String) : Holds "uid-1" text (autoPlayDevice text) := by
  intro key own
  by_cases here : key = "A0B1C2D3E4F5"
  · subst here
    rfl
  · have gone : deviceNode (autoPlayDevice text) key = Node.null := by
      simp [deviceNode, autoPlayDevice, Node.child, Node.childOf, Ne.symm here]
    exact absurd gone (ownedBy_ne_null own)

theorem pick_acted_on_twelve_hours :
    PickIsActedOn parsePattern .twelveHour earlyPick "uid-1" (autoPlayDevice "")
        (autoPlayDevice (format .twelveHour earlyPick)) ↔
      Works .twelveHour "uid-1" (autoPlayDevice (format .twelveHour earlyPick)) :=
  picked_time_acted_on_iff parsePattern_reads parsePattern_refuses .twelveHour earlyPick "uid-1"
    (autoPlayDevice "") (autoPlayDevice_holds _)

/-- Under the twenty-four-hour setting the stored "07:05" never opens anything. -/
theorem twenty_four_hour_pick_ignored :
    (∀ t, parsePattern (format .twelveHour t) = some t) ∧
      (∀ s, (∀ c ∈ s.toList, isLetter c = false) → parsePattern s = none) ∧
      ¬ PickIsActedOn parsePattern .twentyFourHour earlyPick "uid-1" (autoPlayDevice "")
        (autoPlayDevice (format .twentyFourHour earlyPick)) := by
  refine ⟨parsePattern_reads, parsePattern_refuses, ?_⟩
  intro fires
  obtain ⟨-, -, acts⟩ := fires
  have works := works_of_actsAt parsePattern_refuses (autoPlayDevice_holds _) acts
  have listed := works [] _ [] rfl rfl
  rcases listed with ⟨icon, -⟩ | ⟨mode, -⟩
  · have shut : Json.bool false = Json.bool true := icon
    simp [Json.bool] at shut
  · simp at mode

end TwentyFourHours
end AutoPlayTime
