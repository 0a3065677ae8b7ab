import ShutterEase.Dashboard
import ShutterEase.Dialogs
import ShutterEase.HomeRefinement

/-!
The dashboard and the home. A card is built from a decoded record; when every snapshot has been
handled, the screen shows the cards of the user's shutters, and what is tapped on a card acts on
the shutter that it shows.
-/
namespace Cards
open KeyedTree Runs Firebase ShutterModels AccountDevices ScheduleController AutoPlayController
open DeviceController Registration Operations Ownership DeviceSchema DeviceList RecordTypes
open Dashboard Dialogs Home HomeRefinement

section Widgets

/-- The localized values that a card reads. -/
structure Texts where
  status : String
  play : String
  stop : String
  f_auto : String
  f_crep : String
  a_parz : String
  calendar : String
  on : String
  off : String
  calendar_off_info : String

def localizedValues : Language → Texts
  | .it => ⟨"STATO", "PLAY", "STOP", "F.AUTO", "F.CREP", "A.PARZ", "Calendario", "ON", "OFF",
      "Il calendario è spento"⟩
  | .en => ⟨"STATUS", "Play", "Stop", "F.AUTO", "F.CREP", "A.PARZ", "CALENDAR", "ON", "OFF",
      "Calendar is Off"⟩

structure InfoRow where
  label : String
  value : String

inductive Tap where
  | scheduleScreen (deviceId : String)
  | showErrorToast (message : String)

structure EditDevice where
  deviceId : String
  roomName : String
  initial : Switch → Bool

structure InputDialogForNewUpdateData where
  deviceName : String
  deviceId : String

/-- What a card shows, and what its taps are given: a dialog whose name is missing is not
    built. -/
structure RoomCard where
  onTap : Tap
  image : String
  panel : String
  wifi : String
  battery : String
  deviceName : String
  rows : List InfoRow
  toggleDeviceStatus : String
  editDevice : EditDevice
  settings : Except String InputDialogForNewUpdateData
  deleteShutterDevice : String

/-- `device.deviceId.toString()`. -/
def textOf (text : Option String) : String := text.getD "null"

def percentage : Option String → String
  | some text => if text ≠ "" then text else "0%"
  | none => "0%"

def flagText (yes no : String) : Option Bool → String
  | some b => if b = true then yes else no
  | none => "Nil"

def nullCheck : Option String → Except String String
  | some text => .ok text
  | none => .error "Null check operator used on a null value"

def roomCard (lang : Language) (device : ShutterDeviceModel) : RoomCard :=
  let texts := localizedValues lang
  { onTap :=
      if device.calenderStatus = some true then .scheduleScreen (textOf device.deviceId)
      else .showErrorToast texts.calendar_off_info
    image :=
      if device.shutterIconStatus = some true ∧ device.aParz = some true then
        "assets/icons/shutterhalfOpen.png"
      else if device.shutterIconStatus = some true then "assets/icons/shutterOpen.png"
      else "assets/icons/shutterClose.png"
    panel := percentage device.devicePanelOperationPercentage
    wifi := percentage device.wifiPercentage
    battery := percentage device.batteryPercentage
    deviceName := device.deviceName.getD "Nil"
    rows :=
      [⟨texts.status, flagText texts.play texts.stop device.deviceStatus⟩,
        ⟨texts.f_auto, flagText texts.on texts.off device.fAuto⟩,
        ⟨texts.f_crep, flagText texts.on texts.off device.fCrep⟩,
        ⟨texts.a_parz, flagText texts.on texts.off device.aParz⟩,
        ⟨texts.calendar, flagText texts.on texts.off device.calenderStatus⟩]
    toggleDeviceStatus := textOf device.deviceId
    editDevice := ⟨textOf device.deviceId, textOf device.deviceName, initialSwitches device⟩
    settings := do
      let deviceName ← nullCheck device.deviceName
      return ⟨deviceName, textOf device.deviceId⟩
    deleteShutterDevice := textOf device.deviceId }

inductive Body where
  | text (message : String)
  | gridView (cards : List RoomCard)

def homeScreen (lang : Language) (devices : List ShutterDeviceModel) : Body :=
  if devices.isEmpty then .text "No devices found" else .gridView (devices.map (roomCard lang))

end Widgets

section Shown

def isOn (s : Shutter) (f : Field) : Bool := s.settings f = some (.bool true)

def word (yes no : String) (s : Shutter) (f : Field) : String :=
  match s.settings f with
  | some (.bool b) => if b = true then yes else no
  | _ => "Nil"

def share (s : Shutter) (f : Field) : String :=
  match s.settings f with
  | some (.str text) => if text = "" then "0%" else text
  | _ => "0%"

def nameOf (s : Shutter) : Option String :=
  match s.settings .deviceName with
  | some (.str name) => some name
  | _ => none

def settingOf : Switch → Field
  | .status => .deviceStatus
  | .fCrep => .fCrep
  | .fAuto => .fAuto
  | .aParz => .aParz
  | .calender => .calenderStatus

/-- The card of a shutter: what it shows is read from the shutter's settings, and every tap is
    given the shutter's own key. -/
def cardOf (lang : Language) (key : String) (s : Shutter) : RoomCard :=
  let texts := localizedValues lang
  { onTap :=
      if isOn s .calenderStatus then .scheduleScreen key
      else .showErrorToast texts.calendar_off_info
    image :=
      match isOn s .shutterIconStatus, isOn s .aParz with
      | true, true => "assets/icons/shutterhalfOpen.png"
      | true, false => "assets/icons/shutterOpen.png"
      | false, _ => "assets/icons/shutterClose.png"
    panel := share s .devicePanelOperationPercentage
    wifi := share s .wifiPercentage
    battery := share s .batteryPercentage
    deviceName := (nameOf s).getD "Nil"
    rows :=
      [⟨texts.status, word texts.play texts.stop s .deviceStatus⟩,
        ⟨texts.f_auto, word texts.on texts.off s .fAuto⟩,
        ⟨texts.f_crep, word texts.on texts.off s .fCrep⟩,
        ⟨texts.a_parz, word texts.on texts.off s .aParz⟩,
        ⟨texts.calendar, word texts.on texts.off s .calenderStatus⟩]
    toggleDeviceStatus := key
    editDevice := ⟨key, (nameOf s).getD "null", fun switch => isOn s (settingOf switch)⟩
    settings :=
      match nameOf s with
      | some name => .ok ⟨name, key⟩
      | none => .error "Null check operator used on a null value"
    deleteShutterDevice := key }

/-- The screen shows a user's part of a home: a card for each shutter of the user. -/
def ShowsHome (lang : Language) (user : String) (home : State) (body : Body) : Prop :=
  ∃ keys : List String, keys.Nodup ∧
    (∀ key, key ∈ keys ↔ ∃ s, home key = some s ∧ s.owner = user) ∧
    body = if keys = [] then .text "No devices found"
      else .gridView (keys.filterMap fun key => (home key).map (cardOf lang key))

/-- The home that the devices' node holds. -/
def homeOf (shutterDevices : Json) : State := fun key => shutter (shutterDevices.child key)

end Shown

section Decoded
variable {parse : String → Except String DateTime} {json : Json} {d : ShutterDeviceModel}

/-- The fields that a card reads, as the decoder casts them. -/
theorem fromJson_card (h : ShutterDeviceModel.fromJson parse json = .ok d) :
    asString? (json.child "deviceId") = .ok d.deviceId ∧
      asString? (json.child "deviceName") = .ok d.deviceName ∧
      asString? (json.child "devicePanelOperationPercentage") =
        .ok d.devicePanelOperationPercentage ∧
      asString? (json.child "wifiPercentage") = .ok d.wifiPercentage ∧
      asString? (json.child "batteryPercentage") = .ok d.batteryPercentage ∧
      asBool? (json.child "shutterIconStatus") = .ok d.shutterIconStatus := by
  simp only [ShutterDeviceModel.fromJson, bind_ok_iff, pure_ok_iff] at h
  grind

theorem value?_asString? {text : Option String} (cast : asString? json = .ok text) :
    json.value? = text.map .str := by
  cases json with
  | leaf v =>
    cases v with
    | str t =>
      cases cast
      rfl
    | bool b => simp [asString?] at cast
    | int i => simp [asString?] at cast
  | branch children =>
    cases children with
    | nil =>
      cases cast
      rfl
    | cons e rest => simp [asString?] at cast

theorem value?_asBool? {flag : Option Bool} (cast : asBool? json = .ok flag) :
    json.value? = flag.map .bool := by
  cases json with
  | leaf v =>
    cases v with
    | bool b =>
      cases cast
      rfl
    | str t => simp [asBool?] at cast
    | int i => simp [asBool?] at cast
  | branch children =>
    cases children with
    | nil =>
      cases cast
      rfl
    | cons e rest => simp [asBool?] at cast

end Decoded

section Settings
variable {s : Shutter} {f : Field}

theorem isOn_eq {flag : Option Bool} (set : s.settings f = flag.map .bool) :
    isOn s f = decide (flag = some true) := by
  unfold isOn
  rw [set]
  cases flag with
  | none => rfl
  | some b => cases b <;> rfl

theorem word_eq {flag : Option Bool} (set : s.settings f = flag.map .bool) (yes no : String) :
    word yes no s f = flagText yes no flag := by
  unfold word
  rw [set]
  cases flag <;> rfl

theorem share_eq {text : Option String} (set : s.settings f = text.map .str) :
    share s f = percentage text := by
  unfold share
  rw [set]
  cases text with
  | none => rfl
  | some t =>
    by_cases empty : t = ""
    · simp [percentage, empty]
    · simp [percentage, empty]

theorem nameOf_eq {name : Option String} (set : s.settings .deviceName = name.map .str) :
    nameOf s = name := by
  unfold nameOf
  rw [set]
  cases name <;> rfl

end Settings

section Records
variable {parse : String → Except String DateTime} {key : String} {device : Json}

/-- The card of a decoded record is the card of the shutter that it stands for. -/
theorem roomCard_eq_cardOf (lang : Language) (sound : Sound parse key device) {s : Shutter}
    (stands : shutter device = some s) {d : ShutterDeviceModel}
    (decoded : ShutterDeviceModel.fromJson parse device = .ok d) :
    roomCard lang d = cardOf lang key s := by
  obtain ⟨status, fCrep, fAuto, aParz, calender⟩ := fromJson_flags decoded
  obtain ⟨id, name, panel, wifi, battery, icon⟩ := fromJson_card decoded
  have settings := settings_of stands
  have own : device.child "userId" ≠ Node.null := by
    intro gone
    simp [shutter, owner?, gone] at stands
  have id_key : d.deviceId = some key := by
    rw [(sound.registered own).1] at id
    exact (Except.ok.inj id).symm
  have status' := (settings .deviceStatus).trans (value?_asBool? status)
  have fCrep' := (settings .fCrep).trans (value?_asBool? fCrep)
  have fAuto' := (settings .fAuto).trans (value?_asBool? fAuto)
  have aParz' := (settings .aParz).trans (value?_asBool? aParz)
  have calender' := (settings .calenderStatus).trans (value?_asBool? calender)
  have icon' := (settings .shutterIconStatus).trans (value?_asBool? icon)
  have name' := (settings .deviceName).trans (value?_asString? name)
  have panel' := (settings .devicePanelOperationPercentage).trans (value?_asString? panel)
  have wifi' := (settings .wifiPercentage).trans (value?_asString? wifi)
  have battery' := (settings .batteryPercentage).trans (value?_asString? battery)
  have switches : initialSwitches d = fun switch => isOn s (settingOf switch) := by
    funext switch
    cases switch with
    | status => exact (isOn_eq status').symm
    | fCrep => exact (isOn_eq fCrep').symm
    | fAuto => exact (isOn_eq fAuto').symm
    | aParz => exact (isOn_eq aParz').symm
    | calender => exact (isOn_eq calender').symm
  simp only [roomCard, cardOf, id_key, textOf, Option.getD_some, switches, nameOf_eq name',
    isOn_eq calender', isOn_eq icon', isOn_eq aParz', word_eq status', word_eq fCrep',
    word_eq fAuto', word_eq aParz', word_eq calender', share_eq panel', share_eq wifi',
    share_eq battery', RoomCard.mk.injEq, and_true, true_and, decide_eq_true_eq]
  constructor
  · by_cases opened : d.shutterIconStatus = some true
    · by_cases half : d.aParz = some true
      · simp [opened, half]
      · simp [opened, half]
    · simp [opened]
  · cases d.deviceName <;> rfl

theorem cards_of_decoded (lang : Language) {records : List (String × Json)}
    {devices : List ShutterDeviceModel} (sound : ∀ record ∈ records, Sound parse record.1 record.2)
    (stands : ∀ record ∈ records, ∃ s, shutter record.2 = some s)
    (decoded : List.Forall₂ (fun record device =>
      ShutterDeviceModel.fromJson parse record.2 = .ok device) records devices) :
    devices.map (roomCard lang) =
      records.filterMap fun record => (shutter record.2).map (cardOf lang record.1) := by
  induction decoded with
  | nil => rfl
  | cons first rest ih =>
    obtain ⟨s, here⟩ := stands _ List.mem_cons_self
    have card := roomCard_eq_cardOf lang (sound _ List.mem_cons_self) here first
    have later := ih (fun record member => sound record (by simp [member]))
      fun record member => stands record (by simp [member])
    rw [List.map_cons, later, card, List.filterMap_cons, here, Option.map_some]

theorem own_iff (user : String) (snapshot : Json) (key : String) :
    key ∈ (userDevices (some user) snapshot).map Prod.fst ↔
      ∃ s, homeOf snapshot key = some s ∧ s.owner = user := by
  rw [key_mem_userDevices, owner_iff]
  rfl

/-- The cards of a list stand in the order of the user's records. -/
theorem homeScreen_of_lists (lang : Language) {user : String} {snapshot : Json}
    {devices : List ShutterDeviceModel} (sound : ∀ key, Sound parse key (snapshot.child key))
    (listed : Lists parse (some user) snapshot devices) :
    homeScreen lang devices =
      if (userDevices (some user) snapshot).map Prod.fst = [] then .text "No devices found"
      else .gridView (((userDevices (some user) snapshot).map Prod.fst).filterMap fun key =>
        (homeOf snapshot key).map (cardOf lang key)) := by
  obtain ⟨distinct, decoded⟩ := listed
  have records : ∀ record ∈ userDevices (some user) snapshot, record.2 = snapshot.child record.1 ∧
      ∃ s, shutter record.2 = some s := by
    intro record member
    obtain ⟨stored, -, own⟩ := mem_userDevices.mp member
    obtain ⟨s, stands, -⟩ := owner_iff.mp own
    exact ⟨stored.symm, s, stands⟩
  have cards := cards_of_decoded lang
    (fun record member => (records record member).1 ▸ sound record.1)
    (fun record member => (records record member).2) decoded
  have same : (userDevices (some user) snapshot).filterMap
        (fun record => (shutter record.2).map (cardOf lang record.1)) =
      ((userDevices (some user) snapshot).map Prod.fst).filterMap
        fun key => (homeOf snapshot key).map (cardOf lang key) := by
    rw [List.filterMap_map]
    apply List.filterMap_congr
    intro record member
    simp only [Function.comp_apply, homeOf, (records record member).1]
  have both : devices.isEmpty = true ↔ (userDevices (some user) snapshot).map Prod.fst = [] := by
    rw [List.isEmpty_iff, ← List.length_eq_zero_iff, ← decoded.length_eq,
      List.length_eq_zero_iff, List.map_eq_nil_iff]
  rw [homeScreen, cards, same]
  simp only [both]

/-- The list of a user's records is the cards of the user's shutters. -/
theorem shows_of_lists (lang : Language) {user : String} {snapshot : Json}
    {devices : List ShutterDeviceModel} (sound : ∀ key, Sound parse key (snapshot.child key))
    (listed : Lists parse (some user) snapshot devices) :
    ShowsHome lang user (homeOf snapshot) (homeScreen lang devices) :=
  ⟨(userDevices (some user) snapshot).map Prod.fst, listed.1, own_iff user snapshot,
    homeScreen_of_lists lang sound listed⟩

end Records

section Settled
variable {parse : String → Option TimeOfDay} {parseTime : String → Except String DateTime}

/-- The devices' node that some run of the app's operations leaves, from an empty one. -/
def LeftByApp (parse : String → Option TimeOfDay) (parseTime : String → Except String DateTime)
    (shutterDevices : Json) : Prop :=
  ∃ (db : Json) (moves : List (Interleaving.Move Operation String)) (s : System),
    db.child "ShutterDevices" = Node.null ∧
    (∀ op, .start op ∈ moves → Dated parseTime op) ∧
    run (Operations.step parse) ⟨db, []⟩ moves = some s ∧
    s.store.child "ShutterDevices" = shutterDevices

/-- The snapshot is what was stored at the start or what was written since. -/
def StoredIn (shutterDevices : Json) (events : List Event) (snapshot : Json) : Prop :=
  snapshot = shutterDevices ∨ .write snapshot ∈ events

theorem sound_left {shutterDevices : Json} (left : LeftByApp parse parseTime shutterDevices)
    (key : String) : Sound parseTime key (shutterDevices.child key) := by
  obtain ⟨db, moves, s, empty, dated, ran, rfl⟩ := left
  exact allSound_run empty dated ran key

theorem readable_left {shutterDevices : Json} (left : LeftByApp parse parseTime shutterDevices) :
    Readable parseTime shutterDevices :=
  fun key member => readable_of_sound (sound_left left key) (Node.mem_keys.mp member)

/-- The list converges, and every snapshot stored, on its way or on screen is one of `P`. -/
structure Supplied (P : Json → Prop) (parseTime : String → Except String DateTime)
    (user : String) (s : App) : Prop where
  converging : Converging parseTime user s
  stored : P s.shutterDevices
  pending : ∀ queue ∈ s.pending, ∀ snapshot ∈ queue, P snapshot
  shown : s.devices = [] ∧ s.handledFor = none ∨ ∃ snapshot, P snapshot ∧
    ∀ lang, ShowsHome lang user (homeOf snapshot) (homeScreen lang s.devices)

section Step
variable {P : Json → Prop} {user : String} {s s' : App}

theorem pending_listen (stored : P s.shutterDevices)
    (pending : ∀ queue ∈ s.pending, ∀ snapshot ∈ queue, P snapshot) :
    ∀ queue ∈ s.listen.pending, ∀ snapshot ∈ queue, P snapshot := by
  intro queue member snapshot inside
  rcases List.mem_append.mp member with old | new
  · exact pending queue old snapshot inside
  · rw [List.mem_singleton.mp new, List.mem_singleton] at inside
    exact inside ▸ stored

theorem pending_set (inv : Supplied P parseTime user s) {i : Nat} (front : List Json)
    {rest : List Json} (found : s.pending[i]? = some (front ++ rest)) :
    ∀ queue ∈ s.pending.set i rest, ∀ snapshot ∈ queue, P snapshot := by
  intro queue member snapshot inside
  rcases List.mem_or_eq_of_mem_set member with old | cut
  · exact inv.pending queue old snapshot inside
  · subst cut
    exact inv.pending _ (List.mem_of_getElem? found) snapshot (by simp [inside])

theorem supplied_step (left : ∀ snapshot, P snapshot → LeftByApp parse parseTime snapshot)
    (inv : Supplied P parseTime user s) {e : Event} (stays : StaysSignedIn e)
    (writes : ∀ snapshot, e = .write snapshot → P snapshot)
    (h : step parseTime s e = some s') : Supplied P parseTime user s' := by
  have readable : WritesReadable parseTime e := by
    cases e with
    | write shutterDevices => exact readable_left (left _ (writes _ rfl))
    | _ => trivial
  have converging := converging_step inv.converging stays readable h
  have next := step_cases h
  cases e with
  | signIn uid => exact stays.elim
  | logout => exact stays.elim
  | showHome =>
    simp only at next
    subst next
    refine ⟨converging, ?_, ?_, ?_⟩
    · unfold App.put
      split
      · exact inv.stored
      · exact inv.stored
    · unfold App.put
      split
      · exact inv.pending
      · exact pending_listen (s := { s with created := true }) inv.stored inv.pending
    · simpa only [put_devices, put_handledFor] using inv.shown
  | hideHome =>
    simp only at next
    subst next
    exact ⟨converging, inv.stored, inv.pending, inv.shown⟩
  | listenForDeviceChanges =>
    simp only at next
    subst next
    exact ⟨converging, inv.stored, pending_listen inv.stored inv.pending, inv.shown⟩
  | write shutterDevices =>
    simp only at next
    subst next
    refine ⟨converging, writes _ rfl, ?_, inv.shown⟩
    intro queue member snapshot inside
    obtain ⟨before, old, rfl⟩ := List.mem_map.mp member
    rcases List.mem_append.mp inside with earlier | now
    · exact inv.pending before old snapshot earlier
    · rw [List.mem_singleton.mp now]
      exact writes _ rfl
  | deliver i =>
    obtain ⟨snapshot, rest, found, rfl⟩ := next
    have handed := inv.pending _ (List.mem_of_getElem? found) snapshot (by simp)
    refine ⟨converging, inv.stored, pending_set inv [snapshot] found, Or.inr ⟨snapshot, handed, ?_⟩⟩
    intro lang
    have listed := onDevices_readable (readable_left (left _ handed)) (some user)
    simp only [inv.converging.user]
    exact shows_of_lists lang (sound_left (left _ handed)) listed
  | skip i =>
    obtain ⟨old, later, rest, found, rfl⟩ := next
    exact ⟨converging, inv.stored, pending_set inv [old] found, inv.shown⟩

theorem supplied_launched {shutterDevices : Json} (left : LeftByApp parse parseTime shutterDevices)
    (stored : P shutterDevices) :
    Supplied P parseTime user (launched (some user) shutterDevices) := by
  refine ⟨⟨rfl, ?_, readable_left left, ?_, ?_⟩, stored, ?_, Or.inl ⟨rfl, rfl⟩⟩ <;>
    simp [launched]

theorem supplied_mono {Q : Json → Prop} (weaker : ∀ snapshot, P snapshot → Q snapshot)
    (inv : Supplied P parseTime user s) : Supplied Q parseTime user s := by
  refine ⟨inv.converging, weaker _ inv.stored,
    fun queue member snapshot inside => weaker _ (inv.pending queue member snapshot inside), ?_⟩
  rcases inv.shown with nothing | ⟨snapshot, holds, shown⟩
  · exact Or.inl nothing
  · exact Or.inr ⟨snapshot, weaker _ holds, shown⟩

theorem supplied_shows (inv : Supplied P parseTime user s) (lang : Language) :
    s.devices = [] ∧ s.handledFor = none ∨ ∃ snapshot, P snapshot ∧
      ShowsHome lang user (homeOf snapshot) (homeScreen lang s.devices) := by
  rcases inv.shown with nothing | ⟨snapshot, stored, shown⟩
  · exact Or.inl nothing
  · exact Or.inr ⟨snapshot, stored, shown lang⟩

theorem supplied_lists (inv : Supplied P parseTime user s) (subscribed : s.pending ≠ [])
    (handled : ∀ queue ∈ s.pending, queue = []) :
    Lists parseTime (some user) s.shutterDevices s.devices := by
  rcases inv.converging.settled subscribed with ⟨queue, member, waiting⟩ | listed
  · exact absurd (handled queue member) waiting
  · exact listed

theorem supplied_settled (left : LeftByApp parse parseTime s.shutterDevices)
    (inv : Supplied P parseTime user s) (subscribed : s.pending ≠ [])
    (handled : ∀ queue ∈ s.pending, queue = []) (lang : Language) :
    ShowsHome lang user (homeOf s.shutterDevices) (homeScreen lang s.devices) :=
  shows_of_lists lang (sound_left left) (supplied_lists inv subscribed handled)

theorem supplied_run {shutterDevices : Json} {events : List Event}
    (left : ∀ snapshot, StoredIn shutterDevices events snapshot →
      LeftByApp parse parseTime snapshot)
    (stays : ∀ e ∈ events, StaysSignedIn e)
    (ran : run (step parseTime) (launched (some user) shutterDevices) events = some s) :
    Supplied (StoredIn shutterDevices events) parseTime user s := by
  have first : Supplied (StoredIn shutterDevices events) parseTime user
      (launched (some user) shutterDevices) :=
    supplied_launched (left shutterDevices (Or.inl rfl)) (Or.inl rfl)
  have along : Along (step parseTime) (fun _ e => StaysSignedIn e ∧ e ∈ events)
      (launched (some user) shutterDevices) events :=
    along_of_all (fun e member _ => ⟨stays e member, member⟩) _
  refine run_invariant (Supplied (StoredIn shutterDevices events) parseTime user) ?_ first along ran
  intro s e s' inv condition h
  exact supplied_step left inv condition.1 (fun _ same => Or.inr (same ▸ condition.2)) h

end Step

/-- In every state of a signed-in user's app the screen shows, in either language, nothing yet or
    the user's cards of one home that was stored, never a mixture of two; with nothing left to
    handle it is the home that is stored now. -/
theorem screen_shows_home {user : String} {shutterDevices : Json} {events : List Event}
    (left : ∀ snapshot, StoredIn shutterDevices events snapshot →
      LeftByApp parse parseTime snapshot)
    (stays : ∀ e ∈ events, StaysSignedIn e) {s : App}
    (ran : run (step parseTime) (launched (some user) shutterDevices) events = some s)
    (lang : Language) :
    (s.devices = [] ∧ s.handledFor = none ∨ ∃ snapshot, StoredIn shutterDevices events snapshot ∧
      ShowsHome lang user (homeOf snapshot) (homeScreen lang s.devices)) ∧
    (s.pending ≠ [] → (∀ queue ∈ s.pending, queue = []) →
      ShowsHome lang user (homeOf s.shutterDevices) (homeScreen lang s.devices)) := by
  have inv := supplied_run left stays ran
  exact ⟨supplied_shows inv lang, fun subscribed handled =>
    supplied_settled (left _ inv.stored) inv subscribed handled lang⟩

def afterRegistration : Json := .branch [(newDeviceId salon, record salon ada noon)]

/-- The dashboard is open when the registration's write reaches it. -/
def registeredWhileShown : List Event :=
  [.showHome, .write afterRegistration, .deliver 0, .deliver 0]

theorem registration_shown : ∃ s : App,
    run (step readNoon) (launched (some "uid-1") Node.null) registeredWhileShown = some s ∧
    (s.devices = [] ∧ s.handledFor = none ∨
      ∃ snapshot, StoredIn Node.null registeredWhileShown snapshot ∧
        ShowsHome .it "uid-1" (homeOf snapshot) (homeScreen .it s.devices)) ∧
    (s.pending ≠ [] → (∀ queue ∈ s.pending, queue = []) →
      ShowsHome .it "uid-1" (homeOf s.shutterDevices) (homeScreen .it s.devices)) := by
  have goes : ∃ s, run (step readNoon) (launched (some "uid-1") Node.null) registeredWhileShown =
    some s := ⟨_, rfl⟩
  obtain ⟨s, ran⟩ := goes
  have left : ∀ snapshot, StoredIn Node.null registeredWhileShown snapshot →
      LeftByApp (fun _ => none) readNoon snapshot := by
    intro snapshot stored
    rcases stored with rfl | written
    · exact ⟨Node.null, [], ⟨Node.null, []⟩, rfl, by simp, rfl, rfl⟩
    · simp only [registeredWhileShown, List.mem_cons, reduceCtorEq, Event.write.injEq,
        List.not_mem_nil, or_false, false_or] at written
      subst written
      refine ⟨Node.null, [.start (.saveShutterDevice salon salon_segment ada noon), .answer 0], _,
        rfl, ?_, rfl, rfl⟩
      intro op member
      simp only [List.mem_cons, Interleaving.Move.start.injEq, reduceCtorEq, List.not_mem_nil,
        or_false] at member
      subst member
      exact ⟨noon, rfl⟩
  have stays : ∀ e ∈ registeredWhileShown, StaysSignedIn e := by
    simp [registeredWhileShown, StaysSignedIn]
  exact ⟨s, ran, screen_shows_home left stays ran .it⟩

end Settled
end Cards
