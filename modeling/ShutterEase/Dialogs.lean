import ShutterEase.DartInt
import ShutterEase.Deletion
import ShutterEase.RecordTypes

/-!
The two dialogs of a room card. Each copies the record when it is opened, takes the user's
edits, and writes its whole form at once, whatever other clients have written meanwhile.
-/
namespace Dialogs
open KeyedTree Resumption Interleaving Runs Firebase FirebasePath ShutterModels DeviceController
open Operations Ownership Deletion DeviceSchema DartText DartInt

section Forms
variable {φ α : Type} [DecidableEq φ]

/-- The state after the handlers of the edits have run in order. -/
def edited (form : φ → α) (edits : List (φ × α)) : φ → α :=
  edits.foldl (fun form edit => Function.update form edit.1 edit.2) form

/-- What the user last put into the field. -/
def lastEdit (field : φ) : List (φ × α) → Option α
  | [] => none
  | edit :: rest =>
    match lastEdit field rest with
    | some value => some value
    | none => if edit.1 = field then some edit.2 else none

theorem edited_apply (form : φ → α) (edits : List (φ × α)) (field : φ) :
    edited form edits field = (lastEdit field edits).getD (form field) := by
  induction edits generalizing form with
  | nil => rfl
  | cons edit rest ih =>
    have later := ih (Function.update form edit.1 edit.2)
    change edited (Function.update form edit.1 edit.2) rest field = _
    rw [later, lastEdit]
    cases lastEdit field rest with
    | some value => rfl
    | none =>
      by_cases here : edit.1 = field
      · subst here
        simp
      · simp [here, Function.update_of_ne (Ne.symm here)]

theorem lastEdit_untouched {field : φ} {edits : List (φ × α)}
    (untouched : field ∉ edits.map Prod.fst) : lastEdit field edits = none := by
  induction edits with
  | nil => rfl
  | cons edit rest ih =>
    simp only [List.map_cons, List.mem_cons, not_or] at untouched
    rw [lastEdit, ih untouched.2]
    simp only
    exact if_neg (Ne.symm untouched.1)

end Forms

section Pressed
variable {parse : String → Option AutoPlayController.TimeOfDay} {s t pressed : System}

/-- The client started by a press makes no call but those of its operation. -/
theorem issues_pressed {P : DbCall → Prop} {op : Operation}
    (only : Issues P (program parse op)) {moves : List (Move Operation String)}
    (ran : run (step parse) pressed (.start op :: moves) = some s) :
    ∃ q, s.clients[pressed.clients.length]? = some q ∧ Issues P q := by
  obtain ⟨u, here, rest⟩ := run_cons ran
  simp only [step, Pool.step, Option.some.injEq] at here
  have own : ∃ q, u.clients[pressed.clients.length]? = some q ∧ Issues P q := by
    subst here
    exact ⟨_, List.getElem?_concat_length, only⟩
  have along : Along (step parse) (fun _ _ => True) u moves := along_of_all (fun _ _ _ => trivial) u
  exact run_invariant (fun v : System => ∃ q, v.clients[pressed.clients.length]? = some q ∧
    Issues P q) (fun v m v' holds _ h => stepped_issues_at holds (step_cases h)) own along rest

/-- Whatever ran in between, the answered write of a press is the one its operation makes. -/
theorem answered_pressed {op : Operation} {path : List String} {fields : List (String × Json)}
    (only : Issues (· = .update path fields) (program parse op))
    {moves : List (Move Operation String)}
    (ran : run (step parse) pressed (.start op :: moves) = some s)
    (answered : step parse s (.answer pressed.clients.length) = some t) :
    t.store = s.store.update path fields := by
  obtain ⟨q, at_q, issues⟩ := issues_pressed only ran
  generalize pressed.clients.length = i at at_q answered
  cases step_cases answered with
  | answered waits served =>
    obtain ⟨q', at_q', next⟩ := waits
    rw [at_q, Option.some.injEq] at at_q'
    subst at_q'
    have call := (issues_awaited issues next).1
    subst call
    simp only [respond, serve, Except.ok.injEq, Prod.mk.injEq] at served
    exact served.1.symm
  | @refused _ c k e _ waits why =>
    rcases why with failed | ⟨-, refused⟩
    · simp at failed
    · obtain ⟨db, reply, served⟩ := respond_ok c s.store
      rw [served] at refused
      cases refused

end Pressed

section Writes
variable {φ α : Type} [DecidableEq φ] {key : φ → String} {entered : φ → α → Json}
    {copied : φ → Json} {edits : List (φ × α)} {d : DeviceId} {s t : System}

/-- What a dialog's write leaves: the edited fields as entered, the others as copied when the
    dialog was opened. So these keep their value exactly when it is still the copied one. -/
structure WritesForm (key : φ → String) (entered : φ → α → Json) (copied : φ → Json)
    (edits : List (φ × α)) (d : DeviceId) (s t : System) : Prop where
  edited : ∀ f v, lastEdit f edits = some v → (deviceNode t.store d.1).child (key f) = entered f v
  unedited : ∀ f, f ∉ edits.map Prod.fst → (deviceNode t.store d.1).child (key f) = copied f
  kept : ∀ f, f ∉ edits.map Prod.fst →
    ((deviceNode t.store d.1).child (key f) = (deviceNode s.store d.1).child (key f) ↔
      (deviceNode s.store d.1).child (key f) = copied f)
  others : ∀ name, (∀ f, name ≠ key f) →
    (deviceNode t.store d.1).child name = (deviceNode s.store d.1).child name
  elsewhere : ∀ q, Apart ["ShutterDevices", d.1] q → t.store.get q = s.store.get q

theorem writesForm_of_update {all : List φ} {value : φ → Json}
    (wrote : t.store =
      s.store.update ["ShutterDevices", d.1] (all.map fun f => (key f, value f)))
    (complete : ∀ f, f ∈ all) (distinct : (all.map key).Nodup)
    (new : ∀ f v, lastEdit f edits = some v → value f = entered f v)
    (old : ∀ f, lastEdit f edits = none → value f = copied f) :
    WritesForm key entered copied edits d s t := by
  have after : deviceNode t.store d.1 =
      (deviceNode s.store d.1).merge (all.map fun f => (key f, value f)) := by
    rw [wrote]
    exact Node.get_update_same s.store ["ShutterDevices", d.1] _
  have written : ∀ f, (deviceNode t.store d.1).child (key f) = value f := by
    intro f
    rw [after]
    apply Node.child_merge_written
    · simpa [Function.comp_def] using distinct
    · exact List.mem_map.mpr ⟨f, complete f, rfl⟩
  have unedited : ∀ f, f ∉ edits.map Prod.fst →
      (deviceNode t.store d.1).child (key f) = copied f := by
    intro f untouched
    rw [written, old f (lastEdit_untouched untouched)]
  constructor
  · intro f v last
    rw [written, new f v last]
  · exact unedited
  · intro f untouched
    rw [unedited f untouched]
    exact eq_comm
  · intro name other
    rw [after]
    apply Node.child_merge_other
    intro member
    obtain ⟨e, listed, same⟩ := List.mem_map.mp member
    obtain ⟨f, -, made⟩ := List.mem_map.mp listed
    subst made
    exact other f same.symm
  · intro q apart
    rw [wrote]
    exact Node.get_update_apart apart s.store _

end Writes

theorem issues_guarded {device : DeviceId} {fields : List (String × Json)} {shown : Act Unit}
    {handle : String → Act Unit} (told : Quiet shown) (handled : ∀ e, Quiet (handle e)) :
    Issues (· = .update ["ShutterDevices", device.1] fields) (Action.tryCatch (do
      let deviceRef ← ref (devicePath device.1)
      update deviceRef fields
      shown) handle) := by
  have opens := opens_guarded (F := (· = .update ["ShutterDevices", device.1] fields))
    (Q := fun _ _ _ => False) rfl told handled
  exact issues_of_opens opens (fun _ first => first) fun _ _ _ _ no => no.elim

section EditDevice

inductive Switch where
  | status
  | fCrep
  | fAuto
  | aParz
  | calender
  deriving DecidableEq, Repr

def Switch.key : Switch → String
  | .status => "deviceStatus"
  | .fCrep => "fCrep"
  | .fAuto => "fAuto"
  | .aParz => "aParz"
  | .calender => "calenderStatus"

def initialSwitches (device : ShutterDeviceModel) : Switch → Bool
  | .status => device.deviceStatus = some true
  | .fCrep => device.fCrep = some true
  | .fAuto => device.fAuto = some true
  | .aParz => device.aParz = some true
  | .calender => device.calenderStatus = some true

def onUpdate (device : DeviceId) (form : Switch → Bool) : Operation :=
  .updateDevice device (form .status) (form .fCrep) (form .fAuto) (form .aParz) (form .calender)

def isOn : Json → Bool
  | .leaf (.bool b) => b
  | _ => false

variable {parseTime : String → Except String DateTime}
    {parse : String → Option AutoPlayController.TimeOfDay}

theorem isOn_of_cast {json : Json} {stored : Option Bool} (cast : asBool? json = .ok stored) :
    isOn json = decide (stored = some true) := by
  unfold asBool? at cast
  split at cast
  · cases cast
    rfl
  · rename_i b
    cases cast
    cases b <;> rfl
  · simp at cast

theorem initialSwitches_record {record : Json} {device : ShutterDeviceModel}
    (decoded : ShutterDeviceModel.fromJson parseTime record = .ok device) (f : Switch) :
    initialSwitches device f = isOn (record.child f.key) := by
  obtain ⟨status, fCrep, fAuto, aParz, calender⟩ := fromJson_flags decoded
  cases f with
  | status => exact (isOn_of_cast status).symm
  | fCrep => exact (isOn_of_cast fCrep).symm
  | fAuto => exact (isOn_of_cast fAuto).symm
  | aParz => exact (isOn_of_cast aParz).symm
  | calender => exact (isOn_of_cast calender).symm

def switches : List Switch := [.status, .fCrep, .fAuto, .aParz, .calender]

theorem issues_onUpdate (device : DeviceId) (form : Switch → Bool) :
    Issues (· = .update ["ShutterDevices", device.1]
      (switches.map fun f => (f.key, Json.bool (form f)))) (program parse (onUpdate device form)) :=
  issues_guarded (quiet_perform_then (quiet_perform _)) fun _ => quiet_perform _

theorem editDevice_writes {record : Json} {device : ShutterDeviceModel}
    (decoded : ShutterDeviceModel.fromJson parseTime record = .ok device)
    {edits : List (Switch × Bool)} {d : DeviceId} {pressed s t : System}
    {moves : List (Move Operation String)}
    (ran : run (step parse) pressed
      (.start (onUpdate d (edited (initialSwitches device) edits)) :: moves) = some s)
    (answered : step parse s (.answer pressed.clients.length) = some t) :
    WritesForm Switch.key (fun _ on => Json.bool on)
      (fun f => Json.bool (isOn (record.child f.key))) edits d s t := by
  have wrote := answered_pressed (issues_onUpdate d _) ran answered
  apply writesForm_of_update wrote
  · intro f
    cases f <;> decide
  · decide
  · intro f on last
    rw [edited_apply, last]
    rfl
  · intro f untouched
    rw [edited_apply, untouched, Option.getD_none, initialSwitches_record decoded]

end EditDevice

section NewData

inductive NewField where
  | sleepTime
  | openingEffort1
  | openingEffort2
  | openingEffort3
  | closingEffort1
  | closingEffort2
  | closingEffort3
  | deviceName
  deriving DecidableEq, Repr

def NewField.key : NewField → String
  | .sleepTime => "sleepTime"
  | .openingEffort1 => "openingEffort1"
  | .openingEffort2 => "openingEffort2"
  | .openingEffort3 => "openingEffort3"
  | .closingEffort1 => "closingEffort1"
  | .closingEffort2 => "closingEffort2"
  | .closingEffort3 => "closingEffort3"
  | .deviceName => "deviceName"

/-- `value?.toString() ?? ''`. The text of a nested map is the platform's, `mapText`. -/
def textOf (mapText : Json → String) : Json → String
  | .branch [] => ""
  | .branch (e :: rest) => mapText (.branch (e :: rest))
  | .leaf (.bool b) => toString b
  | .leaf (.int i) => toString i
  | .leaf (.str s) => s

/-- The texts once the record has arrived. Without a record, or with one that is no map, they
    stay empty. -/
def fetchDeviceData (mapText : Json → String) (snapshot : Json) : NewField → String :=
  match asMap snapshot with
  | .ok data => fun f => textOf mapText (data.child f.key)
  | .error _ => fun _ => ""

/-- The tap on Save: the operation it starts, or the error it shows. -/
def onSave (deviceId : DeviceId) (texts : NewField → String) : Except String Operation :=
  let sleepTime := tryParse (trim (texts .sleepTime))
  let openingEffort1 := tryParse (trim (texts .openingEffort1))
  let openingEffort2 := tryParse (trim (texts .openingEffort2))
  let openingEffort3 := tryParse (trim (texts .openingEffort3))
  let closingEffort1 := tryParse (trim (texts .closingEffort1))
  let closingEffort2 := tryParse (trim (texts .closingEffort2))
  let closingEffort3 := tryParse (trim (texts .closingEffort3))
  let deviceName := trim (texts .deviceName)
  if sleepTime ≠ none ∧ openingEffort1 ≠ none ∧ openingEffort2 ≠ none ∧ openingEffort3 ≠ none ∧
      closingEffort1 ≠ none ∧ closingEffort2 ≠ none ∧ closingEffort3 ≠ none then
    .ok (.updateDeviceNewData deviceId sleepTime openingEffort1 openingEffort2 openingEffort3
      closingEffort1 closingEffort2 closingEffort3 (some deviceName))
  else .error "Please enter valid integer values."

/-- What a text stands for once it is saved. -/
def entered : NewField → String → Json
  | .deviceName, text => Json.str (trim text)
  | _, text => optionInt (tryParse (trim text))

def nameOf : Json → String
  | .leaf (.str s) => s
  | _ => ""

/-- What is saved for a field left alone. -/
def copied (snapshot : Json) : NewField → Json
  | .deviceName => Json.str (trim (nameOf (snapshot.child "deviceName")))
  | f => snapshot.child f.key

def newFields : List NewField :=
  [.sleepTime, .openingEffort1, .openingEffort2, .openingEffort3, .closingEffort1,
    .closingEffort2, .closingEffort3, .deviceName]

variable {parseTime : String → Except String DateTime}
    {parse : String → Option AutoPlayController.TimeOfDay} {mapText : Json → String}
    {snapshot : Json} {texts : NewField → String} {d : DeviceId} {op : Operation}

variable (parse) in
/-- Save starts the update of the eight fields only when the seven texts are integers. -/
theorem onSave_starts (saved : onSave d texts = .ok op) :
    (∀ f, f ≠ .deviceName → tryParse (trim (texts f)) ≠ none) ∧
      Issues (· = .update ["ShutterDevices", d.1]
        (newFields.map fun f => (f.key, entered f (texts f)))) (program parse op) := by
  unfold onSave at saved
  simp only at saved
  split at saved
  · rename_i valid
    cases saved
    constructor
    · intro f other
      cases f with
      | deviceName => exact absurd rfl other
      | _ => simp [valid]
    · exact issues_guarded (quiet_perform_then (quiet_perform _)) fun _ => quiet_perform _
  · cases saved

theorem onSave_valid (valid : ∀ f, f ≠ .deviceName → tryParse (trim (texts f)) ≠ none) :
    ∃ sleep o1 o2 o3 c1 c2 c3 name,
      onSave d texts = .ok (.updateDeviceNewData d sleep o1 o2 o3 c1 c2 c3 name) := by
  unfold onSave
  simp only
  rw [if_pos ⟨valid .sleepTime (by simp), valid .openingEffort1 (by simp),
    valid .openingEffort2 (by simp), valid .openingEffort3 (by simp),
    valid .closingEffort1 (by simp), valid .closingEffort2 (by simp),
    valid .closingEffort3 (by simp)⟩]
  exact ⟨_, _, _, _, _, _, _, _, rfl⟩

theorem newField_known (f : NewField) : indexKey f.key = none := by
  apply RecordTypes.known_not_index
  cases f <;> decide

theorem newField_kind {f : NewField} (other : f ≠ .deviceName) : (f.key, Kind.int) ∈ schema := by
  cases f with
  | deviceName => exact absurd rfl other
  | _ => decide

theorem child_of_no_map {e : String} (cast : asMap snapshot = .error e) (f : NewField) :
    snapshot.child f.key = Node.null := by
  by_contra there
  rw [asMap_of_child there (newField_known f)] at cast
  cases cast

theorem fetched_text (f : NewField) :
    fetchDeviceData mapText snapshot f = textOf mapText (snapshot.child f.key) := by
  cases cast : asMap snapshot with
  | ok data => simp only [fetchDeviceData, cast, asMap_eq cast]
  | error e =>
    simp only [fetchDeviceData, cast, child_of_no_map cast f]
    rfl

theorem name_of_text {json : Json} {stored : Option String} (cast : asString? json = .ok stored) :
    textOf mapText json = nameOf json := by
  unfold asString? at cast
  split at cast
  · rfl
  · rfl
  · cases cast

theorem number_of_text {json : Json} {stored : Option Int} (cast : asInt? json = .ok stored)
    (sized : ∀ i, json = Json.int i → IsInt64 i)
    (valid : tryParse (trim (textOf mapText json)) ≠ none) :
    optionInt (tryParse (trim (textOf mapText json))) = json := by
  unfold asInt? at cast
  split at cast
  · have empty : tryParse (trim "") = none := by decide
    exact absurd empty valid
  · rename_i i
    change optionInt (tryParse (trim (toString i))) = Json.int i
    rw [tryParse_trim, tryParse_toString (sized i rfl)]
    rfl
  · cases cast

/-- A copied text is saved as what it was copied from. -/
theorem entered_fetched {device : ShutterDeviceModel}
    (decoded : ShutterDeviceModel.fromJson parseTime snapshot = .ok device)
    (sized : ∀ f : NewField, ∀ i, snapshot.child f.key = Json.int i → IsInt64 i) {f : NewField}
    (valid : f ≠ .deviceName → tryParse (trim (fetchDeviceData mapText snapshot f)) ≠ none) :
    entered f (fetchDeviceData mapText snapshot f) = copied snapshot f := by
  have fits := fromJson_succeeds_iff.mp ⟨device, decoded⟩
  rw [fetched_text] at valid ⊢
  by_cases name : f = .deviceName
  · subst name
    obtain ⟨stored, cast⟩ : ∃ stored, asString? (snapshot.child "deviceName") = .ok stored :=
      fits ("deviceName", .string) (by decide)
    simp only [entered, copied, NewField.key, name_of_text cast]
  · obtain ⟨stored, cast⟩ : ∃ stored, asInt? (snapshot.child f.key) = .ok stored :=
      fits (f.key, .int) (newField_kind name)
    have number := number_of_text cast (sized f) (valid name)
    cases f with
    | deviceName => exact absurd rfl name
    | _ => exact number

theorem newData_writes {device : ShutterDeviceModel}
    (decoded : ShutterDeviceModel.fromJson parseTime snapshot = .ok device)
    (sized : ∀ f : NewField, ∀ i, snapshot.child f.key = Json.int i → IsInt64 i)
    {edits : List (NewField × String)}
    (saved : onSave d (edited (fetchDeviceData mapText snapshot) edits) = .ok op)
    {pressed s t : System} {moves : List (Move Operation String)}
    (ran : run (step parse) pressed (.start op :: moves) = some s)
    (answered : step parse s (.answer pressed.clients.length) = some t) :
    WritesForm NewField.key entered (copied snapshot) edits d s t := by
  obtain ⟨valid, issues⟩ := onSave_starts parse saved
  have wrote := answered_pressed issues ran answered
  apply writesForm_of_update wrote
  · intro f
    cases f <;> decide
  · decide
  · intro f text last
    rw [edited_apply, last]
    rfl
  · intro f untouched
    have copy := valid f
    rw [edited_apply, untouched, Option.getD_none] at copy ⊢
    exact entered_fetched decoded sized copy

end NewData

section Saving
variable (parse : String → Option AutoPlayController.TimeOfDay)
    (parseTime : String → Except String DateTime) (mapText : Json → String)

/-- Both dialogs, for every record they were opened with, all edits, and whatever other
    clients do before the press and between the press and its write. -/
theorem dialogs_write_their_forms :
    (∀ record device edits d pressed s t moves,
      ShutterDeviceModel.fromJson parseTime record = .ok device →
      run (step parse) pressed
        (.start (onUpdate d (edited (initialSwitches device) edits)) :: moves) = some s →
      step parse s (.answer pressed.clients.length) = some t →
      WritesForm Switch.key (fun _ on => Json.bool on)
        (fun f => Json.bool (isOn (record.child f.key))) edits d s t) ∧
    ∀ snapshot device edits d op pressed s t moves,
      ShutterDeviceModel.fromJson parseTime snapshot = .ok device →
      (∀ f : NewField, ∀ i, snapshot.child f.key = Json.int i → IsInt64 i) →
      onSave d (edited (fetchDeviceData mapText snapshot) edits) = .ok op →
      run (step parse) pressed (.start op :: moves) = some s →
      step parse s (.answer pressed.clients.length) = some t →
      WritesForm NewField.key entered (copied snapshot) edits d s t := by
  constructor
  · intro record device edits d pressed s t moves decoded ran answered
    exact editDevice_writes decoded ran answered
  · intro snapshot device edits d op pressed s t moves decoded sized saved ran answered
    exact newData_writes decoded sized saved ran answered

/-- The kitchen, its panel open. -/
def kitchen : Json := .branch [("deviceStatus", Json.bool true), ("userId", Json.str "uid-1")]

def kitchenOnly : Json := .branch [("ShutterDevices", .branch [(salonId.1, kitchen)])]

def kitchenModel : ShutterDeviceModel := { deviceStatus := some true, userId := some "uid-1" }

def creepOn : List (Switch × Bool) := [(.fCrep, true)]

/-- Another phone stops all devices while the dialog is open; then Update is pressed. -/
def stoppedMeanwhile : List (Move Operation String) :=
  [.start (.stopAll (some "uid-1")), .answer 0, .answer 0,
    .start (onUpdate salonId (edited (initialSwitches kitchenModel) creepOn))]

/-- A device whose seven efforts are set. -/
def cellar : Json := .branch [("closingEffort1", Json.int 4), ("closingEffort2", Json.int 5),
  ("closingEffort3", Json.int 6), ("deviceName", Json.str "Cellar"), ("openingEffort1", Json.int 1),
  ("openingEffort2", Json.int 2), ("openingEffort3", Json.int 3), ("sleepTime", Json.int 60)]

def sleepLonger : List (NewField × String) := [(.sleepTime, " 90 ")]

theorem cellar_decodes : ∃ device, ShutterDeviceModel.fromJson (fun _ => .error "") cellar =
    .ok device := by
  apply fromJson_succeeds_iff.mpr
  simp only [schema, List.forall_mem_cons, Kind.Fits]
  repeat' apply And.intro
  all_goals first | exact ⟨_, rfl⟩ | simp

theorem cellar_sized (f : NewField) (i : Int) (stored : cellar.child f.key = Json.int i) :
    IsInt64 i := by
  cases f <;> cases stored <;> decide

theorem dialogs_write_kitchen_and_cellar :
    (∃ s t : System, run (step noParse) ⟨kitchenOnly, []⟩
        [.start (onUpdate salonId (edited (initialSwitches kitchenModel) creepOn))] = some s ∧
      step noParse s (.answer 0) = some t ∧
      WritesForm Switch.key (fun _ on => Json.bool on)
        (fun f => Json.bool (isOn (kitchen.child f.key))) creepOn salonId s t) ∧
    ∃ op, onSave salonId (edited (fetchDeviceData (fun _ => "") cellar) sleepLonger) = .ok op ∧
      ∃ s t : System, run (step noParse) ⟨Node.null, []⟩ [.start op] = some s ∧
        step noParse s (.answer 0) = some t ∧
        WritesForm NewField.key entered (copied cellar) sleepLonger salonId s t := by
  have both := dialogs_write_their_forms noParse (fun _ => .error "") fun _ => ""
  constructor
  · have goes : ∃ s t : System, run (step noParse) ⟨kitchenOnly, []⟩
        [.start (onUpdate salonId (edited (initialSwitches kitchenModel) creepOn))] = some s ∧
        step noParse s (.answer 0) = some t := ⟨_, _, rfl, rfl⟩
    obtain ⟨s, t, ran, answered⟩ := goes
    exact ⟨s, t, ran, answered, both.1 kitchen kitchenModel creepOn salonId ⟨kitchenOnly, []⟩ s t
      [] rfl ran answered⟩
  · have valid : ∀ f, f ≠ .deviceName → tryParse (trim
        (edited (fetchDeviceData (fun _ => "") cellar) sleepLonger f)) ≠ none := by
      intro f other
      cases f with
      | deviceName => exact absurd rfl other
      | _ => decide
    obtain ⟨sleep, o1, o2, o3, c1, c2, c3, name, saved⟩ := onSave_valid (d := salonId) valid
    have goes : ∃ s t : System, run (step noParse) ⟨Node.null, []⟩
        [.start (.updateDeviceNewData salonId sleep o1 o2 o3 c1 c2 c3 name)] = some s ∧
        step noParse s (.answer 0) = some t := ⟨_, _, rfl, rfl⟩
    obtain ⟨s, t, ran, answered⟩ := goes
    obtain ⟨device, decoded⟩ := cellar_decodes
    exact ⟨_, saved, s, t, ran, answered, both.2 cellar device sleepLonger salonId _
      ⟨Node.null, []⟩ s t [] decoded cellar_sized saved ran answered⟩

/-- The panel that was stopped meanwhile is open again, though its switch was left alone. -/
theorem stop_reverted_by_dialog :
    ShutterDeviceModel.fromJson (fun _ => .error "") (deviceNode kitchenOnly salonId.1) =
      .ok kitchenModel ∧ Switch.status ∉ creepOn.map Prod.fst ∧
    ∃ s t : System, run (step noParse) ⟨kitchenOnly, []⟩ stoppedMeanwhile = some s ∧
      step noParse s (.answer 1) = some t ∧
      (deviceNode t.store salonId.1).child Switch.status.key ≠
        (deviceNode s.store salonId.1).child Switch.status.key := by
  refine ⟨rfl, by decide, _, _, rfl, rfl, ?_⟩
  intro same
  exact absurd (congrArg isOn same) (by decide)

end Saving
end Dialogs
