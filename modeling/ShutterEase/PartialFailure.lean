import ShutterEase.BulkCommands
import ShutterEase.ScheduleController

/-!
The operations that update several records, when one of their updates is refused. Each is a
loop of awaited updates inside one catch: the updates before the refused one stay, the error
is reported, and the later ones are never sent.
-/
namespace PartialFailure
open KeyedTree Resumption Firebase AccountDevices CommandsController AutoPlayController
open ScheduleController Operations BulkCommands

/-- A service that answers `left` more updates and refuses the next with `e`. -/
def refusing (e : String) : DbCall → Json × Nat → Except String ((Json × Nat) × Json)
  | .get path, (db, left) => .ok ((db, left), db.get path)
  | .set path value, (db, left) => .ok ((db.set path value, left), .null)
  | .update _ _, (_, 0) => .error e
  | .update path fields, (db, left + 1) => .ok ((db.update path fields, left), .null)
  | .remove path, (db, left) => .ok ((db.remove path, left), .null)

inductive Several where
  | bulk (command : Bulk) (user : Option String)
  | updateAutoPlayStatus (user : Option String) (isEnabled : Bool)
  | updateAutoPlayTime (user : Option String) (time : String)
  | saveSchedule (device : DeviceId) (lang shown : Language) (rows : Fin 7 → Times)

def Several.program : Several → Act Unit
  | .bulk command user => command.program user
  | .updateAutoPlayStatus user isEnabled =>
    AutoPlayController.updateAutoPlayStatus user isEnabled
  | .updateAutoPlayTime user time => AutoPlayController.updateAutoPlayTime user time
  | .saveSchedule device lang shown rows =>
    ScheduleController.saveSchedule device.1 lang shown rows

abbrev Update := List String × List (String × Json)

def deviceUpdates (fields : List (String × Json)) (devices : List (String × Json)) :
    List Update := devices.map fun device => (["ShutterDevices", device.1], fields)

def dayUpdates (scheduleRef : List String) (lang : Language) (rows : Fin 7 → Times)
    (l : List (Fin 7)) : List Update :=
  l.map fun i => (scheduleRef ++ [days lang i], (newSchedule (days lang i) (rows i)).toJson)

/-- The updates an operation sets out to make, in order. -/
def Several.updates (db : Json) : Several → List Update
  | .bulk command user =>
    deviceUpdates command.fields (userDevices user (db.child "ShutterDevices"))
  | .updateAutoPlayStatus user isEnabled =>
    deviceUpdates [("autoPlay", Json.bool isEnabled)] (userDevices user (db.child "ShutterDevices"))
  | .updateAutoPlayTime user time =>
    deviceUpdates [("autoPlayTime", Json.str time)] (userDevices user (db.child "ShutterDevices"))
  | .saveSchedule device lang _ rows =>
    dayUpdates ["ShutterDevices", device.1, "Schedule"] lang rows (List.finRange 7)

def ErrorReported (shown : List Ui) : Prop := ∃ message, Ui.showErrorSnackbar message ∈ shown

def SuccessReported (shown : List Ui) : Prop :=
  (∃ title message, Ui.showSuccessSnackkbar title message ∈ shown) ∨
    ∃ message, Ui.showSuccessToast message ∈ shown

/-- The operation with nobody else writing, its update after the first `n` refused. -/
def attempt (op : Several) (n : Nat) (e : String) (db : Json) :
    Outcome (Json × Nat) Ui (Except String Unit) :=
  op.program.play (refusing e) (db, n)

def Updated (u : Update) (before after : Json) : Prop :=
  after.get u.1 = (before.get u.1).merge u.2

/-- A refused update leaves nothing behind, and a reported success has left nothing out. -/
def AllOrNothing (op : Several) (n : Nat) (e : String) (db : Json) : Prop :=
  let out := attempt op n e db
  (n < (op.updates db).length → ErrorReported out.output → out.state.1 = db) ∧
    (SuccessReported out.output → ∀ u ∈ op.updates db, Updated u db out.state.1)

section Loop
variable (e : String)

/-- Both loops of the source: an awaited update, and what is shown after it. -/
def sendEach (shown : List Ui) : List Update → Act Unit
  | [] => pure ()
  | u :: rest => do
    update u.1 u.2
    performAll shown
    sendEach shown rest

theorem updateEach_eq (fields : List (String × Json)) (shown : List Ui)
    (devices : List (String × Json)) :
    updateEach fields shown devices = sendEach shown (deviceUpdates fields devices) := by
  induction devices with
  | nil => rfl
  | cons device rest ih =>
    simp only [updateEach, deviceUpdates, List.map_cons, sendEach]
    rw [ih]
    rfl

theorem saveDays_eq (scheduleRef : List String) (lang : Language) (rows : Fin 7 → Times)
    (l : List (Fin 7)) :
    saveDays scheduleRef lang rows l = sendEach [] (dayUpdates scheduleRef lang rows l) := by
  induction l with
  | nil => rfl
  | cons i rest ih =>
    simp only [saveDays, dayUpdates, List.map_cons, sendEach]
    rw [ih]
    rfl

@[simp] theorem play_perform (o : Ui) (s : Json × Nat) :
    (perform o).play (refusing e) s = ⟨s, [o], .ok ()⟩ := rfl

@[simp] theorem play_get (path : List String) (s : Json × Nat) :
    (get path).play (refusing e) s = ⟨s, [], .ok (s.1.get path)⟩ := rfl

theorem play_performAll (shown : List Ui) (s : Json × Nat) :
    (performAll shown).play (refusing e) s = ⟨s, shown, .ok ()⟩ := by
  induction shown with
  | nil => rfl
  | cons o rest ih => simp [performAll, Action.play_bind, ih]

/-- The loop ends at the refused update, or ends well when none of its updates is refused. -/
theorem play_sendEach (shown : List Ui) (updates : List Update) (db : Json) (left : Nat) :
    (sendEach shown updates).play (refusing e) (db, left) =
      if left < updates.length then
        ⟨(db.updateAll (updates.take left), 0), (List.replicate left shown).flatten, .error e⟩
      else ⟨(db.updateAll updates, left - updates.length),
        (List.replicate updates.length shown).flatten, .ok ()⟩ := by
  induction updates generalizing db left with
  | nil => simp [sendEach, Node.updateAll]
  | cons u rest ih =>
    cases left with
    | zero =>
      have refused : (update u.1 u.2).play (refusing e) (db, 0) = ⟨(db, 0), [], .error e⟩ := rfl
      simp [sendEach, Action.play_bind, refused, Node.updateAll]
    | succ left =>
      have sent : (update u.1 u.2).play (refusing e) (db, left + 1) =
          ⟨(db.update u.1 u.2, left), [], .ok ()⟩ := rfl
      simp only [sendEach, Action.play_bind, sent, play_performAll, ih]
      by_cases more : left < rest.length
      · simp [more, Node.updateAll, List.replicate_succ]
      · simp [more, Node.updateAll, List.replicate_succ]

end Loop

section Operations
variable (n : Nat) (e : String) (db : Json)

/-- What an attempt leaves in the database and reports. -/
def Stops (op : Several) (n : Nat) (e : String) (db : Json) : Prop :=
  let out := attempt op n e db
  let all := op.updates db
  (n < all.length → out.state.1 = db.updateAll (all.take n) ∧ ErrorReported out.output ∧
    ((∀ user isEnabled, op ≠ .updateAutoPlayStatus user isEnabled) →
      ¬ SuccessReported out.output)) ∧
  (all.length ≤ n → out.state.1 = db.updateAll all)

theorem stops_bulk (command : Bulk) (user : Option String) : Stops (.bulk command user) n e db := by
  obtain ⟨c, same, fields⟩ := bulk_command command
  unfold Stops attempt
  simp only [Several.program, Several.updates, same, ← fields]
  have loop := play_sendEach e [] (deviceUpdates c.fields
    (userDevices user (db.child "ShutterDevices"))) db n
  rw [← updateEach_eq] at loop
  simp only [bulkCommand, Action.play_tryCatch, Action.play_bind, play_perform, play_get,
    Node.get_cons, Node.get_nil]
  cases devices : userDevices user (db.child "ShutterDevices") with
  | nil => simp [deviceUpdates, Node.updateAll, Action.play_bind]
  | cons device rest =>
    rw [devices] at loop
    simp only [Action.play_bind, loop]
    by_cases refused : n < (deviceUpdates c.fields (device :: rest)).length
    · simp [refused, ErrorReported, SuccessReported]
    · simp [refused]

/-- The one loop that shows its success after each device. -/
theorem stops_updateAutoPlayStatus (user : Option String) (isEnabled : Bool) :
    Stops (.updateAutoPlayStatus user isEnabled) n e db := by
  unfold Stops attempt
  simp only [Several.program, Several.updates]
  have loop := play_sendEach e [.showSuccessToast "Auto Play status is updated"]
    (deviceUpdates [("autoPlay", Json.bool isEnabled)]
      (userDevices user (db.child "ShutterDevices"))) db n
  rw [← updateEach_eq] at loop
  simp only [AutoPlayController.updateAutoPlayStatus, Action.play_tryCatch, Action.play_bind,
    play_get, Node.get_cons, Node.get_nil, loop]
  by_cases refused : n < (deviceUpdates [("autoPlay", Json.bool isEnabled)]
      (userDevices user (db.child "ShutterDevices"))).length
  · simp [refused, ErrorReported]
  · simp [refused]

theorem stops_updateAutoPlayTime (user : Option String) (time : String) :
    Stops (.updateAutoPlayTime user time) n e db := by
  unfold Stops attempt
  simp only [Several.program, Several.updates]
  have loop := play_sendEach e [] (deviceUpdates [("autoPlayTime", Json.str time)]
    (userDevices user (db.child "ShutterDevices"))) db n
  rw [← updateEach_eq] at loop
  simp only [AutoPlayController.updateAutoPlayTime, Action.play_tryCatch, Action.play_bind,
    play_get, Node.get_cons, Node.get_nil]
  cases devices : userDevices user (db.child "ShutterDevices") with
  | nil => simp [deviceUpdates, Node.updateAll]
  | cons device rest =>
    rw [devices] at loop
    simp only [Action.play_bind, loop]
    by_cases refused : n < (deviceUpdates [("autoPlayTime", Json.str time)]
        (device :: rest)).length
    · simp [refused, ErrorReported, SuccessReported]
    · simp [refused]

theorem stops_saveSchedule (device : DeviceId) (lang shown : Language) (rows : Fin 7 → Times) :
    Stops (.saveSchedule device lang shown rows) n e db := by
  unfold Stops attempt
  simp only [Several.program, Several.updates]
  have loop := play_sendEach e [] (dayUpdates ["ShutterDevices", device.1, "Schedule"] lang
    rows (List.finRange 7)) db n
  rw [← saveDays_eq] at loop
  simp only [ScheduleController.saveSchedule, ref, ref_schedulePath device.2,
    Action.play_tryCatch, Action.play_bind, Action.play_lift, play_perform, loop]
  by_cases refused : n < (dayUpdates ["ShutterDevices", device.1, "Schedule"] lang rows
      (List.finRange 7)).length
  · simp [refused, ErrorReported, SuccessReported]
  · simp [refused]

theorem stops (op : Several) : Stops op n e db := by
  cases op with
  | bulk command user => exact stops_bulk n e db command user
  | updateAutoPlayStatus user isEnabled => exact stops_updateAutoPlayStatus n e db user isEnabled
  | updateAutoPlayTime user time => exact stops_updateAutoPlayTime n e db user time
  | saveSchedule device lang shown rows => exact stops_saveSchedule n e db device lang shown rows

theorem deviceUpdates_parted (fields : List (String × Json)) (user : Option String)
    (shutterDevices : Json) : (deviceUpdates fields (userDevices user shutterDevices)).Pairwise
      fun u v => Apart u.1 v.1 := by
  have distinct := userDevices_keys_nodup user shutterDevices
  rw [List.Nodup, List.pairwise_map] at distinct
  rw [deviceUpdates, List.pairwise_map]
  apply distinct.imp
  intro a b ne
  exact apart_below _ (apart_here ne [] [])

/-- The updates of an operation go to different places. -/
theorem updates_parted (op : Several) :
    (op.updates db).Pairwise fun u v => Apart u.1 v.1 := by
  cases op with
  | bulk command user => exact deviceUpdates_parted _ user _
  | updateAutoPlayStatus user isEnabled => exact deviceUpdates_parted _ user _
  | updateAutoPlayTime user time => exact deviceUpdates_parted _ user _
  | saveSchedule device lang shown rows =>
    simp only [Several.updates, dayUpdates]
    rw [List.pairwise_map]
    apply (List.nodup_finRange 7).imp
    intro i j ne
    have names : days lang i ≠ days lang j := fun eq => ne (days_injective lang i j eq)
    exact apart_below _ (apart_below _ (apart_below _ (apart_here names [] [])))

/-- With the update after the first `n` refused, the error is reported, the first `n` records
    are updated and nothing else is changed; and a success without an error, or any success of
    an operation that reports it once, means that every record is updated. -/
theorem failure_keeps_first_updates (op : Several) :
    let out := attempt op n e db
    (n < (op.updates db).length → ErrorReported out.output ∧
      (∀ u ∈ (op.updates db).take n, Updated u db out.state.1) ∧
      ∀ path, (∀ u ∈ (op.updates db).take n, Apart u.1 path) →
        out.state.1.get path = db.get path) ∧
    (SuccessReported out.output → (∀ user isEnabled, op = .updateAutoPlayStatus user isEnabled →
        ¬ ErrorReported out.output) → ∀ u ∈ op.updates db, Updated u db out.state.1) := by
  intro out
  obtain ⟨refused, answered⟩ := stops n e db op
  have parted := updates_parted db op
  constructor
  · intro short
    obtain ⟨state, reported, -⟩ := refused short
    refine ⟨reported, ?_, ?_⟩
    · intro u member
      rw [Updated, state]
      exact Node.get_updateAll_member (parted.sublist (List.take_sublist n _)) member db
    · intro path apart
      rw [state]
      exact Node.get_updateAll_apart apart db
  · intro success silent u member
    by_cases short : n < (op.updates db).length
    · obtain ⟨-, reported, quiet⟩ := refused short
      by_cases status : ∃ user isEnabled, op = .updateAutoPlayStatus user isEnabled
      · obtain ⟨user, isEnabled, same⟩ := status
        exact absurd reported (silent user isEnabled same)
      · refine absurd success (quiet ?_)
        intro user isEnabled same
        exact status ⟨user, isEnabled, same⟩
    · rw [Updated, answered (by omega)]
      exact Node.get_updateAll_member parted member db

end Operations

section Torn

def twoOpen : Json := .branch [("ShutterDevices", .branch
  [("001122334455", .branch [("userId", Json.str "uid-1"), ("shutterIconStatus", Json.bool true)]),
    ("A0B1C2D3E4F5", .branch [("userId", Json.str "uid-1"),
      ("shutterIconStatus", Json.bool true)])])]

/-- The second update of `closeAll` is refused: one shutter is closed, the other is not. -/
theorem closeAll_torn :
    ¬ AllOrNothing (.bulk .closeAll (some "uid-1")) 1 "network error" twoOpen := by
  intro whole
  obtain ⟨refused, -⟩ := stops 1 "network error" twoOpen (.bulk .closeAll (some "uid-1"))
  obtain ⟨state, reported, -⟩ := refused (by decide)
  have unchanged := whole.1 (by decide) reported
  rw [state] at unchanged
  have first := congrArg (fun db : Json =>
    (db.get ["ShutterDevices", "001122334455", "shutterIconStatus"]).value?) unchanged
  exact absurd first (by decide)

end Torn
end PartialFailure
