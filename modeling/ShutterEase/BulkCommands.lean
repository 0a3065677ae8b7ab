import ShutterEase.CommandsController
import ShutterEase.Ownership

/- Sequences of the eight bulk commands by one user with nobody else writing. Each flag of the
   user's devices ends as the last command that sets it left it; nothing else changes. -/
namespace BulkCommands
open KeyedTree Resumption Firebase AccountDevices CommandsController Ownership

inductive Bulk where
  | openAll
  | closeAll
  | playAll
  | stopAll
  | openAllAndStop
  | closeAllAndStop
  | calenderON
  | calenderOFF
  deriving DecidableEq, Repr

def Bulk.program : Bulk → Option String → Act Unit
  | .openAll => CommandsController.openAll
  | .closeAll => CommandsController.closeAll
  | .playAll => CommandsController.playAll
  | .stopAll => CommandsController.stopAll
  | .openAllAndStop => CommandsController.openAllAndStop
  | .closeAllAndStop => CommandsController.closeAllAndStop
  | .calenderON => CommandsController.calenderON
  | .calenderOFF => CommandsController.calenderOFF

inductive Flag where
  | shutterIconStatus
  | deviceStatus
  | calenderStatus
  deriving DecidableEq, Repr

def Flag.name : Flag → String
  | .shutterIconStatus => "shutterIconStatus"
  | .deviceStatus => "deviceStatus"
  | .calenderStatus => "calenderStatus"

/-- What a command is for: the value it gives to a flag, if it is about that flag. -/
def Bulk.sets : Bulk → Flag → Option Bool
  | .openAll, .shutterIconStatus | .openAllAndStop, .shutterIconStatus => some true
  | .closeAll, .shutterIconStatus | .closeAllAndStop, .shutterIconStatus => some false
  | .playAll, .deviceStatus => some true
  | .stopAll, .deviceStatus | .openAllAndStop, .deviceStatus
  | .closeAllAndStop, .deviceStatus => some false
  | .calenderON, .calenderStatus => some true
  | .calenderOFF, .calenderStatus => some false
  | _, _ => none

/-- The value the last command that sets the flag gives it. -/
def lastSet (commands : List Bulk) (flag : Flag) : Option Bool :=
  commands.reverse.findSome? fun c => c.sets flag

/-- The commands run one after another, each to its end. -/
def runAll (uid : String) (commands : List Bulk) (db : Json) : Json :=
  commands.foldl (fun db c => (alone (c.program (some uid)) db).1) db

def Bulk.fields : Bulk → List (String × Json)
  | .openAll => [("shutterIconStatus", Json.bool true)]
  | .closeAll => [("shutterIconStatus", Json.bool false)]
  | .playAll => [("deviceStatus", Json.bool true)]
  | .stopAll => [("deviceStatus", Json.bool false)]
  | .openAllAndStop => [("shutterIconStatus", Json.bool true), ("deviceStatus", Json.bool false)]
  | .closeAllAndStop => [("shutterIconStatus", Json.bool false), ("deviceStatus", Json.bool false)]
  | .calenderON => [("calenderStatus", Json.bool true)]
  | .calenderOFF => [("calenderStatus", Json.bool false)]

section OneCommand
variable (c : Bulk) (uid : String) (db : Json)

theorem bulk_command : ∃ command, c.program = bulkCommand command ∧ command.fields = c.fields := by
  cases c <;> exact ⟨_, rfl, rfl⟩

theorem alone_program : alone (c.program (some uid)) db =
    (writeEach c.fields ((userDevices (some uid) (db.child "ShutterDevices")).map Prod.fst) db,
      .ok ()) := by
  obtain ⟨command, same, fields⟩ := bulk_command c
  rw [same, ← fields, alone_bulkCommand]

theorem deviceNode_program (key : String) : deviceNode (alone (c.program (some uid)) db).1 key =
    if ownedBy (some uid) (deviceNode db key) = true then (deviceNode db key).merge c.fields
    else deviceNode db key := by
  rw [alone_program]
  exact get_writeUserDevices c.fields uid key db

/-- A command names flags only, so owners stay. -/
theorem fields_named : ∀ name ∈ c.fields.map Prod.fst, ∃ flag : Flag, name = flag.name := by
  intro name member
  cases c <;> simp only [Bulk.fields, List.map_cons, List.map_nil, List.mem_cons,
    List.not_mem_nil, or_false] at member
  all_goals first
    | exact ⟨.shutterIconStatus, member⟩
    | exact ⟨.deviceStatus, member⟩
    | exact ⟨.calenderStatus, member⟩
    | rcases member with icon | status
      · exact ⟨.shutterIconStatus, icon⟩
      · exact ⟨.deviceStatus, status⟩

/-- What the command writes to a flag is what it sets it to. -/
theorem merged_flag (device : Json) (flag : Flag) : (device.merge c.fields).child flag.name =
    match c.sets flag with
    | some value => Json.bool value
    | none => device.child flag.name := by
  cases c <;> cases flag <;> simp [Bulk.fields, Bulk.sets, Flag.name, Node.child_setChild_ne]

theorem owned_program (key : String) :
    ownedBy (some uid) (deviceNode (alone (c.program (some uid)) db).1 key) =
      ownedBy (some uid) (deviceNode db key) := by
  have plain : "userId" ∉ c.fields.map Prod.fst := by
    intro member
    obtain ⟨flag, named⟩ := fields_named c _ member
    cases flag <;> simp [Flag.name] at named
  rw [deviceNode_program]
  split
  · exact ownedBy_merge plain _ _
  · rfl

end OneCommand

section Sequences
variable {uid : String}

theorem runAll_append (before after : List Bulk) (db : Json) :
    runAll uid (before ++ after) db = runAll uid after (runAll uid before db) := by
  simp [runAll]

theorem owned_runAll (commands : List Bulk) (db : Json) (key : String) :
    ownedBy (some uid) (deviceNode (runAll uid commands db) key) =
      ownedBy (some uid) (deviceNode db key) := by
  induction commands generalizing db with
  | nil => rfl
  | cons c rest ih => exact (ih _).trans (owned_program c uid db key)

theorem others_runAll (commands : List Bulk) {db : Json} {key : String}
    (foreign : ownedBy (some uid) (deviceNode db key) = false) :
    deviceNode (runAll uid commands db) key = deviceNode db key := by
  induction commands generalizing db with
  | nil => rfl
  | cons c rest ih =>
    have once : deviceNode (alone (c.program (some uid)) db).1 key = deviceNode db key := by
      rw [deviceNode_program, foreign]
      rfl
    exact (ih (once ▸ foreign)).trans once

theorem flag_runAll (commands : List Bulk) {db : Json} {key : String}
    (own : ownedBy (some uid) (deviceNode db key) = true) (flag : Flag) :
    (deviceNode (runAll uid commands db) key).child flag.name =
      match lastSet commands flag with
      | some value => Json.bool value
      | none => (deviceNode db key).child flag.name := by
  induction commands using List.reverseRecOn with
  | nil => rfl
  | append_singleton before c ih =>
    have own' : ownedBy (some uid) (deviceNode (runAll uid before db) key) = true := by
      rw [owned_runAll, own]
    have last : deviceNode (runAll uid [c] (runAll uid before db)) key =
        (deviceNode (runAll uid before db) key).merge c.fields := by
      have step := deviceNode_program c uid (runAll uid before db) key
      rw [own'] at step
      exact step
    rw [runAll_append, last, merged_flag, ih]
    simp only [lastSet, List.reverse_append, List.reverse_singleton, List.singleton_append,
      List.findSome?_cons]
    cases c.sets flag <;> rfl

theorem field_runAll (commands : List Bulk) (db : Json) (key : String) {field : String}
    (other : ∀ flag : Flag, field ≠ flag.name) :
    (deviceNode (runAll uid commands db) key).child field = (deviceNode db key).child field := by
  induction commands generalizing db with
  | nil => rfl
  | cons c rest ih =>
    have once : (deviceNode (alone (c.program (some uid)) db).1 key).child field =
        (deviceNode db key).child field := by
      rw [deviceNode_program]
      split
      · apply Node.child_merge_other
        intro member
        obtain ⟨flag, named⟩ := fields_named c _ member
        exact other flag named
      · rfl
    exact (ih _).trans once

theorem top_runAll (commands : List Bulk) (db : Json) {top : String}
    (other : top ≠ "ShutterDevices") : (runAll uid commands db).child top = db.child top := by
  induction commands generalizing db with
  | nil => rfl
  | cons c rest ih =>
    have once : (alone (c.program (some uid)) db).1.child top = db.child top := by
      rw [alone_program]
      exact child_writeEach_other other db
    exact (ih _).trans once

/-- Both trees hold the same fields in every device and the same below every other name. -/
def SameFields (one two : Json) : Prop :=
  (∀ key field, (deviceNode one key).child field = (deviceNode two key).child field) ∧
    ∀ top, top ≠ "ShutterDevices" → one.child top = two.child top

/-- Sequences with the same last settings have the same effect. -/
theorem same_effect {one two : List Bulk} (same : ∀ flag, lastSet one flag = lastSet two flag)
    (db : Json) : SameFields (runAll uid one db) (runAll uid two db) := by
  constructor
  · intro key field
    cases own : ownedBy (some uid) (deviceNode db key) with
    | false => rw [others_runAll one own, others_runAll two own]
    | true =>
      by_cases named : ∃ flag : Flag, field = flag.name
      · obtain ⟨flag, rfl⟩ := named
        rw [flag_runAll one own, flag_runAll two own, same]
      · have other : ∀ flag : Flag, field ≠ flag.name := fun flag eq => named ⟨flag, eq⟩
        rw [field_runAll one db key other, field_runAll two db key other]
  · intro top other
    rw [top_runAll one db other, top_runAll two db other]

/-- The law of a whole sequence, and the command that is two of the others in either order. -/
theorem last_writer_wins (uid : String) (commands : List Bulk) (db : Json) :
    (∀ key, owned uid db key →
      (∀ flag : Flag, (deviceNode (runAll uid commands db) key).child flag.name =
        match lastSet commands flag with
        | some value => Json.bool value
        | none => (deviceNode db key).child flag.name) ∧
      ∀ field, (∀ flag : Flag, field ≠ flag.name) →
        (deviceNode (runAll uid commands db) key).child field = (deviceNode db key).child field) ∧
    (∀ key, ¬ owned uid db key → deviceNode (runAll uid commands db) key = deviceNode db key) ∧
    (∀ top, top ≠ "ShutterDevices" → (runAll uid commands db).child top = db.child top) ∧
    SameFields (runAll uid [.openAllAndStop] db) (runAll uid [.openAll, .stopAll] db) ∧
    SameFields (runAll uid [.openAllAndStop] db) (runAll uid [.stopAll, .openAll] db) := by
  refine ⟨?_, ?_, ?_, ?_, ?_⟩
  · intro key own
    exact ⟨flag_runAll commands own, fun field other => field_runAll commands db key other⟩
  · intro key foreign
    exact others_runAll commands (by simpa [owned] using foreign)
  · intro top other
    exact top_runAll commands db other
  · apply same_effect
    intro flag
    cases flag <;> rfl
  · apply same_effect
    intro flag
    cases flag <;> rfl

end Sequences
end BulkCommands
