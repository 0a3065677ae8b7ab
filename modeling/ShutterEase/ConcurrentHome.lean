import ShutterEase.HomeRefinement
import ShutterEase.Linearization

/-!
The operations that write once, by any number of clients at a time. Whatever the interleaving and
the failures, they leave the home that their commands leave one after the other, in the order in
which they ended. A toggle writes what it has read, so its write must find the status that it
read.
-/
namespace ConcurrentHome
open KeyedTree Resumption Interleaving Runs Linearization Firebase FirebasePath ShutterModels
open AccountDevices DeviceController AutoPlayController Registration Operations Ownership
open RecordTypes Home HomeRefinement

def writesOnce : Operation → Bool
  | .saveShutterDevice .. | .deleteShutterDevice .. | .updateDevice .. | .toggleDeviceStatus ..
  | .updateDeviceNewData .. | .resetAlarm .. | .loadAutoPlayStatus .. | .loadAutoPlayTime .. => true
  | _ => false

/-- The write of a toggle, where the call is one, inverts the status that is stored. -/
def Inverts (db : Json) (c : DbCall) : Prop :=
  ∀ key b, c = .update ["ShutterDevices", key] [("shutterIconStatus", Json.bool b)] →
    ∃ deviceData stored, asMap (deviceNode db key) = .ok deviceData ∧
      asBool? (deviceData.child "shutterIconStatus") = .ok stored ∧ b = !(stored.getD false)

section Programs
variable {parse : String → Option TimeOfDay}

theorem run_get (path : List String) (f : Json → Act Unit) (db : Json) :
    (Prog.run respond (Firebase.get path >>= f : Act Unit) db).state =
      (Prog.run respond (f (db.get path)) db).state := rfl

theorem run_toggle (device : DeviceId) {db deviceData : Json} {stored : Option Bool}
    (map : asMap (deviceNode db device.1) = .ok deviceData)
    (cast : asBool? (deviceData.child "shutterIconStatus") = .ok stored) :
    effect respond (program parse) (.toggleDeviceStatus device) db =
      db.update ["ShutterDevices", device.1]
        [("shutterIconStatus", Json.bool (!(stored.getD false)))] := by
  have there := isNull_of_asMap map
  rw [deviceNode] at map there
  simp only [effect, program, DeviceController.toggleDeviceStatus, ref, ref_segment device.2,
    Action.lift_ok_bind, run_get, there, Bool.false_eq_true, ↓reduceIte, map, cast]
  rfl

/-- A program that reads first has ended after the read and changes nothing, or commits later. -/
theorem commits_get {path : List String} {f : Json → Act Unit} {C : Json → DbCall → Prop}
    {after : Json → Json} (rest : ∀ db, awaiting (f (db.get path)) = none ∧ after db = db ∨
      CommitsOnce respond C after (f (db.get path)) ∧ awaiting (f (db.get path)) ≠ none) :
    CommitsOnce respond C after (Firebase.get path >>= f : Act Unit) := by
  refine ⟨?_, fun e => rfl⟩
  intro db db' snapshot _ served
  simp only [respond, serve, Except.ok.injEq, Prod.mk.injEq] at served
  obtain ⟨rfl, rfl⟩ := served
  rcases rest db with ⟨closed, same⟩ | ⟨commits, waits⟩
  · exact Or.inl ⟨closed, same.symm⟩
  · exact Or.inr ⟨rfl, commits, waits⟩

theorem commits_toggle (device : DeviceId) : CommitsOnce respond Inverts
    (effect respond (program parse) (.toggleDeviceStatus device))
    (program parse (.toggleDeviceStatus device)) := by
  have whole : ∀ db, effect respond (program parse) (.toggleDeviceStatus device) db =
      (Prog.run respond (DeviceController.toggleDeviceStatus device.1) db).state := fun _ => rfl
  simp only [DeviceController.toggleDeviceStatus, ref, ref_segment device.2,
    Action.lift_ok_bind, run_get] at whole
  simp only [program, DeviceController.toggleDeviceStatus, ref, ref_segment device.2,
    Action.lift_ok_bind]
  apply commits_get
  intro db
  have alone := whole db
  cases there : (db.get ["ShutterDevices", device.1]).isNull with
  | true =>
    simp only [there, ↓reduceIte] at alone ⊢
    exact Or.inl ⟨rfl, alone⟩
  | false =>
    simp only [there, Bool.false_eq_true, ↓reduceIte] at alone ⊢
    cases map : asMap (db.get ["ShutterDevices", device.1]) with
    | error text =>
      simp only [map, Action.lift_error_bind] at alone ⊢
      exact Or.inl ⟨rfl, alone⟩
    | ok deviceData =>
      cases cast : asBool? (deviceData.child "shutterIconStatus") with
      | error text =>
        simp only [map, cast, Action.lift_ok_bind, Action.lift_error_bind] at alone ⊢
        exact Or.inl ⟨rfl, alone⟩
      | ok stored =>
        simp only [cast, Action.lift_ok_bind]
        refine Or.inr ⟨⟨?_, fun e => rfl⟩, Option.some_ne_none _⟩
        intro now after reply inverts served
        simp only [respond, serve, Except.ok.injEq, Prod.mk.injEq] at served
        obtain ⟨rfl, -⟩ := served
        obtain ⟨data', stored', map', cast', same⟩ := inverts device.1 _ rfl
        refine Or.inl ⟨rfl, ?_⟩
        rw [run_toggle device map' cast', ← same]

/-- Every operation that writes once commits with its last call. -/
theorem commits_program {op : Operation} (once : writesOnce op = true) :
    CommitsOnce respond Inverts (effect respond (program parse) op) (program parse op) := by
  have single : Opens (fun _ => True) (fun _ _ _ => False) (program parse op) →
      CommitsOnce respond Inverts (effect respond (program parse) op) (program parse op) :=
    fun opens => commits_of_single opens fun _ => rfl
  cases op with
  | saveShutterDevice form segment userData now =>
    exact single (opens_saveShutterDevice form segment userData now trivial)
  | deleteShutterDevice device shouldDelete =>
    exact single (opens_deleteShutterDevice device shouldDelete trivial)
  | updateDevice device =>
    exact single (opens_guarded trivial (quiet_perform_then (quiet_perform _))
      fun _ => quiet_perform _)
  | updateDeviceNewData device =>
    exact single (opens_guarded trivial (quiet_perform_then (quiet_perform _))
      fun _ => quiet_perform _)
  | resetAlarm device =>
    exact single (opens_guarded trivial (quiet_perform_then (quiet_perform _))
      fun _ => quiet_perform _)
  | loadAutoPlayStatus user =>
    exact single (opens_loadAutoPlayStatus (F := fun _ => True) trivial user)
  | loadAutoPlayTime user =>
    exact single (opens_loadAutoPlayTime (F := fun _ => True) trivial user)
  | toggleDeviceStatus device => exact commits_toggle device
  | _ => simp [writesOnce] at once

end Programs

section Runs
variable {parse : String → Option TimeOfDay} {parseTime : String → Except String DateTime}

theorem finished_started {ops : List Operation} {p : System}
    {moves : List (Move Operation String)} :
    ∀ op ∈ finished respond (program parse) ops p moves, op ∈ ops ∨ .start op ∈ moves := by
  induction moves generalizing ops p with
  | nil => simp [finished]
  | cons m rest ih =>
    intro op member
    simp only [finished] at member
    split at member
    · simp at member
    · rename_i q here
      have begun_cases : ∀ op ∈ begun ops m, op ∈ ops ∨ m = .start op := by
        intro op' inside
        cases m with
        | start started =>
          rcases List.mem_append.mp inside with old | new
          · exact Or.inl old
          · exact Or.inr (by rw [List.mem_singleton.mp new])
        | answer i => exact Or.inl inside
        | fail i e => exact Or.inl inside
      rcases List.mem_append.mp member with ended | later
      · cases m with
        | answer i =>
          simp only [ends] at ended
          split at ended
          · exact Or.inl (List.mem_of_getElem? (Option.mem_toList.mp ended))
          · simp at ended
        | start started => simp [ends] at ended
        | fail i e => simp [ends] at ended
      · rcases ih op later with known | started
        · rcases begun_cases op known with old | new
          · exact Or.inl old
          · exact Or.inr (by simp [new])
        · exact Or.inr (by simp [started])

theorem dated_finished {db : Json} {moves : List (Move Operation String)}
    (dated : ∀ op, .start op ∈ moves → Dated parseTime op) :
    ∀ op ∈ finished respond (program parse) [] ⟨db, []⟩ moves, Dated parseTime op := by
  intro op member
  rcases finished_started op member with none | started
  · simp at none
  · exact dated op started

/-- Operations that write once are as good as one after the other. -/
theorem stored_in_order {db : Json} {moves : List (Move Operation String)}
    (once : ∀ op, .start op ∈ moves → writesOnce op = true)
    (fresh : Along (step parse) (Served Inverts) ⟨db, []⟩ moves) {s : System}
    (ran : run (step parse) ⟨db, []⟩ moves = some s) :
    s.store = runOperations parse (finished respond (program parse) [] ⟨db, []⟩ moves) db := by
  have none_yet : Committing respond (program parse) Inverts [] (⟨db, []⟩ : System) :=
    ⟨rfl, by simp⟩
  exact run_linearizes respond_ok none_yet (fun op member => commits_program (once op member))
    fresh ran

theorem home_in_order {db : Json} (empty : db.child "ShutterDevices" = Node.null)
    {moves : List (Move Operation String)}
    (once : ∀ op, .start op ∈ moves → writesOnce op = true)
    (dated : ∀ op, .start op ∈ moves → Dated parseTime op)
    (fresh : Along (step parse) (Served Inverts) ⟨db, []⟩ moves) {s : System}
    (ran : run (step parse) ⟨db, []⟩ moves = some s) : home s.store =
      ((finished respond (program parse) [] ⟨db, []⟩ moves).map (command parse)).foldl
        (fun home c => c.perform home) fun _ => none := by
  rw [stored_in_order once fresh ran,
    runOperations_refines (dated_finished dated) (allSound_empty empty), home_empty empty]

/-- In any run of operations that write once, from an empty node, in which every toggle's write
    finds the status that the toggle read: the database is the one that the ended operations
    leave one after the other, and so the home is the one that their commands leave. -/
theorem concurrent_operations_refine {db : Json} (empty : db.child "ShutterDevices" = Node.null)
    {moves : List (Move Operation String)}
    (once : ∀ op, .start op ∈ moves → writesOnce op = true)
    (dated : ∀ op, .start op ∈ moves → Dated parseTime op)
    (fresh : Along (step parse) (Served Inverts) ⟨db, []⟩ moves) {s : System}
    (ran : run (step parse) ⟨db, []⟩ moves = some s) :
    let ops := finished respond (program parse) [] ⟨db, []⟩ moves
    s.store = runOperations parse ops db ∧
      home s.store = (ops.map (command parse)).foldl (fun home c => c.perform home)
        fun _ => none := by
  intro ops
  exact ⟨stored_in_order once fresh ran, home_in_order empty once dated fresh ran⟩

end Runs

section Taken

theorem served_of {p : System} {i : Nat} {c : DbCall} {k : Except String Json → Act Unit}
    (waits : p.Awaits i c k) (holds : Inverts p.store c) :
    Served Inverts p (.answer i : Move Operation String) := by
  intro j c' k' same waits'
  cases same
  obtain ⟨rfl, -⟩ := awaits_unique waits waits'
  exact holds

theorem served_start {p : System} {op : Operation} : Served Inverts p (.start op) := by
  intro i c k same
  cases same

def salonId : DeviceId := ⟨newDeviceId salon, salon_segment⟩

/-- The alarm is reset between the read and the write of a toggle. -/
def toggledMeanwhile : List (Move Operation String) :=
  [.start (.saveShutterDevice salon salon_segment ada noon), .answer 0,
    .start (.toggleDeviceStatus salonId), .start (.resetAlarm salonId), .answer 1, .answer 2,
    .answer 1]

theorem started_meanwhile {op : Operation} (member : .start op ∈ toggledMeanwhile) :
    op = .saveShutterDevice salon salon_segment ada noon ∨ op = .toggleDeviceStatus salonId ∨
      op = .resetAlarm salonId := by
  simpa [toggledMeanwhile] using member

theorem meanwhile_once : ∀ op, .start op ∈ toggledMeanwhile → writesOnce op = true := by
  intro op member
  rcases started_meanwhile member with rfl | rfl | rfl
  · rfl
  · rfl
  · rfl

theorem meanwhile_dated : ∀ op, .start op ∈ toggledMeanwhile → Dated readNoon op := by
  intro op member
  rcases started_meanwhile member with rfl | rfl | rfl
  · exact ⟨noon, rfl⟩
  · trivial
  · trivial

theorem meanwhile_fresh :
    Along (step fun _ => none) (Served Inverts) ⟨Node.null, []⟩ toggledMeanwhile := by
  have other : ∀ {p : System} {c : DbCall}, (∀ key b, c ≠ .update ["ShutterDevices", key]
      [("shutterIconStatus", Json.bool b)]) → Inverts p.store c :=
    fun apart key b same => absurd same (apart key b)
  refine along_next served_start rfl ?_
  refine along_next (served_of ⟨_, rfl, rfl⟩ (other (by simp))) rfl ?_
  refine along_next served_start rfl ?_
  refine along_next served_start rfl ?_
  refine along_next (served_of ⟨_, rfl, rfl⟩ (other (by simp))) rfl ?_
  refine along_next (served_of ⟨_, rfl, rfl⟩ (other (by simp))) rfl ?_
  refine along_next (served_of ⟨_, rfl, rfl⟩ ?_) rfl trivial
  intro key b same
  cases same
  exact ⟨_, some false, rfl, rfl, rfl⟩

theorem toggled_meanwhile_refines : ∃ s, run (step fun _ => none) ⟨Node.null, []⟩ toggledMeanwhile =
      some s ∧
    let ops := finished respond (program fun _ => none) [] ⟨Node.null, []⟩ toggledMeanwhile
    s.store = runOperations (fun _ => none) ops Node.null ∧
      home s.store = (ops.map (command fun _ => none)).foldl (fun home c => c.perform home)
        fun _ => none := by
  have goes : ∃ s, run (step fun _ => none) ⟨Node.null, []⟩ toggledMeanwhile = some s := ⟨_, rfl⟩
  obtain ⟨s, ran⟩ := goes
  exact ⟨s, ran,
    concurrent_operations_refine rfl meanwhile_once meanwhile_dated meanwhile_fresh ran⟩

end Taken
end ConcurrentHome
