import ShutterEase.Attempts
import ShutterEase.Effects
import ShutterEase.Leaves
import ShutterEase.RecordTypes

/-!
Operations tried again. After any number of attempts that lost requests, lost replies or died on
the way, one attempt that goes through leaves the records that a single one would have left. A
toggle is not so: a lost reply makes the next tap undo it.
-/
namespace Retries
open KeyedTree Resumption Interleaving Attempts Leaves Firebase FirebasePath ShutterModels
open AccountDevices DeviceController CommandsController AutoPlayController ScheduleController
open Registration Operations Ownership BulkCommands Effects RecordTypes

section Calls
variable (parse : String → Option TimeOfDay)

variable {parse}

end Calls

section Programs
variable {parse : String → Option TimeOfDay}

theorem issues_saveSchedule {P : DbCall → Prop} {device : DeviceId} {lang shown : Language}
    {rows : Fin 7 → Times} (writes : ∀ i, P (.update
      ["ShutterDevices", device.1, "Schedule", days lang i]
      (newSchedule (days lang i) (rows i)).toJson)) :
    Issues P (ScheduleController.saveSchedule device.1 lang shown rows) := by
  unfold ScheduleController.saveSchedule
  simp only [ref, ref_schedulePath device.2, Action.lift_ok_bind]
  apply issues_andThen (issues_tell _)
  intro _
  apply issues_andThen _ fun _ => issues_tell _
  apply issues_tryCatch _ fun e => issues_tell _
  apply issues_andThen (issues_saveDays writes)
  exact fun _ => issues_of_quiet (quiet_perform_then (quiet_perform _))

/-- The scheduler's casts pass wherever every record is sound. -/
theorem evaluable_of_sound {parseTime : String → Except String DateTime} {db : Json}
    (sound : AllSound parseTime db) (op : Operation) : Evaluable op db := by
  rintro uid now rfl ⟨key, device⟩ member
  obtain ⟨stored, -, own⟩ := mem_userDevices.mp member
  have owner : device.child "userId" ≠ Node.null := by
    intro gone
    simp [ownedBy, gone] at own
  have record := sound key
  have here : deviceNode db key = device := stored
  rw [here] at record
  exact (record.registered owner).2.2

variable {parseTime : String → Except String DateTime}

theorem icon_not_index : indexKey "shutterIconStatus" = none := by decide

theorem toggled_flag {device : Json} {b : Bool}
    (flag : device.child "shutterIconStatus" = Json.bool b) :
    (toggled device).child "shutterIconStatus" = Json.bool (!b) := by
  have there : device.child "shutterIconStatus" ≠ Node.null := flag ▸ Node.leaf_ne_null _
  simp only [toggled, asMap_of_child there icon_not_index, flag, asBool?, Json.bool,
    Option.getD_some]
  exact Node.child_merge_written (by simp) (by simp) _

/-- A toggle whose reply was lost is undone by the next one. -/
theorem retried_toggle_undone (device : DeviceId) {db : Json} {b : Bool}
    (flag : (deviceNode db device.1).child "shutterIconStatus" = Json.bool b) (e : String) :
    (deviceNode (alone (program parse (.toggleDeviceStatus device))
      (attempts respond (program parse (.toggleDeviceStatus device))
        [[.answered, .unacknowledged e]] db)).1 device.1).child "shutterIconStatus" = Json.bool b := by
  have tapped : deviceNode (attempts respond (program parse (.toggleDeviceStatus device))
      [[.answered, .unacknowledged e]] db) device.1 = toggled (deviceNode db device.1) := by
    have read : ∀ (f : Json → Act Unit) (fates : List (Fate String)),
        attempt respond (Firebase.get ["ShutterDevices", device.1] >>= f : Act Unit)
            (.answered :: fates) db =
          attempt respond (f (deviceNode db device.1)) fates db := fun _ _ => rfl
    simp only [attempts, List.foldl_cons, List.foldl_nil, program,
      DeviceController.toggleDeviceStatus, ref, ref_segment device.2, Action.lift_ok_bind, read]
    have there : (deviceNode db device.1).child "shutterIconStatus" ≠ Node.null :=
      flag ▸ Node.leaf_ne_null _
    have map := asMap_of_child there icon_not_index
    simp only [toggled, isNull_of_asMap map, map, flag, asBool?, Json.bool, Bool.false_eq_true,
      ↓reduceIte, Action.lift_ok_bind]
    exact Node.get_update_same db _ _
  have placed : place (.toggleDeviceStatus device) = some device.1 := rfl
  rw [deviceNode_placed placed, rewritten, tapped]
  rw [toggled_flag (toggled_flag flag), Bool.not_not]

end Programs
end Retries
