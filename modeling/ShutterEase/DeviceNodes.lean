import ShutterEase.Ownership

/-!
Properties that every device's node has by itself. A call writes at or below one device, so it
keeps such a property when what it leaves under that one has it.
-/
namespace DeviceNodes
open KeyedTree Interleaving Runs Firebase Operations Ownership
variable {R : String → Json → Prop}

def AllDevices (R : String → Json → Prop) (db : Json) : Prop := ∀ key, R key (deviceNode db key)

/-- Whatever is stored under the device with the property, the call leaves the property. -/
def KeepsDevices (R : String → Json → Prop) : DbCall → Prop
  | .get _ => True
  | .set path value => ∃ key, path = ["ShutterDevices", key] ∧ R key value
  | .remove path => ∃ key, path = ["ShutterDevices", key] ∧ R key .null
  | .update path fields =>
    (∃ key, path = ["ShutterDevices", key] ∧ ∀ device, R key device → R key (device.merge fields)) ∨
      ∃ key day, path = ["ShutterDevices", key, "Schedule", day] ∧
        ∀ device, R key device → R key (device.update ["Schedule", day] fields)

theorem allDevices_empty {db : Json} (empty : db.child "ShutterDevices" = Node.null)
    (nothing : ∀ key, R key .null) : AllDevices R db := by
  intro key
  have gone : deviceNode db key = Node.null := by simp [deviceNode, empty]
  exact gone ▸ nothing key

theorem allDevices_set {db value : Json} {key : String} {below : List String}
    (all : AllDevices R db) (here : R key ((deviceNode db key).set below value)) :
    AllDevices R (db.set ("ShutterDevices" :: key :: below) value) := by
  intro other
  by_cases same : other = key
  · subst same
    have written := Node.get_set_above db ["ShutterDevices", other] below value
    simp only [List.cons_append, List.nil_append] at written
    rw [deviceNode, written]
    exact here
  · rw [deviceNode_set_ne same]
    exact all other

theorem allDevices_served {c : DbCall} (call : KeepsDevices R c) {db db' reply : Json}
    (all : AllDevices R db) (served : respond c db = .ok (db', reply)) : AllDevices R db' := by
  cases c with
  | get path =>
    simp only [respond, serve, Except.ok.injEq, Prod.mk.injEq] at served
    exact served.1 ▸ all
  | set path value =>
    obtain ⟨key, rfl, here⟩ := call
    simp only [respond, serve, Except.ok.injEq, Prod.mk.injEq] at served
    rw [← served.1]
    exact allDevices_set all (by rwa [Node.set_nil])
  | remove path =>
    obtain ⟨key, rfl, here⟩ := call
    simp only [respond, serve, Except.ok.injEq, Prod.mk.injEq] at served
    rw [← served.1]
    exact allDevices_set all (by rwa [Node.set_nil])
  | update path fields =>
    simp only [respond, serve, Except.ok.injEq, Prod.mk.injEq] at served
    rw [← served.1]
    rcases call with ⟨key, rfl, here⟩ | ⟨key, day, rfl, here⟩
    · apply allDevices_set all
      rw [Node.set_nil]
      exact here _ (all key)
    · apply allDevices_set all
      have below := Node.get_append db ["ShutterDevices", key] ["Schedule", day]
      simp only [List.cons_append, List.nil_append] at below
      rw [below]
      exact here _ (all key)

variable {parse : String → Option AutoPlayController.TimeOfDay}

/-- Where every call of the started operations keeps the property, every reachable database has
    it for all devices. -/
theorem allDevices_throughout {db : Json} (all : AllDevices R db)
    {moves : List (Move Operation String)}
    (calls : ∀ op, .start op ∈ moves → Issues (KeepsDevices R) (program parse op)) :
    Throughout (step parse) (fun s : System => AllDevices R s.store) ⟨db, []⟩ moves := by
  apply throughout_keeps all
  intro op started
  exact keeps_of_issues (issues_mono (calls op started) fun _ call _ _ _ holds served =>
    allDevices_served call holds served)

end DeviceNodes
