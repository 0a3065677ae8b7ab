import ShutterEase.Operations

/- Who owns a device, over every interleaving of the app's operations: only a registration's
   `set` can give a present device another owner. -/
namespace Ownership
open KeyedTree Interleaving Runs Firebase FirebasePath ShutterModels AccountDevices
open DeviceController AutoPlayController Registration Operations

def deviceNode (db : Json) (key : String) : Json := db.get ["ShutterDevices", key]

def owned (uid : String) (db : Json) (key : String) : Prop :=
  ownedBy (some uid) (deviceNode db key) = true

/-- A step leaves the owner of every device that stays as it was, and a registration of a
    device that is there leaves its whole record. -/
def Stable (parse : String → Option TimeOfDay) (s : System) (m : Move Operation String) : Prop :=
  ∀ s', step parse s m = some s' →
    (∀ key, deviceNode s.store key ≠ Node.null → deviceNode s'.store key ≠ Node.null →
      (deviceNode s'.store key).child "userId" = (deviceNode s.store key).child "userId") ∧
    ∀ i k key value, m = .answer i → s.Awaits i (.set ["ShutterDevices", key] value) k →
      deviceNode s.store key ≠ Node.null → deviceNode s'.store key = deviceNode s.store key

/-- A registration that is answered finds nothing under its key, or the very record it
    writes. -/
def Fresh (s : System) (m : Move Operation String) : Prop :=
  ∀ i k key value, m = .answer i → s.Awaits i (.set ["ShutterDevices", key] value) k →
    deviceNode s.store key = Node.null ∨ deviceNode s.store key = value

theorem deviceNode_set_ne {key other : String} (ne : key ≠ other) (db value : Json)
    (below : List String) :
    deviceNode (db.set ("ShutterDevices" :: other :: below) value) key = deviceNode db key := by
  have apart : Apart ("ShutterDevices" :: other :: below) ["ShutterDevices", key] :=
    apart_below _ (apart_here (Ne.symm ne) below [])
  exact Node.get_set_apart apart db value

/-- An update keeps the fields that it does not name, and below `Schedule` all of them. -/
theorem child_update {key name : String} (other : name ≠ "Schedule") {path : List String}
    {fields : List (String × Json)}
    (place : (∃ k, path = ["ShutterDevices", k] ∧ (k = key → name ∉ fields.map Prod.fst)) ∨
      ∃ k day, path = ["ShutterDevices", k, "Schedule", day]) (db : Json) :
    (deviceNode (db.update path fields) key).child name = (deviceNode db key).child name := by
  rcases place with ⟨k, here, plain⟩ | ⟨k, day, here⟩
  · subst here
    by_cases same : key = k
    · subst same
      rw [deviceNode, Node.get_update_same, Node.child_merge_other (plain rfl)]
      rfl
    · rw [Node.update, deviceNode_set_ne same]
  · subst here
    have apart : Apart ["ShutterDevices", k, "Schedule", day] ["ShutterDevices", key, name] := by
      by_cases same : k = key
      · subst same
        exact apart_below _ (apart_below _ (apart_here (Ne.symm other) [day] []))
      · exact apart_below _ (apart_here same _ _)
    have kept := Node.get_update_apart apart db fields
    simpa [deviceNode] using kept

theorem userId_update {path : List String} {fields : List (String × Json)}
    (call : DeviceCall (.update path fields)) (db : Json) (key : String) :
    (deviceNode (db.update path fields) key).child "userId" =
      (deviceNode db key).child "userId" := by
  apply child_update (by decide)
  rcases call with ⟨k, here, plain⟩ | below
  · exact Or.inl ⟨k, here, fun _ => plain⟩
  · exact Or.inr below

/-- Besides a registration, no call changes the owner of a device that stays. -/
theorem userId_served {c : DbCall} {db db' reply : Json} (call : DeviceCall c)
    (plain : ∀ path value, c ≠ .set path value)
    (served : respond c db = .ok (db', reply)) {key : String}
    (stays : deviceNode db' key ≠ Node.null) :
    (deviceNode db' key).child "userId" = (deviceNode db key).child "userId" := by
  cases c with
  | get path =>
    simp only [respond, serve, Except.ok.injEq, Prod.mk.injEq] at served
    rw [served.1]
  | set path value => exact absurd rfl (plain path value)
  | update path fields =>
    simp only [respond, serve, Except.ok.injEq, Prod.mk.injEq] at served
    rw [← served.1]
    exact userId_update call db key
  | remove path =>
    simp only [respond, serve, Except.ok.injEq, Prod.mk.injEq] at served
    obtain ⟨k, rfl⟩ := call
    by_cases same : key = k
    · subst same
      refine absurd ?_ stays
      rw [← served.1]
      exact Node.get_set_same db _ Node.null
    · rw [← served.1, Node.remove, deviceNode_set_ne same]

section Steps
variable {parse : String → Option TimeOfDay} {s s' : System} {m : Move Operation String}

theorem issues_step (all : ∀ q ∈ s.clients, Issues DeviceCall q)
    (h : step parse s m = some s') : ∀ q ∈ s'.clients, Issues DeviceCall q :=
  stepped_issues all (fun op _ => issues_program parse op) (step_cases h)

theorem fresh_of_stable (stable : Stable parse s m) : Fresh s m := by
  intro i k key value answered waits
  by_cases empty : deviceNode s.store key = Node.null
  · exact Or.inl empty
  · have served : respond (.set ["ShutterDevices", key] value) s.store =
        .ok (s.store.set ["ShutterDevices", key] value, .null) := rfl
    subst answered
    have after := (stable _ (step_answer waits served)).2 i k key value rfl waits empty
    right
    rw [← after]
    exact Node.get_set_same s.store ["ShutterDevices", key] value

theorem stable_of_fresh (all : ∀ q ∈ s.clients, Issues DeviceCall q) (fresh : Fresh s m) :
    Stable parse s m := by
  intro s' h
  cases step_cases h with
  | started op => exact ⟨fun _ _ _ => rfl, fun _ _ _ _ _ _ _ => rfl⟩
  | refused waits why => exact ⟨fun _ _ _ => rfl, fun _ _ _ _ _ _ _ => rfl⟩
  | @answered i c k db reply waits served =>
    have call := (awaits_issues all waits).1
    by_cases registers : ∃ path value, c = .set path value
    · obtain ⟨path, value, rfl⟩ := registers
      obtain ⟨form, userData, now, rfl, rfl⟩ := call
      simp only [respond, serve, Except.ok.injEq, Prod.mk.injEq] at served
      obtain ⟨rfl, -⟩ := served
      have kept : ∀ key, deviceNode s.store key ≠ Node.null → deviceNode (s.store.set
          ["ShutterDevices", newDeviceId form] (record form userData now)) key =
            deviceNode s.store key := by
        intro key there
        by_cases same : key = newDeviceId form
        · subst same
          rcases fresh i k _ _ rfl waits with empty | equal
          · exact absurd empty there
          · rw [equal]
            exact Node.get_set_same s.store _ _
        · exact deviceNode_set_ne same _ _ []
      exact ⟨fun key there _ => by rw [kept key there], fun _ _ key _ _ _ there => kept key there⟩
    · have plain : ∀ path value, c ≠ .set path value :=
        fun path value eq => registers ⟨path, value, eq⟩
      refine ⟨fun key _ stays => userId_served call plain served stays, ?_⟩
      intro j k' key value same waits'
      simp only [Move.answer.injEq] at same
      subst same
      exact absurd (awaits_unique waits waits').1 (plain _ _)

end Steps

/-- A device that stays present through a stable run has one owner all along. -/
theorem owner_kept {parse : String → Option TimeOfDay} {key : String}
    {moves : List (Move Operation String)} {s s' : System}
    (stable : Along (step parse) (Stable parse) s moves)
    (present : Throughout (step parse) (fun t => deviceNode t.store key ≠ Node.null) s moves)
    (ran : run (step parse) s moves = some s') :
    (deviceNode s'.store key).child "userId" = (deviceNode s.store key).child "userId" := by
  induction moves generalizing s with
  | nil =>
    simp only [run_nil, Option.some.injEq] at ran
    rw [ran]
  | cons m ms ih =>
    obtain ⟨q, here, rest⟩ := run_cons ran
    have there : deviceNode q.store key ≠ Node.null := by
      have next := present.2 q here
      cases ms with
      | nil => exact next
      | cons n ns => exact next.1
    rw [ih (stable.2 q here) (present.2 q here) rest]
    exact (stable.1 q here).1 key present.1 there

/-- In any run of any clients, owners are stable exactly when every registration that is
    applied finds its key free. -/
theorem owners_stable_iff_fresh (parse : String → Option TimeOfDay) (db : Json)
    (moves : List (Move Operation String)) :
    Along (step parse) (Stable parse) ⟨db, []⟩ moves ↔
      Along (step parse) Fresh ⟨db, []⟩ moves := by
  apply along_iff fun s : System => ∀ q ∈ s.clients, Issues DeviceCall q
  · intro s m s' all h
    exact issues_step all h
  · intro s m all
    exact ⟨fresh_of_stable, stable_of_fresh all⟩
  · simp

theorem awaits_saveShutterDevice {form : DeviceForm} (valid : form.validate = true)
    (segment : IsSegment (newDeviceId form)) (userData : UserData) (now : DateTime) :
    ∃ k, awaiting (DeviceController.saveShutterDevice form userData now) =
      some (.set ["ShutterDevices", newDeviceId form] (record form userData now), k) := by
  have path := ref_segment segment
  simp only [newDeviceId] at path
  unfold DeviceController.saveShutterDevice
  simp only [valid, ↓reduceIte, ref, path, Resumption.Action.lift_ok_bind]
  exact ⟨_, rfl⟩

section Taken

def bob : UserData := ⟨some "uid-2", some "Bob", some "bob@x.it"⟩

theorem salon_segment : IsSegment (newDeviceId salon) := by decide

/-- Two users register one device; both calls are answered. -/
def registerTwice : List (Move Operation String) :=
  [.start (.saveShutterDevice salon salon_segment ada noon),
    .start (.saveShutterDevice salon salon_segment bob noon), .answer 0, .answer 1]

theorem second_registration_takes_device : PlainMac salon.macAddress ∧
    ¬ Along (step fun _ => none) (Stable fun _ => none) ⟨Node.null, []⟩ registerTwice := by
  refine ⟨⟨by decide, ?_⟩, ?_⟩
  · have plain : (salon.macAddress.toList.all fun c => !DartText.isWhiteSpace c && c != '/' &&
        !kInvalidPathCharacters.contains c) = true := by decide
    intro c member
    simpa [and_assoc] using List.all_eq_true.mp plain c member
  · intro stable
    obtain ⟨k, first⟩ := awaits_saveShutterDevice (by decide) salon_segment ada noon
    obtain ⟨k', second⟩ := awaits_saveShutterDevice (by decide) salon_segment bob noon
    have at_second := (stable.2 _ rfl).2 _ rfl
    let waiting : System := ⟨Node.null, [DeviceController.saveShutterDevice salon ada noon,
      DeviceController.saveShutterDevice salon bob noon]⟩
    have waits : waiting.Awaits 0 _ k := ⟨_, rfl, first⟩
    have applied : step (fun _ => none) waiting (.answer 0) = _ := step_answer waits rfl
    have last := fresh_of_stable (at_second.2 _ applied).1
    have found := last 1 k' (newDeviceId salon) _ rfl ⟨_, rfl, second⟩
    have there : deviceNode (Node.null.set ["ShutterDevices", newDeviceId salon]
        (record salon ada noon)) (newDeviceId salon) = record salon ada noon :=
      Node.get_set_same _ _ _
    have owner_of := record_userId salon
    rw [there] at found
    rcases found with empty | same
    · have gone := congrArg (fun t => t.child "userId") empty
      simp [owner_of, Json.str] at gone
    · have equal := congrArg (fun t => t.child "userId") same
      simp [owner_of, Json.str, ada, bob] at equal

end Taken
end Ownership
