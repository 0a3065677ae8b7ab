import ShutterEase.Firebase

/- The query `orderByChild('userId').equalTo(uid)` and the loops that write to each device it
   returns. Without a signed-in user the query compares with null. -/
namespace AccountDevices
open KeyedTree Resumption Interleaving Firebase

def ownedBy (uid : Option String) (device : Json) : Bool :=
  match uid with
  | some u => decide ((device.child "userId").value? = some (.str u))
  | none => (device.child "userId").isNull

/-- The children of the query's snapshot, in key order. -/
def userDevices (uid : Option String) (shutterDevices : Json) : List (String × Json) :=
  (shutterDevices.keys.map fun key => (key, shutterDevices.child key)).filter
    fun device => ownedBy uid device.2

def performAll : List Ui → Act Unit
  | [] => pure ()
  | o :: rest => do
    perform o
    performAll rest

/-- One awaited update after the other; the first that fails ends the loop. -/
def updateEach (fields : List (String × Json)) (shown : List Ui) :
    List (String × Json) → Act Unit
  | [] => pure ()
  | device :: rest => do
    update ["ShutterDevices", device.1] fields
    performAll shown
    updateEach fields shown rest

/-- What the loop leaves behind when no update fails. -/
def writeEach (fields : List (String × Json)) (keys : List String) (db : Json) : Json :=
  keys.foldl (fun db key => db.update ["ShutterDevices", key] fields) db

@[simp] theorem alone_performAll (shown : List Ui) (db : Json) :
    alone (performAll shown) db = (db, .ok ()) := by
  induction shown with
  | nil => rfl
  | cons o rest ih =>
    simp only [alone] at ih
    simp [performAll, alone, perform, ih]

@[simp] theorem alone_updateEach (fields : List (String × Json)) (shown : List Ui)
    (devices : List (String × Json)) (db : Json) :
    alone (updateEach fields shown devices) db =
      (writeEach fields (devices.map Prod.fst) db, .ok ()) := by
  induction devices generalizing db with
  | nil => rfl
  | cons device rest ih =>
    have told := alone_performAll shown
    have written := alone_update ["ShutterDevices", device.1] fields db
    simp only [alone] at ih told written ⊢
    simp only [updateEach, Action.exec_bind, written, told, ih]
    rfl

theorem issues_performAll {P : DbCall → Prop} (shown : List Ui) : Issues P (performAll shown) := by
  induction shown with
  | nil => trivial
  | cons o rest ih => exact issues_andThen (issues_tell o) fun _ => ih

theorem issues_updateEach {P : DbCall → Prop} {fields : List (String × Json)} {shown : List Ui}
    {devices : List (String × Json)}
    (each : ∀ device ∈ devices, P (.update ["ShutterDevices", device.1] fields)) :
    Issues P (updateEach fields shown devices) := by
  induction devices with
  | nil => trivial
  | cons device rest ih =>
    apply issues_andThen (issues_update (each device (by simp)))
    intro _
    apply issues_andThen (issues_performAll shown)
    intro _
    exact ih fun d hd => each d (by simp [hd])

theorem mem_userDevices {uid : Option String} {shutterDevices device : Json} {key : String} :
    (key, device) ∈ userDevices uid shutterDevices ↔
      shutterDevices.child key = device ∧ device ≠ Node.null ∧ ownedBy uid device = true := by
  simp only [userDevices, List.mem_filter, List.mem_map, Prod.mk.injEq, Node.mem_keys]
  constructor
  · intro listed
    obtain ⟨⟨k, stored, rfl, rfl⟩, owned⟩ := listed
    exact ⟨rfl, stored, owned⟩
  · intro owner
    obtain ⟨rfl, stored, owned⟩ := owner
    exact ⟨⟨key, stored, rfl, rfl⟩, owned⟩

theorem userDevices_keys_nodup (uid : Option String) (shutterDevices : Json) :
    ((userDevices uid shutterDevices).map Prod.fst).Nodup := by
  have all : ((shutterDevices.keys.map fun key => (key, shutterDevices.child key)).map
      Prod.fst).Nodup := by
    simpa [Function.comp_def] using Node.keys_nodup shutterDevices
  exact all.sublist (List.filter_sublist.map Prod.fst)

theorem ownedBy_ne_null {u : String} {device : Json} (owned : ownedBy (some u) device = true) :
    device ≠ Node.null := by
  intro gone
  simp [gone, ownedBy] at owned

theorem key_mem_userDevices {u key : String} {shutterDevices : Json} :
    key ∈ (userDevices (some u) shutterDevices).map Prod.fst ↔
      ownedBy (some u) (shutterDevices.child key) = true := by
  constructor
  · intro member
    obtain ⟨⟨k, device⟩, found, rfl⟩ := List.mem_map.mp member
    obtain ⟨rfl, -, owned⟩ := mem_userDevices.mp found
    exact owned
  · intro owned
    exact List.mem_map.mpr ⟨_, mem_userDevices.mpr ⟨rfl, ownedBy_ne_null owned, owned⟩, rfl⟩

theorem ownedBy_merge {fields : List (String × Json)} (plain : "userId" ∉ fields.map Prod.fst)
    (user : Option String) (device : Json) :
    ownedBy user (device.merge fields) = ownedBy user device := by
  cases user with
  | none => simp only [ownedBy, Node.child_merge_other plain]
  | some u => simp only [ownedBy, Node.child_merge_other plain]

/-- The loop's effect on a device, for each device of the query and for every other one. -/
theorem get_writeEach (fields : List (String × Json)) {keys : List String}
    (distinct : keys.Nodup) (key : String) (db : Json) :
    (writeEach fields keys db).get ["ShutterDevices", key] =
      if key ∈ keys then (db.get ["ShutterDevices", key]).merge fields
      else db.get ["ShutterDevices", key] := by
  induction keys generalizing db with
  | nil => rfl
  | cons k rest ih =>
    obtain ⟨fresh, distinct'⟩ := List.nodup_cons.mp distinct
    rw [writeEach, List.foldl_cons]
    change (writeEach fields rest _).get _ = _
    rw [ih distinct']
    by_cases same : key = k
    · subst key
      rw [Node.get_update_same]
      simp [fresh]
    · have apart : Apart ["ShutterDevices", k] ["ShutterDevices", key] :=
        apart_below _ (apart_here (Ne.symm same) [] [])
      rw [Node.get_update_apart apart]
      simp [same]

theorem get_writeUserDevices (fields : List (String × Json)) (u key : String) (db : Json) :
    (writeEach fields ((userDevices (some u) (db.child "ShutterDevices")).map Prod.fst) db).get
        ["ShutterDevices", key] =
      if ownedBy (some u) (db.get ["ShutterDevices", key]) = true
      then (db.get ["ShutterDevices", key]).merge fields
      else db.get ["ShutterDevices", key] := by
  have effect := get_writeEach fields
    (userDevices_keys_nodup (some u) (db.child "ShutterDevices")) key db
  simp only [key_mem_userDevices] at effect
  exact effect

/-- The loop stays below `ShutterDevices`. -/
theorem child_writeEach_other {fields : List (String × Json)} {keys : List String}
    {top : String} (other : top ≠ "ShutterDevices") (db : Json) :
    (writeEach fields keys db).child top = db.child top := by
  induction keys generalizing db with
  | nil => rfl
  | cons k rest ih =>
    rw [writeEach, List.foldl_cons]
    change (writeEach fields rest _).child top = _
    rw [ih]
    have apart : Apart ["ShutterDevices", k] [top] := apart_here (Ne.symm other) [k] []
    simpa using Node.get_update_apart apart db fields

end AccountDevices
