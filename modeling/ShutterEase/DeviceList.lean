import Mathlib.Data.List.Forall2
import ShutterEase.AccountDevices
import ShutterEase.DeviceSchema

/-!
The callback of `listenForDeviceChanges`: the list is cleared, then every child of the snapshot
is cast to a map, compared with the current user and decoded. The first cast or decoding that
fails ends the walk with what the list holds by then.
-/
namespace DeviceList
open KeyedTree Firebase ShutterModels AccountDevices DeviceSchema

section Callback
variable (parse : String → Except String DateTime)

def addEach (currentUser : Option String) :
    List Json → List ShutterDeviceModel × Except String Unit
  | [] => ([], .ok ())
  | deviceSnapshot :: rest =>
    match asMap deviceSnapshot with
    | .error e => ([], .error e)
    | .ok deviceData =>
      if ownedBy currentUser deviceData then
        match ShutterDeviceModel.fromJson parse deviceData with
        | .error e => ([], .error e)
        | .ok device =>
          let added := addEach currentUser rest
          (device :: added.1, added.2)
      else addEach currentUser rest

/-- A snapshot that does not exist has no children. -/
def onDevices (currentUser : Option String) (snapshot : Json) :
    List ShutterDeviceModel × Except String Unit :=
  addEach parse currentUser (snapshot.keys.map snapshot.child)

/-- The list holds the user's records of the snapshot in its order, one entry for each key.
    Models have no equality of their own, so an entry is told by the child it was decoded
    from. -/
def Lists (currentUser : Option String) (snapshot : Json) (devices : List ShutterDeviceModel) :
    Prop :=
  ((userDevices currentUser snapshot).map Prod.fst).Nodup ∧
    List.Forall₂ (fun record device => ShutterDeviceModel.fromJson parse record.2 = .ok device)
      (userDevices currentUser snapshot) devices

def AllMaps (snapshot : Json) : Prop :=
  ∀ key ∈ snapshot.keys, ∃ deviceData, asMap (snapshot.child key) = .ok deviceData

def Readable (snapshot : Json) : Prop :=
  ∀ key ∈ snapshot.keys, (∃ deviceData, asMap (snapshot.child key) = .ok deviceData) ∧
    ∃ d, ShutterDeviceModel.fromJson parse (snapshot.child key) = .ok d

variable {parse} {currentUser : Option String}

theorem maps_of_addEach {children : List Json}
    (ended : (addEach parse currentUser children).2 = .ok ()) :
    ∀ child ∈ children, ∃ data, asMap child = .ok data := by
  induction children with
  | nil => simp
  | cons first rest ih =>
    simp only [addEach] at ended
    split at ended
    · simp at ended
    · rename_i data cast
      have later : (addEach parse currentUser rest).2 = .ok () := by
        split at ended
        · split at ended
          · simp at ended
          · exact ended
        · exact ended
      intro child member
      rcases List.mem_cons.mp member with here | there
      · exact ⟨data, here ▸ cast⟩
      · exact ih later child there

theorem allMaps_of_completed {snapshot : Json}
    (ended : (onDevices parse currentUser snapshot).2 = .ok ()) : AllMaps snapshot := by
  intro key member
  exact maps_of_addEach ended _ (List.mem_map.mpr ⟨key, member, rfl⟩)

theorem addEach_own {records : List (String × Json)}
    (maps : ∀ record ∈ records, ∃ data, asMap record.2 = .ok data)
    (decodes : ∀ record ∈ records, ownedBy currentUser record.2 = true →
      ∃ d, ShutterDeviceModel.fromJson parse record.2 = .ok d) :
    ∃ devices, addEach parse currentUser (records.map Prod.snd) = (devices, .ok ()) ∧
      List.Forall₂ (fun record device => ShutterDeviceModel.fromJson parse record.2 = .ok device)
        (records.filter fun record => ownedBy currentUser record.2) devices := by
  induction records with
  | nil => exact ⟨[], rfl, List.Forall₂.nil⟩
  | cons record rest ih =>
    obtain ⟨devices, walked, listed⟩ := ih (fun r hr => maps r (by simp [hr]))
      (fun r hr => decodes r (by simp [hr]))
    obtain ⟨data, cast⟩ := maps record (by simp)
    have same := asMap_eq cast
    subst same
    cases own : ownedBy currentUser record.2 with
    | false =>
      refine ⟨devices, ?_, ?_⟩
      · simp [addEach, cast, own, walked]
      · rw [List.filter_cons_of_neg (by simp [own])]
        exact listed
    | true =>
      obtain ⟨device, decoded⟩ := decodes record (by simp) own
      refine ⟨device :: devices, ?_, ?_⟩
      · simp [addEach, cast, own, decoded, walked]
      · rw [List.filter_cons_of_pos (by simp [own])]
        exact List.Forall₂.cons decoded listed

theorem onDevices_own {snapshot : Json} (maps : AllMaps snapshot)
    (decodes : ∀ record ∈ userDevices currentUser snapshot,
      ∃ d, ShutterDeviceModel.fromJson parse record.2 = .ok d) :
    ∃ devices, onDevices parse currentUser snapshot = (devices, .ok ()) ∧
      Lists parse currentUser snapshot devices := by
  let records := snapshot.keys.map fun key => (key, snapshot.child key)
  have maps' : ∀ record ∈ records, ∃ data, asMap record.2 = .ok data := by
    intro record member
    obtain ⟨key, stored, same⟩ := List.mem_map.mp member
    subst same
    exact maps key stored
  have own : ∀ record ∈ records, ownedBy currentUser record.2 = true →
      ∃ d, ShutterDeviceModel.fromJson parse record.2 = .ok d :=
    fun record member owned => decodes record (List.mem_filter.mpr ⟨member, owned⟩)
  obtain ⟨devices, walked, listed⟩ := addEach_own maps' own
  have children : snapshot.keys.map snapshot.child = records.map Prod.snd := by
    simp [records, Function.comp_def]
  refine ⟨devices, ?_, userDevices_keys_nodup currentUser snapshot, listed⟩
  rw [onDevices, children]
  exact walked

theorem onDevices_readable {snapshot : Json} (readable : Readable parse snapshot)
    (currentUser : Option String) :
    Lists parse currentUser snapshot (onDevices parse currentUser snapshot).1 := by
  have maps : AllMaps snapshot := fun key member => (readable key member).1
  have decodes : ∀ record ∈ userDevices currentUser snapshot,
      ∃ d, ShutterDeviceModel.fromJson parse record.2 = .ok d := by
    intro record member
    obtain ⟨key, stored, same⟩ := List.mem_map.mp (List.mem_filter.mp member).1
    subst same
    exact (readable key stored).2
  obtain ⟨devices, walked, listed⟩ := onDevices_own maps decodes
  rw [walked]
  exact listed

theorem lists_unique {snapshot : Json} {one two : List ShutterDeviceModel}
    (first : Lists parse currentUser snapshot one)
    (second : Lists parse currentUser snapshot two) : one = two := by
  refine List.right_unique_forall₂' ?_ first.2 second.2
  intro record a b ha hb
  rw [ha] at hb
  exact Except.ok.inj hb

/-- Every entry is owned by the user that was signed in when the snapshot was handled. -/
theorem userId_addEach {children : List Json} :
    ∀ d ∈ (addEach parse currentUser children).1, d.userId = currentUser := by
  induction children with
  | nil => simp [addEach]
  | cons first rest ih =>
    simp only [addEach]
    split
    · simp
    · rename_i data cast
      split
      · rename_i own
        split
        · simp
        · rename_i device decoded
          intro d member
          rcases List.mem_cons.mp member with here | there
          · subst here
            have read := fromJson_userId decoded
            cases currentUser with
            | none =>
              simp only [ownedBy, Node.isNull_iff] at own
              rw [own] at read
              exact (Except.ok.inj read).symm
            | some uid =>
              simp only [ownedBy, decide_eq_true_eq] at own
              cases stored : data.child "userId" with
              | branch fields => simp [stored, Node.value?] at own
              | leaf value =>
                rw [stored] at own read
                simp only [Node.value?, Option.some.injEq] at own
                subst own
                exact (Except.ok.inj read).symm
          · exact ih d there
      · exact ih

end Callback

section Independence
variable (parse : String → Except String DateTime)

/-- On both snapshots the callback completes and leaves the user's records of either. -/
def SameDashboard (uid : String) (s t : Json) : Prop :=
  ∃ devices, Lists parse (some uid) s devices ∧
    onDevices parse (some uid) s = (devices, .ok ()) ∧
    onDevices parse (some uid) t = (devices, .ok ())

/-- The rest of the snapshots does not matter exactly when all of it is handed over as maps. -/
theorem same_dashboard_iff_all_maps {uid : String} {s t : Json}
    (same : userDevices (some uid) s = userDevices (some uid) t)
    (decodes : ∀ record ∈ userDevices (some uid) s,
      ∃ d, ShutterDeviceModel.fromJson parse record.2 = .ok d) :
    SameDashboard parse uid s t ↔ AllMaps s ∧ AllMaps t := by
  constructor
  · intro shown
    obtain ⟨devices, -, first, second⟩ := shown
    exact ⟨allMaps_of_completed (by rw [first]), allMaps_of_completed (by rw [second])⟩
  · intro maps
    obtain ⟨devices, walked, listed⟩ := onDevices_own maps.1 decodes
    obtain ⟨devices', walked', listed'⟩ := onDevices_own maps.2 (same ▸ decodes)
    have equal : devices = devices' := by
      apply lists_unique listed
      unfold Lists at listed' ⊢
      rw [same]
      exact listed'
    subst equal
    exact ⟨devices, listed, walked, walked'⟩

end Independence

section Foreign

def ownRecord : Json := .branch [("userId", Json.str "uid-1"), ("deviceName", Json.str "Salon")]

def ownOnly : Json := .branch [("A0B1C2D3E4F5", ownRecord)]

def withForeign : Json := .branch [("001122334455", .branch [("userId", Json.str "uid-2")]),
  ("A0B1C2D3E4F5", ownRecord)]

def withScalar : Json := .branch [("A0B1C2D3E4F5", ownRecord), ("demo", Json.bool true)]

def noDates : String → Except String DateTime := fun text => .error ("Invalid date format " ++ text)

theorem decodes_ownOnly : ∀ record ∈ userDevices (some "uid-1") ownOnly,
    ∃ d, ShutterDeviceModel.fromJson noDates record.2 = .ok d := by
  have own : userDevices (some "uid-1") ownOnly = [("A0B1C2D3E4F5", ownRecord)] := rfl
  intro record member
  rw [own, List.mem_singleton] at member
  subst member
  exact ⟨_, rfl⟩

theorem same_dashboard_beside_foreign : SameDashboard noDates "uid-1" ownOnly withForeign := by
  have same : userDevices (some "uid-1") ownOnly = userDevices (some "uid-1") withForeign := rfl
  refine (same_dashboard_iff_all_maps noDates same decodes_ownOnly).mpr ⟨?_, ?_⟩
  · have keys : ownOnly.keys = ["A0B1C2D3E4F5"] := rfl
    unfold AllMaps
    rw [keys]
    simp only [List.forall_mem_cons]
    exact ⟨⟨_, rfl⟩, by simp⟩
  · have keys : withForeign.keys = ["001122334455", "A0B1C2D3E4F5"] := rfl
    unfold AllMaps
    rw [keys]
    simp only [List.forall_mem_cons]
    exact ⟨⟨_, rfl⟩, ⟨_, rfl⟩, by simp⟩

/-- The cast of another child throws before the filter looks at it. -/
theorem scalar_child_breaks_callback :
    userDevices (some "uid-1") ownOnly = userDevices (some "uid-1") withScalar ∧
      ¬ SameDashboard noDates "uid-1" ownOnly withScalar := by
  constructor
  · rfl
  · intro shown
    obtain ⟨devices, -, -, second⟩ := shown
    have maps : AllMaps withScalar := allMaps_of_completed (by rw [second])
    have there : "demo" ∈ withScalar.keys := by
      rw [Node.mem_keys]
      exact Node.leaf_ne_null _
    obtain ⟨data, cast⟩ := maps "demo" there
    simp [withScalar, Node.child, Node.childOf, asMap, Json.bool] at cast

end Foreign
end DeviceList
