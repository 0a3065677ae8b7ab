import ShutterEase.Cards
import ShutterEase.KeyComparator

/-!
The order of what a user sees. The devices' node keeps its children in the order of the key
comparator, whatever the order of the registrations. So the cards, and the setting that the
settings screen loads from the first device, are decided by the user's shutters alone and not by
the way in which the database came to hold them.
-/
namespace CardOrder
open KeyedTree Resumption Interleaving Runs Firebase KeyComparator ShutterModels AccountDevices
open ScheduleController AutoPlayController DeviceController Registration Operations
open Ownership DeviceSchema DeviceList RecordTypes Dashboard Home HomeRefinement Cards

section Stored
variable {parse : String → Option TimeOfDay} {parseTime : String → Except String DateTime}

def InOrder (db : Json) : Prop := (db.child "ShutterDevices").Ordered

theorem inOrder_write {db : Json} (ordered : InOrder db) (key : String) (below : List String)
    (value : Json) : InOrder (db.set ("ShutterDevices" :: key :: below) value) := by
  unfold InOrder
  rw [Node.set_cons, Node.child_setChild_same, Node.set_cons]
  exact Node.ordered_setChild ordered key _

theorem keeps_inOrder (op : Operation) : Keeps respond InOrder (program parse op) := by
  apply keeps_of_issues
  refine issues_mono (issues_program parse op) ?_
  intro c call db db' reply ordered served
  cases c with
  | get path =>
    simp only [respond, serve, Except.ok.injEq, Prod.mk.injEq] at served
    exact served.1 ▸ ordered
  | set path value =>
    obtain ⟨form, userData, now, rfl, -⟩ := call
    simp only [respond, serve, Except.ok.injEq, Prod.mk.injEq] at served
    exact served.1 ▸ inOrder_write ordered _ [] _
  | update path fields =>
    simp only [respond, serve, Except.ok.injEq, Prod.mk.injEq] at served
    rcases call with ⟨key, rfl, -⟩ | ⟨key, day, rfl⟩
    · exact served.1 ▸ inOrder_write ordered key [] _
    · exact served.1 ▸ inOrder_write ordered key ["Schedule", day] _
  | remove path =>
    obtain ⟨key, rfl⟩ := call
    simp only [respond, serve, Except.ok.injEq, Prod.mk.injEq] at served
    exact served.1 ▸ inOrder_write ordered key [] _

theorem ordered_left {shutterDevices : Json} (left : LeftByApp parse parseTime shutterDevices) :
    shutterDevices.Ordered := by
  obtain ⟨db, moves, s, empty, -, ran, rfl⟩ := left
  have start : InOrder db := by
    unfold InOrder
    rw [empty]
    exact Node.ordered_null
  have all : Throughout (Operations.step parse) (fun s : System => InOrder s.store) ⟨db, []⟩
      moves := throughout_keeps start fun op _ => keeps_inOrder op
  have inOrder := throughout_end all ran
  exact inOrder

end Stored

section Shown

/-- The part of a home that is one user's. -/
def mine (user : String) (home : State) : State :=
  fun key => (home key).filter fun s => decide (s.owner = user)

theorem mine_some {user : String} {home : State} {key : String} {s : Shutter} :
    mine user home key = some s ↔ home key = some s ∧ s.owner = user := by
  simp [mine, Option.filter_eq_some_iff]

/-- The screen shows a user's part of a home, card after card in the order of the keys. -/
def ShowsInOrder (lang : Language) (user : String) (home : State) (body : Body) : Prop :=
  ∃ keys : List String, keys.Pairwise (fun a b => compareKey a b = true) ∧
    (∀ key, key ∈ keys ↔ mine user home key ≠ none) ∧
    body = if keys = [] then .text "No devices found"
      else .gridView (keys.filterMap fun key => (mine user home key).map (cardOf lang key))

theorem sorted_unique {keys keys' : List String}
    (sorted : keys.Pairwise fun a b => compareKey a b = true)
    (sorted' : keys'.Pairwise fun a b => compareKey a b = true)
    (same : ∀ key, key ∈ keys ↔ key ∈ keys') : keys = keys' := by
  have nodup : ∀ {keys : List String}, keys.Pairwise (fun a b => compareKey a b = true) →
      keys.Nodup := by
    intro keys sorted
    refine sorted.imp ?_
    rintro a b before rfl
    simp [compareKey_irrefl] at before
  apply List.Perm.eq_of_pairwise _ sorted sorted'
    ((List.perm_ext_iff_of_nodup (nodup sorted) (nodup sorted')).mpr same)
  intro a b _ _ before after
  have around := compareKey_trans a b a before after
  simp [compareKey_irrefl] at around

/-- The user's part decides the screen. -/
theorem showsInOrder_unique {lang : Language} {user : String} {home other : State}
    {body body' : Body} (shows_home : ShowsInOrder lang user home body)
    (shows_other : ShowsInOrder lang user other body') (same : mine user home = mine user other) :
    body = body' := by
  obtain ⟨keys, sorted, all, rfl⟩ := shows_home
  obtain ⟨keys', sorted', all', rfl⟩ := shows_other
  have equal : keys = keys' := by
    apply sorted_unique sorted sorted'
    intro key
    rw [all, all', same]
  rw [equal, same]

end Shown

section Records
variable {parse : String → Option TimeOfDay} {parseTime : String → Except String DateTime}
  {user : String} {shutterDevices : Json}

def ownKeys (user : String) (shutterDevices : Json) : List String :=
  (userDevices (some user) shutterDevices).map Prod.fst

theorem mem_ownKeys (user : String) (shutterDevices : Json) (key : String) :
    key ∈ ownKeys user shutterDevices ↔ mine user (homeOf shutterDevices) key ≠ none := by
  rw [ownKeys, own_iff, Option.ne_none_iff_exists']
  simp only [mine_some]

theorem ownKeys_sublist (user : String) (shutterDevices : Json) :
    (ownKeys user shutterDevices).Sublist shutterDevices.keys := by
  have all : (shutterDevices.keys.map fun key => (key, shutterDevices.child key)).map Prod.fst =
      shutterDevices.keys := by
    rw [List.map_map]
    exact List.map_id _
  exact all ▸ List.filter_sublist.map Prod.fst

theorem ownKeys_sorted (left : LeftByApp parse parseTime shutterDevices)
    (plain : ∀ key, mine user (homeOf shutterDevices) key ≠ none → ¬ NegativeZero key) :
    (ownKeys user shutterDevices).Pairwise fun a b => compareKey a b = true := by
  have part := ownKeys_sublist user shutterDevices
  have ordered := (Node.ordered_keys (ordered_left left)).sublist part
  have distinct := (Node.keys_nodup shutterDevices).sublist part
  refine List.Pairwise.imp_of_mem ?_ (ordered.and distinct)
  rintro a b own own' ⟨after, ne⟩
  by_contra before
  rw [Bool.not_eq_true] at before
  rw [mem_ownKeys] at own own'
  exact ne (compareKey_total before after (plain a own) (plain b own'))

theorem showsInOrder_of_lists (left : LeftByApp parse parseTime shutterDevices)
    (plain : ∀ key, mine user (homeOf shutterDevices) key ≠ none → ¬ NegativeZero key)
    {devices : List ShutterDeviceModel}
    (listed : Lists parseTime (some user) shutterDevices devices) (lang : Language) :
    ShowsInOrder lang user (homeOf shutterDevices) (homeScreen lang devices) := by
  refine ⟨ownKeys user shutterDevices, ownKeys_sorted left plain, mem_ownKeys user _, ?_⟩
  have own : (ownKeys user shutterDevices).filterMap
        (fun key => (mine user (homeOf shutterDevices) key).map (cardOf lang key)) =
      (ownKeys user shutterDevices).filterMap
        fun key => (homeOf shutterDevices key).map (cardOf lang key) := by
    apply List.filterMap_congr
    intro key member
    obtain ⟨s, stands⟩ := Option.ne_none_iff_exists'.mp ((mem_ownKeys _ _ _).mp member)
    rw [stands, (mine_some.mp stands).1]
  rw [own]
  exact homeScreen_of_lists lang (sound_left left) listed

/-- A setting of the first shutter in the list. -/
def firstSetting (home : State) (keys : List String) (f : Field) : Option Value :=
  keys.head?.bind fun key => (home key).bind fun s => s.settings f

theorem fromJson_autoPlay {json : Json} {d : ShutterDeviceModel}
    (h : ShutterDeviceModel.fromJson parseTime json = .ok d) :
    asBool? (json.child "autoPlay") = .ok d.autoPlay ∧
      asString? (json.child "autoPlayTime") = .ok d.autoPlayTime := by
  simp only [ShutterDeviceModel.fromJson, bind_ok_iff, pure_ok_iff] at h
  grind

/-- The first of a user's records, as the loads of the settings screen read it. -/
theorem first_read (left : LeftByApp parse parseTime shutterDevices) {shutter : String × Json}
    {rest : List (String × Json)}
    (listed : userDevices (some user) shutterDevices = shutter :: rest) :
    ∃ d : ShutterDeviceModel, asBool? (shutter.2.child "autoPlay") = .ok d.autoPlay ∧
      asString? (shutter.2.child "autoPlayTime") = .ok d.autoPlayTime ∧
      firstSetting (mine user (homeOf shutterDevices)) (ownKeys user shutterDevices) .autoPlay =
        d.autoPlay.map .bool ∧
      firstSetting (mine user (homeOf shutterDevices)) (ownKeys user shutterDevices) .autoPlayTime =
        d.autoPlayTime.map .str := by
  obtain ⟨key, device⟩ := shutter
  have member : (key, device) ∈ userDevices (some user) shutterDevices := by simp [listed]
  obtain ⟨stored, there, own⟩ := mem_userDevices.mp member
  subst stored
  obtain ⟨-, d, decoded⟩ := readable_of_sound (sound_left left key) there
  obtain ⟨flag, time⟩ := fromJson_autoPlay decoded
  obtain ⟨s, stands, owner⟩ := owner_iff.mp own
  have here : mine user (homeOf shutterDevices) key = some s := mine_some.mpr ⟨stands, owner⟩
  have read : ∀ f, firstSetting (mine user (homeOf shutterDevices))
      (ownKeys user shutterDevices) f = ((shutterDevices.child key).child f.name).value? := by
    intro f
    simp only [firstSetting, ownKeys, listed, List.map_cons, List.head?_cons, Option.bind_some,
      here]
    exact settings_of stands f
  exact ⟨d, flag, time, (read .autoPlay).trans (value?_asBool? flag),
    (read .autoPlayTime).trans (value?_asString? time)⟩

def switchShown : Option Value → List Ui
  | some (.bool value) => [.setAutoPlayEnabled value]
  | _ => []

def timeShown : Option Value → List Ui
  | some (.str time) => [.setAutoPlayTime time]
  | _ => []

theorem shown_loads (user : String) (left : LeftByApp parse parseTime shutterDevices) {db : Json}
    (stored : db.child "ShutterDevices" = shutterDevices) :
    shownBy (loadAutoPlayStatus (some user)) db = switchShown
        (firstSetting (mine user (homeOf shutterDevices)) (ownKeys user shutterDevices) .autoPlay) ∧
      shownBy (loadAutoPlayTime (some user)) db = timeShown (firstSetting
        (mine user (homeOf shutterDevices)) (ownKeys user shutterDevices) .autoPlayTime) := by
  have read : db.get ["ShutterDevices"] = shutterDevices := by simp [stored]
  have fetched : ∀ (f : Json → Act Unit), shownBy (Firebase.get ["ShutterDevices"] >>= f) db =
      shownBy (f shutterDevices) db := fun f => read ▸ rfl
  rw [loadAutoPlayStatus, loadAutoPlayTime, fetched, fetched]
  cases listed : userDevices (some user) shutterDevices with
  | nil =>
    have none_first : ∀ f, firstSetting (mine user (homeOf shutterDevices))
        (ownKeys user shutterDevices) f = none := fun f => by simp [firstSetting, ownKeys, listed]
    rw [none_first, none_first]
    exact ⟨rfl, rfl⟩
  | cons shutter rest =>
    obtain ⟨d, flag, time, first, first'⟩ := first_read left listed
    rw [first, first']
    simp only [flag, time, Action.lift_ok_bind]
    constructor
    · cases d.autoPlay <;> rfl
    · cases d.autoPlayTime <;> rfl

end Records

section Phones
variable (parse : String → Option TimeOfDay) (parseTime : String → Except String DateTime)

/-- A phone of the user that has handled every snapshot, after any run over databases that the
    app's operations leave. -/
def CaughtUp (user : String) (s : App) : Prop :=
  ∃ shutterDevices events,
    (∀ snapshot, StoredIn shutterDevices events snapshot → LeftByApp parse parseTime snapshot) ∧
    (∀ e ∈ events, StaysSignedIn e) ∧
    run (step parseTime) (launched (some user) shutterDevices) events = some s ∧
    s.pending ≠ [] ∧ ∀ queue ∈ s.pending, queue = []

variable {parse parseTime} {user : String} {s : App}

theorem caughtUp_lists (caught : CaughtUp parse parseTime user s) :
    LeftByApp parse parseTime s.shutterDevices ∧
      Lists parseTime (some user) s.shutterDevices s.devices := by
  obtain ⟨shutterDevices, events, left, stays, ran, subscribed, handled⟩ := caught
  have inv := supplied_run left stays ran
  exact ⟨left _ inv.stored, supplied_lists inv subscribed handled⟩

/-- Two phones of one user that have caught up, over databases with any histories that hold the
    same shutters for the user, show the same cards in the order of the keys, and their settings
    screens load the same switch and the same time. -/
theorem caught_up_alike {s' : App} (one : CaughtUp parse parseTime user s)
    (two : CaughtUp parse parseTime user s')
    (same : mine user (homeOf s.shutterDevices) = mine user (homeOf s'.shutterDevices))
    (plain : ∀ key, mine user (homeOf s.shutterDevices) key ≠ none → ¬ NegativeZero key)
    (lang : Language) :
    ShowsInOrder lang user (homeOf s.shutterDevices) (homeScreen lang s.devices) ∧
      homeScreen lang s'.devices = homeScreen lang s.devices ∧
      ∀ db db', db.child "ShutterDevices" = s.shutterDevices →
        db'.child "ShutterDevices" = s'.shutterDevices →
        shownBy (loadAutoPlayStatus (some user)) db' = shownBy (loadAutoPlayStatus (some user)) db ∧
        shownBy (loadAutoPlayTime (some user)) db' = shownBy (loadAutoPlayTime (some user)) db := by
  obtain ⟨left, listed⟩ := caughtUp_lists one
  obtain ⟨left', listed'⟩ := caughtUp_lists two
  have plain' : ∀ key, mine user (homeOf s'.shutterDevices) key ≠ none → ¬ NegativeZero key :=
    same ▸ plain
  have screen := showsInOrder_of_lists left plain listed lang
  have screen' := showsInOrder_of_lists left' plain' listed' lang
  refine ⟨screen, showsInOrder_unique screen' screen same.symm, ?_⟩
  intro db db' stored stored'
  have keys : ownKeys user s'.shutterDevices = ownKeys user s.shutterDevices := by
    apply sorted_unique (ownKeys_sorted left' plain') (ownKeys_sorted left plain)
    intro key
    rw [mem_ownKeys, mem_ownKeys, same]
  obtain ⟨switch, time⟩ := shown_loads user left stored
  obtain ⟨switch', time'⟩ := shown_loads user left' stored'
  rw [switch, switch', time, time', keys, same]
  exact ⟨rfl, rfl⟩

def studio : DeviceForm := { deviceName := "Studio", macAddress := "001122334455" }

theorem studio_segment : FirebasePath.IsSegment (newDeviceId studio) := by decide

def salonFirst : List (Move Operation String) :=
  [.start (.saveShutterDevice salon salon_segment ada noon), .answer 0,
    .start (.saveShutterDevice studio studio_segment ada noon), .answer 1]

/-- The salon is deleted once and registered again. -/
def studioFirst : List (Move Operation String) :=
  [.start (.saveShutterDevice salon salon_segment ada noon), .answer 0,
    .start (.saveShutterDevice studio studio_segment ada noon), .answer 1,
    .start (.deleteShutterDevice ⟨newDeviceId salon, salon_segment⟩ (some true)), .answer 2,
    .start (.saveShutterDevice salon salon_segment ada noon), .answer 3]

def bothRegistered : Json := .branch
  [(newDeviceId studio, record studio ada noon), (newDeviceId salon, record salon ada noon)]

theorem leaves_both {moves : List (Move Operation String)}
    (dated : ∀ op, .start op ∈ moves → Dated readNoon op)
    (leaves : (run (Operations.step fun _ => none) ⟨Node.null, []⟩ moves).map
      (fun s => s.store.child "ShutterDevices") = some bothRegistered) :
    LeftByApp (fun _ => none) readNoon bothRegistered := by
  obtain ⟨s, ran, stored⟩ := Option.map_eq_some_iff.mp leaves
  exact ⟨Node.null, moves, s, rfl, dated, ran, stored⟩

theorem caughtUp_opened (left : LeftByApp (fun _ => none) readNoon bothRegistered) :
    ∃ s, CaughtUp (fun _ => none) readNoon "uid-1" s ∧ s.shutterDevices = bothRegistered := by
  have goes : (run (step readNoon) (launched (some "uid-1") bothRegistered)
      [.showHome, .deliver 0]).map (fun s => (s.pending, s.shutterDevices)) =
        some ([[]], bothRegistered) := by decide +kernel
  obtain ⟨s, ran, ends⟩ := Option.map_eq_some_iff.mp goes
  obtain ⟨pending, stored⟩ := Prod.mk.inj ends
  refine ⟨s, ⟨bothRegistered, _, ?_, by simp [StaysSignedIn], ran, by simp [pending],
    by simp [pending]⟩, stored⟩
  intro snapshot held
  rcases held with rfl | written
  · exact left
  · simp at written

theorem registered_alike : ∃ s s' : App,
    ShowsInOrder .it "uid-1" (homeOf bothRegistered) (homeScreen .it s.devices) ∧
      homeScreen .it s'.devices = homeScreen .it s.devices ∧
      ∀ db db', db.child "ShutterDevices" = s.shutterDevices →
        db'.child "ShutterDevices" = s'.shutterDevices →
        shownBy (loadAutoPlayStatus (some "uid-1")) db' =
          shownBy (loadAutoPlayStatus (some "uid-1")) db ∧
        shownBy (loadAutoPlayTime (some "uid-1")) db' =
          shownBy (loadAutoPlayTime (some "uid-1")) db := by
  have dated : ∀ moves, moves = salonFirst ∨ moves = studioFirst → ∀ op, .start op ∈ moves →
      Dated readNoon op := by
    rintro moves (rfl | rfl) op member
    · simp only [salonFirst, List.mem_cons, Move.start.injEq, reduceCtorEq, List.not_mem_nil,
        or_false, false_or] at member
      rcases member with rfl | rfl
      · exact ⟨noon, rfl⟩
      · exact ⟨noon, rfl⟩
    · simp only [studioFirst, List.mem_cons, Move.start.injEq, reduceCtorEq, List.not_mem_nil,
        or_false, false_or] at member
      rcases member with rfl | rfl | rfl | rfl
      · exact ⟨noon, rfl⟩
      · exact ⟨noon, rfl⟩
      · trivial
      · exact ⟨noon, rfl⟩
  obtain ⟨s, caught, stored⟩ := caughtUp_opened
    (leaves_both (dated salonFirst (Or.inl rfl)) (by decide +kernel))
  obtain ⟨s', caught', stored'⟩ := caughtUp_opened
    (leaves_both (dated studioFirst (Or.inr rfl)) (by decide +kernel))
  have plain : ∀ key, mine "uid-1" (homeOf s.shutterDevices) key ≠ none → ¬ NegativeZero key := by
    have named : ∀ key ∈ bothRegistered.keys, ¬ NegativeZero key := by decide
    intro key own
    rw [stored, ← mem_ownKeys] at own
    exact named key ((ownKeys_sublist "uid-1" bothRegistered).subset own)
  exact ⟨s, s', stored ▸ caught_up_alike caught caught' (by rw [stored, stored']) plain .it⟩

end Phones
end CardOrder
