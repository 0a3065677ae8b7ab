import ShutterEase.Isolation
import ShutterEase.Receipts

/-!
What a success message is worth. Once a command has reported success, every device that it was
for holds the value that it sets, then and for as long as every operation that is started and
would write to the field asks for the same value.
-/
namespace Confirmations
open KeyedTree Resumption Interleaving Receipts Runs Firebase FirebasePath ShutterModels
open AccountDevices DeviceController CommandsController AutoPlayController ScheduleController
open Registration Operations Ownership BulkCommands Effects Isolation

/-- Messages that tell the user that something has been done. -/
def Succeeds : Ui → Prop
  | .showSuccessSnackkbar _ _ | .showSuccessToast _ => True
  | _ => False

/-- The operations that report once, after their last write. The setting of automatic opening
    reports after each device. -/
def ReportsOnce : Operation → Prop
  | .updateAutoPlayStatus _ _ | .setupAutoPlayShutters _ _ => False
  | _ => True

section Conditions
variable (parse : String → Option TimeOfDay) (owner key field : String) (value : Json)

/-- The command gives the field of the device that value, by its query or by the device's id. -/
def Sets (op : Operation) : Prop :=
  ReportsOnce op ∧
    ((∃ q, query parse op = some q ∧ q.user = some owner ∧ (field, value) ∈ q.fields) ∨
      place op = some key ∧ (field, value) ∈ settings op)

/-- The operation writes nothing else to the field of the device. -/
def Consistent (op : Operation) : Prop :=
  (place op = some key → ∀ v, Writes op field v → v = value) ∧
    ∀ q, query parse op = some q → q.user = some owner → ∀ e ∈ q.fields, e.1 = field → e.2 = value

end Conditions

section Calls
variable {parse : String → Option TimeOfDay} {owner key field : String} {value : Json}

def Owned (owner key : String) (db : Json) : Prop := owned owner db key

def Holds (key field : String) (value : Json) (db : Json) : Prop :=
  (deviceNode db key).child field = value

theorem settings_distinct (op : Operation) : ((settings op).map Prod.fst).Nodup := by
  cases op <;> simp [settings]

/-- What writes the owner's field of its device writes any field. -/
theorem writes_userId {op : Operation} {v : Json} (writes : Writes op "userId" v) :
    ∀ field w, Writes op field w := by
  cases op with
  | saveShutterDevice | deleteShutterDevice => exact fun _ _ => trivial
  | toggleDeviceStatus => simp [Writes] at writes
  | saveSchedule => simp [Writes] at writes
  | _ => simp [Writes, settings] at writes

theorem served_owned {other : String} {allowed : String → Json → Prop} {c : DbCall}
    (here : At other allowed c) (silent : other = key → ∀ v, ¬ allowed "userId" v)
    (only : other = key → ∀ v, allowed field v → v = value) {db db' reply : Json}
    (own : Owned owner key db) (served : respond c db = .ok (db', reply)) :
    Owned owner key db' ∧ (Holds key field value db → Holds key field value db') := by
  constructor
  · have kept := child_at silent here served
    simpa only [Owned, owned, ownedBy, kept] using own
  · intro holds
    by_cases allows : other = key ∧ ∃ v, allowed field v
    · obtain ⟨same, v, allow⟩ := allows
      subst same
      cases c with
      | get path =>
        simp only [respond, serve, Except.ok.injEq, Prod.mk.injEq] at served
        rw [Holds, ← served.1]
        exact holds
      | set path written => exact absurd (here.2 "userId" v) (silent rfl v)
      | remove path => exact absurd (here.2 "userId" v) (silent rfl v)
      | update path fields =>
        simp only [respond, serve, Except.ok.injEq, Prod.mk.injEq] at served
        rw [Holds, ← served.1]
        rcases here with ⟨rfl, each⟩ | ⟨day, rfl, schedule⟩
        · rw [deviceNode, Node.get_update_same]
          rcases Node.child_merge_cases (db.get ["ShutterDevices", other]) fields field with
            ⟨e, member, name, stored⟩ | ⟨-, kept⟩
          · rw [stored]
            exact only rfl e.2 (name ▸ each e member)
          · exact kept.trans holds
        · rw [child_update _ (Or.inr ⟨other, day, rfl⟩)]
          · exact holds
          · rintro rfl
            -- the field is `Schedule` itself, and any value may be written below it
            have null := only rfl .null (schedule .null)
            have leaf := only rfl (Json.bool true) (schedule _)
            rw [← null] at leaf
            simp [Json.bool] at leaf
    · have unnamed : other = key → ∀ v, ¬ allowed field v := fun same v allow =>
        allows ⟨same, v, allow⟩
      rw [Holds, child_at unnamed here served]
      exact holds

theorem settles_consistent {op : Operation} (agrees : Consistent parse owner key field value op) :
    Settles respond (Owned owner key) (Holds key field value) (program parse op) := by
  obtain ⟨placed, asked⟩ := agrees
  cases asks : query parse op with
  | some q =>
    apply settles_of_opens (query_opens parse asks)
    · intro c first db db' reply own served
      subst first
      simp only [respond, serve, Except.ok.injEq, Prod.mk.injEq] at served
      exact served.1 ▸ ⟨own, id⟩
    · intro c db db' reply c' first own served listed t t' r' own' served'
      subst first
      simp only [respond, serve, Except.ok.injEq, Prod.mk.injEq] at served
      obtain ⟨snapshot, k, shown, picked, rfl⟩ := listed
      simp only [Except.ok.injEq] at shown
      have at_k : At k (fun field value => (field, value) ∈ q.fields)
          (.update ["ShutterDevices", k] q.fields) := Or.inl ⟨rfl, fun e member => member⟩
      refine served_owned at_k ?_ ?_ own' served'
      · intro _ v written
        exact (query_distinct parse asks).2 (List.mem_map.mpr ⟨_, written, rfl⟩)
      · intro same v written
        subst same
        have theirs : ownedBy q.user (deviceNode db k) = true := by
          simp only [Query.picks, Bool.and_eq_true, ← shown, ← served.2] at picked
          exact picked.1.2
        exact asked q asks (owner_unique own theirs rfl) _ written rfl
    · intro c e c' first listed
      obtain ⟨snapshot, k, shown, -⟩ := listed
      simp at shown
  | none =>
    apply settles_of_issues
    cases named : place op with
    | some other =>
      have only : other = key → ∀ v, Writes op field v → v = value :=
        fun same => placed (same ▸ named)
      have silent : other = key → ∀ v, ¬ Writes op "userId" v := by
        intro same v writes
        have any := writes_userId writes
        have null := only same .null (any field .null)
        have leaf := only same (Json.bool true) (any field _)
        rw [← null] at leaf
        simp [Json.bool] at leaf
      apply issues_of_opens (place_opens parse named)
      · exact fun c here t t' r own served => served_owned here silent only own served
      · exact fun _ _ c _ here t t' r own served => served_owned here silent only own served
    | none =>
      apply issues_of_opens (reads_opens parse asks named)
      · intro c first t t' r own served
        subst first
        simp only [respond, serve, Except.ok.injEq, Prod.mk.injEq] at served
        exact served.1 ▸ ⟨own, id⟩
      · exact fun _ _ _ _ no => no.elim

end Calls

section Programs
variable {parse : String → Option TimeOfDay} {owner key field : String} {value : Json}

/-- A client that still owes the value and ends has thrown. -/
abbrev Owing (owner key field : String) (value : Json) (p : Act Unit) : Prop :=
  Owes respond (Owned owner key) (Holds key field value) Succeeds (fun r => ∃ e, r = .error e) p

theorem holds_merged {fields : List (String × Json)} (distinct : (fields.map Prod.fst).Nodup)
    (written : (field, value) ∈ fields) {db db' reply : Json}
    (served : respond (.update ["ShutterDevices", key] fields) db = .ok (db', reply)) :
    Holds key field value db' := by
  simp only [respond, serve, Except.ok.injEq, Prod.mk.injEq] at served
  rw [Holds, ← served.1, deviceNode, Node.get_update_same]
  exact Node.child_merge_written distinct written _

/-- The loop reaches the device, or ends at a write that fails. -/
theorem owing_updateEach {fields : List (String × Json)} (distinct : (fields.map Prod.fst).Nodup)
    (written : (field, value) ∈ fields) {devices : List (String × Json)}
    (listed : key ∈ devices.map Prod.fst) :
    Owing owner key field value (updateEach fields [] devices) := by
  induction devices with
  | nil => simp at listed
  | cons device rest ih =>
    refine ⟨?_, fun e => ⟨e, rfl⟩⟩
    intro db db' reply own served
    by_cases here : device.1 = key
    · left
      subst here
      exact holds_merged distinct written served
    · right
      exact ih (by simpa [Ne.symm here] using listed)

/-- The query's answer holds the device as long as the owner is the same. -/
theorem listed_of_owned {db snapshot : Json} (own : Owned owner key db)
    (read : snapshot = db.child "ShutterDevices") :
    key ∈ (userDevices (some owner) snapshot).map Prod.fst := by
  rw [key_mem_userDevices, read]
  exact own

theorem owes_handled {p : Act Unit} {handle : String → Act Unit} (h : Owing owner key field value p)
    (silent : ∀ e, Owes respond (Owned owner key) (Holds key field value) Succeeds
      (fun _ => True) (handle e)) :
    Owes respond (Owned owner key) (Holds key field value) Succeeds (fun _ => True)
      (Action.tryCatch p handle) := by
  apply owes_tryCatch
  refine owes_mono ?_ h
  rintro r ⟨e, rfl⟩
  exact silent e

theorem owing_bulkCommand {command : Command} (distinct : (command.fields.map Prod.fst).Nodup)
    (written : (field, value) ∈ command.fields) :
    Owes respond (Owned owner key) (Holds key field value) Succeeds (fun _ => True)
      (bulkCommand command (some owner)) := by
  refine owes_handled ?_ fun e => show Owes _ _ _ _ _ _ from ⟨id, id, trivial⟩
  apply owes_tell_then id
  apply owes_request_then _ fun e => ⟨e, rfl⟩
  intro db db' snapshot own served
  simp only [respond, serve, Except.ok.injEq, Prod.mk.injEq] at served
  have listed := listed_of_owned own served.2.symm
  right
  cases devices : userDevices (some owner) snapshot with
  | nil => simp [devices] at listed
  | cons device rest =>
    rw [devices] at listed
    apply owes_andThen
    refine owes_mono ?_ (owing_updateEach distinct written listed)
    rintro r ⟨e, rfl⟩
    exact ⟨e, rfl⟩

theorem owing_updateAutoPlayTime (time : String) :
    Owes respond (Owned owner key) (Holds key "autoPlayTime" (Json.str time)) Succeeds
      (fun _ => True) (updateAutoPlayTime (some owner) time) := by
  refine owes_handled ?_ fun e => show Owes _ _ _ _ _ _ from ⟨id, trivial⟩
  apply owes_request_then _ fun e => ⟨e, rfl⟩
  intro db db' snapshot own served
  simp only [respond, serve, Except.ok.injEq, Prod.mk.injEq] at served
  have listed := listed_of_owned own served.2.symm
  right
  cases devices : userDevices (some owner) snapshot with
  | nil => simp [devices] at listed
  | cons device rest =>
    rw [devices] at listed
    apply owes_andThen
    refine owes_mono ?_ (owing_updateEach (by simp) (by simp) listed)
    rintro r ⟨e, rfl⟩
    exact ⟨e, rfl⟩

theorem owing_guarded {device : DeviceId} {fields : List (String × Json)} {shown : Act Unit}
    {handle : String → Act Unit} (distinct : (fields.map Prod.fst).Nodup)
    (written : (field, value) ∈ fields)
    (silent : ∀ e, Owes respond (Owned owner device.1) (Holds device.1 field value) Succeeds
      (fun _ => True) (handle e)) :
    Owes respond (Owned owner device.1) (Holds device.1 field value) Succeeds (fun _ => True)
      (Action.tryCatch (do
        let deviceRef ← ref (devicePath device.1)
        update deviceRef fields
        shown) handle) := by
  apply owes_handled _ silent
  simp only [ref, ref_segment device.2, Action.lift_ok_bind]
  refine ⟨?_, fun e => ⟨e, rfl⟩⟩
  intro db db' reply own served
  exact Or.inl (holds_merged distinct written served)

/-- A command that sets the value owes it from its start. -/
theorem owing_sets {op : Operation} (sets : Sets parse owner key field value op) :
    Owes respond (Owned owner key) (Holds key field value) Succeeds (fun _ => True)
      (program parse op) := by
  obtain ⟨once, why⟩ := sets
  have bulk : ∀ (c : Bulk), (field, value) ∈ c.fields →
      Owes respond (Owned owner key) (Holds key field value) Succeeds (fun _ => True)
        (c.program (some owner)) := by
    intro c written
    obtain ⟨command, same, fields⟩ := bulk_command c
    rw [same]
    rw [← fields] at written
    refine owing_bulkCommand ?_ written
    rw [fields]
    cases c <;> simp [Bulk.fields]
  rcases why with ⟨q, asks, user, written⟩ | ⟨named, written⟩
  · cases op with
    | updateAutoPlayStatus => exact once.elim
    | setupAutoPlayShutters => exact once.elim
    | updateAutoPlayTime user' time =>
      cases asks
      cases (user : user' = some owner)
      simp only [always, List.mem_singleton, Prod.mk.injEq] at written
      obtain ⟨rfl, rfl⟩ := written
      exact owing_updateAutoPlayTime time
    | openAll user' => cases asks; cases (user : user' = some owner); exact bulk .openAll written
    | closeAll user' => cases asks; cases (user : user' = some owner); exact bulk .closeAll written
    | playAll user' => cases asks; cases (user : user' = some owner); exact bulk .playAll written
    | stopAll user' => cases asks; cases (user : user' = some owner); exact bulk .stopAll written
    | openAllAndStop user' =>
      cases asks; cases (user : user' = some owner); exact bulk .openAllAndStop written
    | closeAllAndStop user' =>
      cases asks; cases (user : user' = some owner); exact bulk .closeAllAndStop written
    | calenderON user' =>
      cases asks; cases (user : user' = some owner); exact bulk .calenderON written
    | calenderOFF user' =>
      cases asks; cases (user : user' = some owner); exact bulk .calenderOFF written
    | _ => simp [query] at asks
  · have distinct := settings_distinct op
    cases op with
    | updateDevice device =>
      cases named
      exact owing_guarded distinct written fun e => ⟨id, trivial⟩
    | updateDeviceNewData device =>
      cases named
      exact owing_guarded distinct written fun e => ⟨id, trivial⟩
    | resetAlarm device =>
      cases named
      exact owing_guarded distinct written fun e => ⟨id, trivial⟩
    | _ => simp [settings] at written

/-- In every run in which no started operation asks for another value: once a command that sets
    the value has shown a success message, the device holds the value, then and later. -/
theorem confirmed_value_held {db : Json} (own : owned owner db key) {op : Operation}
    (sets : Sets parse owner key field value op) {before after : List (Move Operation String)}
    (agree : ∀ op', .start op' ∈ before ++ .start op :: after →
      Consistent parse owner key field value op') {s₀ s : System}
    (ran : run (step parse) ⟨db, []⟩ before = some s₀)
    (ran' : run (step parse) s₀ (.start op :: after) = some s) {client : Act Unit}
    (at_client : s.clients[s₀.clients.length]? = some client) {o : Ui}
    (shown : o ∈ onDisplay client) (success : Succeeds o) :
    (deviceNode s.store key).child field = value := by
  have settle : ∀ op', .start op' ∈ before ++ .start op :: after →
      Settles respond (Owned owner key) (Holds key field value) (program parse op') :=
    fun op' started => settles_consistent (agree op' started)
  exact paid_of_claimed own (by simp) settle (owing_sets sets) ran ran' at_client shown success

end Programs

section Taken

/-- A command by each user, and the second user's message on display at the end. -/
theorem opened_while_another_closes : ∃ s₀ s : System, ∃ client : Act Unit,
    run (step fun _ => none) ⟨twoDevices, []⟩ [.start (.closeAll (some "uid-2")), .answer 0] =
      some s₀ ∧
    run (step fun _ => none) s₀
      [.start (.openAll (some "uid-1")), .answer 1, .answer 0, .answer 1] = some s ∧
    s.clients[s₀.clients.length]? = some client ∧
    Ui.showSuccessSnackkbar "Success!" "All shutters have been successfully opened." ∈
      onDisplay client ∧
    (deviceNode s.store "001122334455").child "shutterIconStatus" = Json.bool true := by
  have own : ownedBy (some "uid-1") (deviceNode twoDevices "001122334455") = true := by decide
  have sets : Sets (fun _ => none) "uid-1" "001122334455" "shutterIconStatus" (Json.bool true)
      (.openAll (some "uid-1")) :=
    ⟨trivial, Or.inl ⟨_, rfl, rfl, List.mem_singleton.mpr rfl⟩⟩
  have goes : ∃ s₀ s : System, ∃ client : Act Unit,
      run (step fun _ => none) ⟨twoDevices, []⟩ [.start (.closeAll (some "uid-2")), .answer 0] =
        some s₀ ∧
      run (step fun _ => none) s₀
        [.start (.openAll (some "uid-1")), .answer 1, .answer 0, .answer 1] = some s ∧
      s.clients[s₀.clients.length]? = some client ∧
      Ui.showSuccessSnackkbar "Success!" "All shutters have been successfully opened." ∈
        onDisplay client :=
    ⟨_, _, _, rfl, rfl, rfl, List.mem_cons_of_mem _ List.mem_cons_self⟩
  obtain ⟨s₀, s, client, ran, ran', at_client, shown⟩ := goes
  refine ⟨s₀, s, client, ran, ran', at_client, shown, ?_⟩
  refine confirmed_value_held own sets ?_ ran ran' at_client shown trivial
  intro op member
  simp only [List.cons_append, List.nil_append, List.mem_cons, Move.start.injEq, reduceCtorEq,
    List.not_mem_nil, or_false, false_or] at member
  rcases member with rfl | rfl
  · refine ⟨by simp [place], ?_⟩
    intro q asks user
    cases asks
    simp [always] at user
  · refine ⟨by simp [place], ?_⟩
    intro q asks user e written named
    cases asks
    simp only [always, Bulk.fields, List.mem_singleton] at written
    rw [written]

end Taken
end Confirmations
