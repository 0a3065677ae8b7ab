import ShutterEase.Ownership

/-!
A removed device under every interleaving: it comes back exactly when a client that was in
flight at the removal still has a write to it ahead, or an operation given its id is started.
Operations that read first and find it gone leave it alone.
-/
namespace Deletion
open KeyedTree Resumption Interleaving Runs Firebase FirebasePath ShutterModels AccountDevices
open DeviceController CommandsController AutoPlayController ScheduleController Registration
open Operations Ownership

def Absent (d : String) (db : Json) : Prop := deviceNode db d = Node.null

/-- The operation is given the id and writes to it without looking. -/
def Addresses (d : String) : Operation → Prop
  | .saveShutterDevice form _ _ _ => newDeviceId form = d
  | .updateDevice device _ _ _ _ _ => device.1 = d
  | .updateDeviceNewData device _ _ _ _ _ _ _ _ => device.1 = d
  | .resetAlarm device => device.1 = d
  | .saveSchedule device _ _ _ => device.1 = d
  | _ => False

/-- Answered from trees without the device, the client never puts it back. -/
def LeavesAlone (d : String) (q : Act Unit) : Prop := Keeps respond (Absent d) q

def KeepsAbsent (d : String) (c : DbCall) : Prop :=
  ∀ db db' reply, Absent d db → respond c db = .ok (db', reply) → Absent d db'

section Calls
variable {d key : String}

theorem keepsAbsent_get (path : List String) : KeepsAbsent d (.get path) := by
  intro db db' reply absent served
  simp only [respond, serve, Except.ok.injEq, Prod.mk.injEq] at served
  rw [← served.1]
  exact absent

theorem keepsAbsent_set (ne : key ≠ d) (value : Json) :
    KeepsAbsent d (.set ["ShutterDevices", key] value) := by
  intro db db' reply absent served
  simp only [respond, serve, Except.ok.injEq, Prod.mk.injEq] at served
  rw [← served.1, Absent, deviceNode_set_ne (Ne.symm ne)]
  exact absent

theorem keepsAbsent_update (ne : key ≠ d) (below : List String) (fields : List (String × Json)) :
    KeepsAbsent d (.update ("ShutterDevices" :: key :: below) fields) := by
  intro db db' reply absent served
  simp only [respond, serve, Except.ok.injEq, Prod.mk.injEq] at served
  rw [← served.1, Absent, Node.update, deviceNode_set_ne (Ne.symm ne)]
  exact absent

theorem keepsAbsent_remove (key : String) : KeepsAbsent d (.remove ["ShutterDevices", key]) := by
  intro db db' reply absent served
  simp only [respond, serve, Except.ok.injEq, Prod.mk.injEq] at served
  rw [← served.1]
  by_cases same : key = d
  · subst same
    exact Node.get_set_same db _ Node.null
  · rw [Absent, Node.remove, deviceNode_set_ne (Ne.symm same)]
    exact absent

end Calls

section Programs
variable {d : String}

/-- An opening call on some device is made by an operation given that device. -/
theorem first_ne {op : Operation} (other : ¬ Addresses d op) {key : String} {below : List String}
    {fields : List (String × Json)} (first : First op (.update ("ShutterDevices" :: key :: below)
      fields)) : key ≠ d := by
  intro same
  subst same
  cases op with
  | updateDevice device =>
    obtain ⟨fields, eq, -⟩ := first
    simp only [Call.update.injEq, List.cons.injEq] at eq
    exact other eq.1.2.1.symm
  | updateDeviceNewData device =>
    obtain ⟨fields, eq, -⟩ := first
    simp only [Call.update.injEq, List.cons.injEq] at eq
    exact other eq.1.2.1.symm
  | resetAlarm device =>
    obtain ⟨fields, eq, -⟩ := first
    simp only [Call.update.injEq, List.cons.injEq] at eq
    exact other eq.1.2.1.symm
  | saveSchedule device =>
    obtain ⟨day, fields, eq⟩ := first
    simp only [Call.update.injEq, List.cons.injEq] at eq
    exact other eq.1.2.1.symm
  | _ => simp [First] at first

theorem keepsAbsent_first {op : Operation} (other : ¬ Addresses d op) {c : DbCall}
    (first : First op c) : KeepsAbsent d c := by
  cases c with
  | get path => exact keepsAbsent_get path
  | set path value =>
    cases op with
    | saveShutterDevice form segment userData now =>
      simp only [First, Call.set.injEq] at first
      rw [first.1]
      exact keepsAbsent_set other value
    | _ => simp [First] at first
  | update path fields =>
    rcases deviceCall_first first with ⟨key, rfl, -⟩ | ⟨key, day, rfl⟩
    · exact keepsAbsent_update (first_ne other first) [] fields
    · exact keepsAbsent_update (first_ne other first) ["Schedule", day] fields
  | remove path =>
    obtain ⟨key, rfl⟩ := deviceCall_first first
    exact keepsAbsent_remove key

/-- A snapshot taken without the device never leads to a write to it. -/
theorem keepsAbsent_answered {op : Operation} (other : ¬ Addresses d op) {c c' : DbCall}
    {db db' reply : Json} (first : First op c) (absent : Absent d db)
    (served : respond c db = .ok (db', reply)) (follows : Follows c (.ok reply) c') :
    KeepsAbsent d c' := by
  cases follows with
  | @listed _ key fields there plain =>
    simp only [respond, serve, Except.ok.injEq, Prod.mk.injEq] at served
    obtain ⟨-, rfl⟩ := served
    apply keepsAbsent_update _ [] fields
    intro same
    subst same
    exact there (by simpa [Absent, deviceNode] using absent)
  | @found _ key fields there plain =>
    simp only [respond, serve, Except.ok.injEq, Prod.mk.injEq] at served
    obtain ⟨-, rfl⟩ := served
    apply keepsAbsent_update _ [] fields
    intro same
    subst same
    exact there absent
  | nextDay => exact keepsAbsent_update (first_ne other first) _ _

theorem keepsAbsent_failed {op : Operation} (other : ¬ Addresses d op) {c c' : DbCall}
    {e : String} (first : First op c) (follows : Follows c (.error e) c') : KeepsAbsent d c' := by
  cases follows with
  | nextDay => exact keepsAbsent_update (first_ne other first) _ _

theorem leavesAlone_of_opens {op : Operation} (other : ¬ Addresses d op) {q : Act Unit}
    (opens : Opens (First op) Follows q) : LeavesAlone d q :=
  keeps_of_opens opens (fun _ first => keepsAbsent_first other first)
    (fun _ _ _ _ _ first absent served follows =>
      keepsAbsent_answered other first absent served follows)
    fun _ _ _ first follows => keepsAbsent_failed other first follows

theorem leavesAlone_performAll (shown : List Ui) (q : Act Unit) :
    LeavesAlone d (performAll shown >>= fun _ => q : Act Unit) ↔ LeavesAlone d q := by
  induction shown with
  | nil => exact Iff.rfl
  | cons o rest ih => exact ih

theorem absent_null : Absent d Node.null := by simp [Absent, deviceNode]

end Programs

/-! What a client in flight still has ahead of it: one write, which a report follows, or the rest of
one of the three loops. A client that has not read yet is the case above. -/
section InFlight
variable {d key : String} {fields : List (String × Json)}

theorem keepsAbsent_update_iff (shows : (Node.null.merge fields : Json) ≠ Node.null) :
    KeepsAbsent d (.update ["ShutterDevices", key] fields) ↔ key ≠ d := by
  refine ⟨?_, fun ne => keepsAbsent_update ne [] fields⟩
  rintro kept rfl
  have absent := kept _ _ _ absent_null rfl
  rw [Absent, deviceNode, Node.get_update_same] at absent
  exact shows (by simpa using absent)

theorem keepsAbsent_set_iff {value : Json} (filled : value ≠ Node.null) :
    KeepsAbsent d (.set ["ShutterDevices", key] value) ↔ key ≠ d := by
  refine ⟨?_, fun ne => keepsAbsent_set ne value⟩
  rintro kept rfl
  have absent := kept _ _ _ absent_null rfl
  rw [Absent, deviceNode, Node.get_set_same] at absent
  exact filled absent

theorem keepsAbsent_day_iff (day : String)
    (shows : (Node.null.merge fields : Json) ≠ Node.null) :
    KeepsAbsent d (.update ["ShutterDevices", key, "Schedule", day] fields) ↔ key ≠ d := by
  refine ⟨?_, fun ne => keepsAbsent_update ne ["Schedule", day] fields⟩
  rintro kept rfl
  have absent := kept _ _ _ absent_null rfl
  have written := Node.get_update_same (Node.null : Json)
    ["ShutterDevices", key, "Schedule", day] fields
  have split : ["ShutterDevices", key, "Schedule", day] =
    ["ShutterDevices", key] ++ ["Schedule", day] := rfl
  rw [Absent, deviceNode] at absent
  rw [split, Node.get_append, ← split, absent] at written
  exact shows (by simpa using written.symm)

/-- A toggle, an update or a registration past its read, and a removal: one call and a report. -/
theorem leavesAlone_call_iff {c : DbCall} {k : Except String Json → Act Unit}
    (quiet : ∀ r, Quiet (k r)) : LeavesAlone d (.call c k) ↔ KeepsAbsent d c :=
  ⟨fun alone _ _ _ absent served => (alone.1 _ _ _ absent served).1,
    fun kept => keeps_of_issues ⟨kept, fun r => issues_of_quiet (quiet r)⟩⟩

/-- The handler and the report around a loop do not matter. -/
theorem leavesAlone_guarded_iff {body : Act Unit} {shown : Unit → Act Unit}
    {handle : String → Act Unit} (told : Quiet (shown ())) (handled : ∀ e, Quiet (handle e)) :
    LeavesAlone d (Action.tryCatch (body >>= shown) handle) ↔ LeavesAlone d body := by
  refine (keeps_bind_quiet fun r => ?_).trans (keeps_bind_quiet fun r => ?_)
  · cases r with
    | ok a => trivial
    | error e => exact handled e
  · cases r with
    | ok a => exact told
    | error e => trivial

/-- A loop in flight leaves a device alone exactly when none of its remaining entries is it. -/
theorem leavesAlone_updateEach_iff (shows : (Node.null.merge fields : Json) ≠ Node.null)
    (shown : List Ui) (devices : List (String × Json)) :
    LeavesAlone d (updateEach fields shown devices) ↔ d ∉ devices.map Prod.fst := by
  constructor
  · intro alone member
    induction devices with
    | nil => simp at member
    | cons device rest ih =>
      have kept : KeepsAbsent d (.update ["ShutterDevices", device.1] fields) :=
        fun _ _ _ absent served => (alone.1 _ _ _ absent served).1
      have other := (keepsAbsent_update_iff shows).mp kept
      have later := (alone.1 _ _ _ absent_null rfl).2
      apply ih ((leavesAlone_performAll shown _).mp later)
      simpa [Ne.symm other] using member
  · intro other
    apply keeps_of_issues
    apply issues_updateEach
    intro device member
    apply keepsAbsent_update _ [] fields
    intro same
    subst same
    exact other (List.mem_map.mpr ⟨device, member, rfl⟩)

/-- The scheduler's loop: none of the devices that it will find due. -/
theorem leavesAlone_playEach_iff (parse : String → Option TimeOfDay) (now : TimeOfDay)
    (shutters : List (String × Json)) :
    LeavesAlone d (playEach parse now shutters) ↔ d ∉ opened parse now shutters := by
  have full : (Node.null.merge openingFields : Json).isNull = false := rfl
  have shows : (Node.null.merge openingFields : Json) ≠ Node.null :=
    fun empty => Bool.false_ne_true (full.symm.trans (Node.isNull_iff.mpr empty))
  induction shutters with
  | nil => exact ⟨fun _ => List.not_mem_nil, fun _ => trivial⟩
  | cons shutter rest ih =>
    unfold playEach opened
    cases asBool (shutter.2.child "autoPlay") with
    | error e => exact ⟨fun _ => List.not_mem_nil, fun _ => trivial⟩
    | ok autoPlayEnabled =>
      cases asString (shutter.2.child "autoPlayTime") with
      | error e => exact ⟨fun _ => List.not_mem_nil, fun _ => trivial⟩
      | ok autoPlayTime =>
        simp only [Action.lift_ok_bind]
        by_cases opens : opensAt parse now autoPlayEnabled autoPlayTime = true
        · have other : ¬ d = shutter.1 ↔
              KeepsAbsent d (.update ["ShutterDevices", shutter.1] openingFields) :=
            ne_comm.trans (keepsAbsent_update_iff shows).symm
          simp only [opens, ↓reduceIte, List.mem_cons, not_or, ← ih, other]
          constructor
          · exact fun alone => ⟨fun _ _ _ absent served => (alone.1 _ _ _ absent served).1,
              (alone.1 _ _ _ absent_null rfl).2⟩
          · rintro ⟨kept, later⟩
            exact ⟨fun _ _ _ absent served => ⟨kept _ _ _ absent served, later⟩, fun _ => later⟩
        · simp only [opens, Bool.false_eq_true, ↓reduceIte]
          exact ih

/-- A save in flight: it has no day left, or another device. -/
theorem leavesAlone_saveDays_iff (lang : Language) (rows : Fin 7 → Times) (l : List (Fin 7)) :
    LeavesAlone d (saveDays ["ShutterDevices", key, "Schedule"] lang rows l) ↔
      l = [] ∨ key ≠ d := by
  constructor
  · intro alone
    cases l with
    | nil => exact Or.inl rfl
    | cons i rest =>
      have shows : (Node.null.merge (newSchedule (days lang i) (rows i)).toJson : Json) ≠
          Node.null := by
        intro empty
        have decoded := ScheduleModel.fromJson_merge (newSchedule (days lang i) (rows i)) Node.null
        rw [empty] at decoded
        cases decoded
      refine Or.inr ((keepsAbsent_day_iff (days lang i) shows).mp ?_)
      exact fun _ _ _ absent served => (alone.1 _ _ _ absent served).1
  · rintro (rfl | ne)
    · trivial
    · exact keeps_of_issues (issues_saveDays fun i => keepsAbsent_update ne _ _)

end InFlight

section Blind
variable {d : String}

/-- A client past its read: what it still writes no longer depends on the tree. -/
def Blind (q : Act Unit) : Prop := Issues (fun c => DeviceCall c ∧ ∀ path, c ≠ .get path) q

/-- Every client of a run of the app. -/
def Known (q : Act Unit) : Prop := Blind q ∨ ∃ op, Opens (First op) Follows q

theorem blind_follows {c c' : DbCall} {r : Except String Json} (h : Follows c r c') :
    DeviceCall c' ∧ ∀ path, c' ≠ .get path := by
  refine ⟨deviceCall_follows h, ?_⟩
  intro path
  cases h <;> simp

theorem first_not_get {op : Operation} (addressed : Addresses d op) {c : DbCall}
    (first : First op c) : ∀ path, c ≠ .get path := by
  intro path eq
  subst eq
  cases op <;> simp [First, Addresses] at first addressed

theorem blind_of_not_leavesAlone {q : Act Unit} (known : Known q) (stirs : ¬ LeavesAlone d q) :
    Blind q := by
  rcases known with blind | ⟨op, opens⟩
  · exact blind
  · by_cases addressed : Addresses d op
    · exact issues_of_opens opens
        (fun c first => ⟨deviceCall_first first, first_not_get addressed first⟩)
        fun _ _ _ _ follows => blind_follows follows
    · exact absurd (leavesAlone_of_opens addressed opens) stirs

theorem known_awaited {q : Act Unit} (known : Known q) {c : DbCall}
    {k : Except String Json → Act Unit} (waits : awaiting q = some (c, k)) (r) : Known (k r) := by
  rcases known with blind | ⟨op, opens⟩
  · exact Or.inl ((issues_awaited blind waits).2 r)
  · exact Or.inl (issues_mono ((opens_awaited opens waits).2 r) fun _ => blind_follows)

/-- On two trees without the device, a write answers alike and puts it back alike. -/
theorem respond_alike {c : DbCall} (call : DeviceCall c) (write : ∀ path, c ≠ .get path)
    {db db' t t' r r' : Json} (absent : Absent d db) (absent' : Absent d t)
    (served : respond c db = .ok (db', r)) (served' : respond c t = .ok (t', r')) :
    r = r' ∧ deviceNode db' d = deviceNode t' d := by
  have alike : ∀ key below fields, deviceNode (db.update ("ShutterDevices" :: key :: below) fields) d =
      deviceNode (t.update ("ShutterDevices" :: key :: below) fields) d := by
    intro key below fields
    by_cases same : d = key
    · subst same
      have one := Node.get_update_above db ["ShutterDevices", d] below fields
      have two := Node.get_update_above t ["ShutterDevices", d] below fields
      unfold Absent deviceNode at absent absent'
      rw [absent] at one
      rw [absent'] at two
      exact one.trans two.symm
    · rw [Node.update, deviceNode_set_ne same, Node.update, deviceNode_set_ne same]
      exact absent.trans absent'.symm
  have written : ∀ key value, deviceNode (db.set ["ShutterDevices", key] value) d =
      deviceNode (t.set ["ShutterDevices", key] value) d := by
    intro key value
    by_cases same : d = key
    · subst same
      exact (Node.get_set_same db _ value).trans (Node.get_set_same t _ value).symm
    · rw [deviceNode_set_ne same, deviceNode_set_ne same]
      exact absent.trans absent'.symm
  cases c with
  | get path => exact absurd rfl (write path)
  | set path value =>
    obtain ⟨form, userData, now, rfl, rfl⟩ := call
    simp only [respond, serve, Except.ok.injEq, Prod.mk.injEq] at served served'
    obtain ⟨rfl, rfl⟩ := served
    obtain ⟨rfl, rfl⟩ := served'
    exact ⟨rfl, written _ _⟩
  | update path fields =>
    simp only [respond, serve, Except.ok.injEq, Prod.mk.injEq] at served served'
    obtain ⟨rfl, rfl⟩ := served
    obtain ⟨rfl, rfl⟩ := served'
    rcases call with ⟨key, rfl, -⟩ | ⟨key, day, rfl⟩
    · exact ⟨rfl, alike key [] fields⟩
    · exact ⟨rfl, alike key ["Schedule", day] fields⟩
  | remove path =>
    obtain ⟨key, rfl⟩ := call
    simp only [respond, serve, Except.ok.injEq, Prod.mk.injEq] at served served'
    obtain ⟨rfl, rfl⟩ := served
    obtain ⟨rfl, rfl⟩ := served'
    exact ⟨rfl, written key Node.null⟩

/-- Answering the one client that stirs brings the device back. -/
theorem revived_of_blind {parse : String → Option TimeOfDay} {q : Act Unit} (blind : Blind q)
    (stirs : ¬ LeavesAlone d q) {s : System} {i : Nat} {q' : Act Unit}
    (at_i : s.clients[i]? = some q') (same : awaiting q' = awaiting q)
    (absent : Absent d s.store) : ∃ moves t, (∀ op, Move.start op ∉ moves) ∧
      run (step parse) s moves = some t ∧ ¬ Absent d t.store := by
  induction q generalizing s q' with
  | done a => exact absurd trivial stirs
  | emit o p ih => exact ih blind stirs at_i same absent
  | call c k ih =>
    obtain ⟨⟨call, write⟩, rest⟩ := blind
    have in_range : i < s.clients.length := (List.getElem?_eq_some_iff.mp at_i).1
    -- one answer, or one failure, and the client goes on with `k r`
    have goes_on : ∀ db r m, step parse s m = some ⟨db, s.clients.set i (k r)⟩ →
        (∀ op, m ≠ .start op) → Absent d db → ¬ LeavesAlone d (k r) →
        ∃ moves t, (∀ op, Move.start op ∉ moves) ∧ run (step parse) s moves = some t ∧
          ¬ Absent d t.store := by
      intro db r m here quiet absent' stirs'
      have at_i' : (s.clients.set i (k r))[i]? = some (k r) := by simp [in_range]
      obtain ⟨moves, t, no_start, ran, back⟩ :=
        @ih r (rest r) stirs' ⟨db, s.clients.set i (k r)⟩ (k r) at_i' rfl absent'
      refine ⟨m :: moves, t, ?_, ?_, back⟩
      · intro op member
        rcases List.mem_cons.mp member with eq | later
        · exact quiet op eq.symm
        · exact no_start op later
      · rw [run_next here]
        exact ran
    have waits : s.Awaits i c k := ⟨q', at_i, same⟩
    obtain ⟨db', reply, served⟩ := respond_ok c s.store
    have answered : step parse s (.answer i) = some ⟨db', s.clients.set i (k (.ok reply))⟩ :=
      step_answer waits served
    by_cases back : Absent d db'
    · by_cases later : LeavesAlone d (k (.ok reply))
      · have failing : ∃ e, ¬ LeavesAlone d (k (.error e)) := by
          by_contra none_stirs
          have all : ∀ e, LeavesAlone d (k (.error e)) := by simpa using none_stirs
          refine stirs ⟨?_, all⟩
          intro t t' r' absent' served'
          obtain ⟨rfl, alike⟩ := respond_alike call write absent absent' served served'
          exact ⟨alike.symm.trans back, later⟩
        obtain ⟨e, stirs'⟩ := failing
        have failed : step parse s (.fail i e) = some ⟨s.store, s.clients.set i (k (.error e))⟩ :=
          step_fail waits e
        exact goes_on _ _ _ failed (by simp) absent stirs'
      · exact goes_on _ _ _ answered (by simp) back later
    · refine ⟨[.answer i], ⟨db', s.clients.set i (k (.ok reply))⟩, by simp, ?_, back⟩
      rw [run_next answered]
      rfl

end Blind

section Runs
variable {parse : String → Option TimeOfDay} {d : String} {s s' : System}

theorem known_step (known : ∀ q ∈ s.clients, Known q) {m : Move Operation String}
    (h : step parse s m = some s') : ∀ q ∈ s'.clients, Known q :=
  stepped_clients known (fun op _ => Or.inr ⟨op, program_opens parse op⟩)
    (fun _ _ _ own waits => known_awaited own waits) (step_cases h)

/-- The device is absent in every state that can follow while no operation is started that is
    given its id. -/
def StaysDeleted (parse : String → Option TimeOfDay) (d : String) (s : System) : Prop :=
  ∀ moves t, (∀ op, .start op ∈ moves → ¬ Addresses d op) →
    run (step parse) s moves = some t → Absent d t.store

theorem staysDeleted_of_leavesAlone (absent : Absent d s.store)
    (alone : ∀ q ∈ s.clients, LeavesAlone d q) : StaysDeleted parse d s := by
  intro moves t others ran
  have along : Along (step parse) (fun _ m => ∀ op, m = .start op → ¬ Addresses d op) s moves := by
    refine along_of_all ?_ s
    rintro m member u op rfl
    exact others op member
  have kept : Absent d t.store ∧ ∀ q ∈ t.clients, LeavesAlone d q := by
    refine run_invariant (fun u : System => Absent d u.store ∧ ∀ q ∈ u.clients, LeavesAlone d q)
      ?_ ⟨absent, alone⟩ along ran
    intro u m u' holds other h
    apply stepped_keeps holds.1 holds.2 _ (step_cases h)
    intro op eq
    exact leavesAlone_of_opens (other op eq) (program_opens parse op)
  exact kept.1

theorem leavesAlone_of_staysDeleted (known : ∀ q ∈ s.clients, Known q)
    (absent : Absent d s.store) (stays : StaysDeleted parse d s) :
    ∀ q ∈ s.clients, LeavesAlone d q := by
  intro q member
  by_contra stirs
  obtain ⟨i, at_i⟩ := List.getElem?_of_mem member
  have blind := blind_of_not_leavesAlone (known q member) stirs
  obtain ⟨moves, t, no_start, ran, back⟩ := revived_of_blind blind stirs at_i rfl absent
  exact back (stays moves t (fun op start => absurd start (no_start op)) ran)

/-- In any run of the app, a removed device stays deleted exactly when every client in flight
    at the removal leaves it alone. -/
theorem stays_deleted_iff_left_alone {db : Json} {moves : List (Move Operation String)}
    (reached : run (step parse) ⟨db, []⟩ moves = some s) {i : Nat}
    {k : Except String Json → Act Unit} (waits : s.Awaits i (.remove ["ShutterDevices", d]) k)
    (removed : step parse s (.answer i) = some s') :
    StaysDeleted parse d s' ↔ ∀ q ∈ s'.clients, LeavesAlone d q := by
  have known : ∀ q ∈ s.clients, Known q := by
    have along : Along (step parse) (fun _ _ => True) ⟨db, []⟩ moves :=
      along_of_all (fun _ _ _ => trivial) _
    refine run_invariant (fun u : System => ∀ q ∈ u.clients, Known q) ?_ ?_ along reached
    · exact fun u m u' all _ h => known_step all h
    · simp
  have served : respond (.remove ["ShutterDevices", d]) s.store =
      .ok (s.store.remove ["ShutterDevices", d], .null) := rfl
  have absent : Absent d s'.store := by
    have answered : step parse s (.answer i) = _ := step_answer waits served
    rw [removed] at answered
    simp only [Option.some.injEq] at answered
    rw [answered]
    exact Node.get_set_same s.store _ Node.null
  constructor
  · intro stays
    exact leavesAlone_of_staysDeleted (known_step known removed) absent stays
  · intro alone
    exact staysDeleted_of_leavesAlone absent alone

end Runs

section Revived

def salonId : DeviceId := ⟨"A0B1C2D3E4F5", by decide⟩

def oneDevice : Json := .branch [("ShutterDevices", .branch [("A0B1C2D3E4F5",
  .branch [("userId", Json.str "uid-1"), ("shutterIconStatus", Json.bool false)])])]

def noParse : String → Option TimeOfDay := fun _ => none

/-- The toggle has read the device, the deletion is about to be answered. -/
def toggleInFlight : List (Move Operation String) :=
  [.start (.toggleDeviceStatus salonId), .start (.deleteShutterDevice salonId (some true)),
    .answer 0]

theorem stays_deleted_alone : ∃ s s' : System, run (step noParse) ⟨oneDevice, []⟩
      [.start (.deleteShutterDevice salonId (some true))] = some s ∧
    step noParse s (.answer 0) = some s' ∧
    (StaysDeleted noParse "A0B1C2D3E4F5" s' ↔
      ∀ q ∈ s'.clients, LeavesAlone "A0B1C2D3E4F5" q) := by
  let s : System := ⟨oneDevice, [DeviceController.deleteShutterDevice salonId.1 (some true)]⟩
  have reached : run (step noParse) ⟨oneDevice, []⟩
      [.start (.deleteShutterDevice salonId (some true))] = some s := rfl
  have next : ∃ k, s.Awaits 0 (.remove ["ShutterDevices", "A0B1C2D3E4F5"]) k := ⟨_, _, rfl, rfl⟩
  obtain ⟨k, waits⟩ := next
  have removed : step noParse s (.answer 0) = some ⟨oneDevice.remove _, s.clients.set 0 (k _)⟩ :=
    step_answer waits rfl
  exact ⟨s, _, reached, removed, stays_deleted_iff_left_alone reached waits removed⟩

/-- The toggle writes to the key it has read, whatever became of it since. -/
theorem toggle_revives_device : ∃ s s' t k, run (step noParse) ⟨oneDevice, []⟩ toggleInFlight =
      some s ∧ s.Awaits 1 (.remove ["ShutterDevices", "A0B1C2D3E4F5"]) k ∧
    step noParse s (.answer 1) = some s' ∧ Absent "A0B1C2D3E4F5" s'.store ∧
    run (step noParse) s' [.answer 0] = some t ∧ ¬ Absent "A0B1C2D3E4F5" t.store := by
  refine ⟨_, _, _, _, rfl, ⟨_, rfl, rfl⟩, rfl, rfl, rfl, ?_⟩
  intro absent
  have empty : false = true := congrArg Node.isNull absent
  simp at empty

end Revived
end Deletion
