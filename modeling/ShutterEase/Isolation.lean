import ShutterEase.Effects

/-!
What the operations of others cannot do to a device, over every interleaving and every failure.
A set of its fields keeps its values as long as no started operation writes one of them: by its
id, or by a query that could pick a record with these values.
-/
namespace Isolation
open KeyedTree Resumption Interleaving Runs Firebase FirebasePath ShutterModels AccountDevices
open DeviceController AutoPlayController Registration Operations Ownership Effects

def Agrees (fields : String → Prop) (one two : Json) : Prop :=
  ∀ field, fields field → two.child field = one.child field

/-- The operation may write one of the fields of the device: it is given the device, or its query
    picks some record that has the same values in them. -/
def Touches (parse : String → Option TimeOfDay) (op : Operation) (key : String) (device : Json)
    (fields : String → Prop) : Prop :=
  place op = some key ∧ (∃ field value, fields field ∧ Writes op field value) ∨
    ∃ q, query parse op = some q ∧ (∃ field, fields field ∧ field ∈ q.fields.map Prod.fst) ∧
      ∃ device', Agrees fields device device' ∧ q.picks device' = true

section Calls
variable {key other field : String} {allowed : String → Json → Prop}

/-- A call that does not name a field of the device leaves it. -/
theorem child_at (silent : other = key → ∀ value, ¬ allowed field value)
    {c : DbCall} (here : At other allowed c) {db db' reply : Json} (served : respond c db = .ok (db', reply)) :
    (deviceNode db' key).child field = (deviceNode db key).child field := by
  by_cases same : other = key
  · have unnamed := silent same
    subst same
    cases c with
    | get path =>
      simp only [respond, serve, Except.ok.injEq, Prod.mk.injEq] at served
      rw [served.1]
    | set path value => exact absurd (here.2 field value) (unnamed value)
    | remove path => exact absurd (here.2 field .null) (unnamed .null)
    | update path written =>
      simp only [respond, serve, Except.ok.injEq, Prod.mk.injEq] at served
      rw [← served.1]
      rcases here with ⟨rfl, only⟩ | ⟨day, rfl, schedule⟩
      · rw [deviceNode, Node.get_update_same]
        apply Node.child_merge_other
        intro member
        obtain ⟨e, written, rfl⟩ := List.mem_map.mp member
        exact unnamed e.2 (only e written)
      · apply child_update _ (Or.inr ⟨other, day, rfl⟩)
        intro eq
        exact unnamed .null (eq ▸ schedule .null)
  · rw [deviceNode_at (Ne.symm same) here served]

theorem agrees_at {fields : String → Prop} {device : Json}
    (silent : other = key → ∀ field, fields field → ∀ value, ¬ allowed field value) {c : DbCall}
    (here : At other allowed c) {db db' reply : Json} (agrees : Agrees fields device (deviceNode db key))
    (served : respond c db = .ok (db', reply)) : Agrees fields device (deviceNode db' key) := by
  intro field member
  rw [child_at (fun same => silent same field member) here served]
  exact agrees field member

end Calls

section Runs
variable {parse : String → Option TimeOfDay} {key : String} {device : Json} {fields : String → Prop}

theorem keeps_agrees {op : Operation} (untouched : ¬ Touches parse op key device fields) :
    Keeps respond (fun db => Agrees fields device (deviceNode db key)) (program parse op) := by
  cases asks : query parse op with
  | some q =>
    apply keeps_of_opens (query_opens parse asks)
    · intro c first db db' reply agrees served
      subst first
      simp only [respond, serve, Except.ok.injEq, Prod.mk.injEq] at served
      exact served.1 ▸ agrees
    · intro c db db' reply c' first agrees served listed t t' r' agrees' served'
      subst first
      simp only [respond, serve, Except.ok.injEq, Prod.mk.injEq] at served
      obtain ⟨snapshot, k, shown, picked, rfl⟩ := listed
      simp only [Except.ok.injEq] at shown
      have at_k : At k (fun field value => (field, value) ∈ q.fields) (.update ["ShutterDevices", k] q.fields) :=
        Or.inl ⟨rfl, fun e member => member⟩
      refine agrees_at ?_ at_k agrees' served'
      intro same field member value written
      subst same
      have named : field ∈ q.fields.map Prod.fst := List.mem_map.mpr ⟨_, written, rfl⟩
      refine untouched (Or.inr ⟨q, asks, ⟨field, member, named⟩, deviceNode db k, agrees, ?_⟩)
      rw [← shown, ← served.2] at picked
      exact picked
    · intro c e c' first listed
      obtain ⟨snapshot, k, shown, -⟩ := listed
      simp at shown
  | none =>
    apply keeps_of_issues
    cases named : place op with
    | some other =>
      have silent : other = key → ∀ field, fields field → ∀ value, ¬ Writes op field value := by
        intro same field member value written
        exact untouched (Or.inl ⟨same ▸ named, field, value, member, written⟩)
      apply issues_of_opens (place_opens parse named)
      · exact fun c here t t' r agrees served => agrees_at silent here agrees served
      · exact fun _ _ c _ here t t' r agrees served => agrees_at silent here agrees served
    | none =>
      apply issues_of_opens (reads_opens parse asks named)
      · intro c first t t' r agrees served
        subst first
        simp only [respond, serve, Except.ok.injEq, Prod.mk.injEq] at served
        exact served.1 ▸ agrees
      · exact fun _ _ _ _ no => no.elim

theorem untouched_of_query {op : Operation} {q : Query} (asks : query parse op = some q)
    (unplaced : place op = none) (apart : ∀ field, fields field → field ∉ q.fields.map Prod.fst) :
    ¬ Touches parse op key device fields := by
  rintro (⟨named, -⟩ | ⟨q', asks', ⟨field, member, written⟩, -⟩)
  · rw [unplaced] at named
    simp at named
  · rw [asks, Option.some.injEq] at asks'
    exact apart field member (asks' ▸ written)

/-- In every state of every run, whatever the interleaving and the failures, fields that no
    started operation touches are as they were at the start. -/
theorem untouched_fields_kept {db : Json} {moves : List (Move Operation String)}
    (untouched : ∀ op, .start op ∈ moves → ¬ Touches parse op key (deviceNode db key) fields) :
    Throughout (step parse) (fun s : System => Agrees fields (deviceNode db key)
      (deviceNode s.store key)) ⟨db, []⟩ moves := by
  exact throughout_keeps (fun _ _ => rfl) fun op started => keeps_agrees (untouched op started)

theorem owner_unique {owner : String} {user : Option String} {one two : Json}
    (own : ownedBy (some owner) one = true) (picked : ownedBy user two = true)
    (same : two.child "userId" = one.child "userId") : user = some owner := by
  simp only [ownedBy, decide_eq_true_eq] at own
  cases user with
  | none =>
    simp only [ownedBy, same, Node.isNull_iff] at picked
    simp [picked] at own
  | some u =>
    simp only [ownedBy, same, own, decide_eq_true_eq, Option.some.injEq, Value.str.injEq] at picked
    rw [picked]

/-- The operations of other accounts change no field of a device that they are not given. -/
theorem others_leave_device_alone {owner : String} {db : Json} (own : owned owner db key)
    {moves : List (Move Operation String)}
    (others : ∀ op, .start op ∈ moves → place op ≠ some key ∧
      ∀ q, query parse op = some q → q.user ≠ some owner) :
    Throughout (step parse) (fun s : System => ∀ field,
      (deviceNode s.store key).child field = (deviceNode db key).child field) ⟨db, []⟩ moves := by
  have all : Throughout (step parse) (fun s : System => Agrees (fun _ => True) (deviceNode db key)
      (deviceNode s.store key)) ⟨db, []⟩ moves := by
    apply untouched_fields_kept
    intro op member touched
    obtain ⟨unnamed, foreign⟩ := others op member
    rcases touched with ⟨named, -⟩ | ⟨q, asks, -, device', agrees, picked⟩
    · exact unnamed named
    · simp only [Query.picks, Bool.and_eq_true] at picked
      exact foreign q asks (owner_unique own picked.1.2 (agrees "userId" trivial))
  exact throughout_mono (fun s agrees field => agrees field trivial) all

def guardedFields : List String := ["userId", "autoPlay", "autoPlayTime"]

/-- The scheduler writes none of these fields, whatever it finds due. -/
theorem scheduler_touches_nothing (user : Option String) (now : TimeOfDay) :
    ¬ Touches parse (.setupAutoPlayShutters user now) key device (· ∈ guardedFields) := by
  cases user with
  | none => simp [Touches, place, query]
  | some uid => exact untouched_of_query rfl rfl (by simp [openingFields, guardedFields])

/-- The call writes at the device, below it or above it. -/
def Names (key : String) : DbCall → Prop
  | .get _ => False
  | .set path _ | .update path _ | .remove path =>
    path <+: ["ShutterDevices", key] ∨ ["ShutterDevices", key] <+: path

theorem names_update_iff {other : String} {written : List (String × Json)} :
    Names key (.update ["ShutterDevices", other] written) ↔ other = key := by
  simp only [Names, List.cons_prefix_cons, List.prefix_nil, and_true, true_and]
  exact ⟨fun named => named.elim id Eq.symm, Or.inl⟩

theorem not_due_of_agrees {device' : Json} {text : String} {enabled : Bool} {now : TimeOfDay}
    (flag : device.child "autoPlay" = Json.bool enabled)
    (time : device.child "autoPlayTime" = Json.str text)
    (closed : opensAt parse now enabled text = false)
    (agrees : Agrees (· ∈ guardedFields) device device') : isDue parse now device' = false := by
  have flag' := (agrees "autoPlay" (by decide)).trans flag
  have time' := (agrees "autoPlayTime" (by decide)).trans time
  simp only [isDue, flag', time', asBool, asString, Json.bool, Json.str]
  exact closed

/-- Answered from a store where the device is not due, an evaluation writes to other devices. -/
theorem guarded_scheduler {text : String} {enabled : Bool}
    (flag : device.child "autoPlay" = Json.bool enabled)
    (time : device.child "autoPlayTime" = Json.str text) (user : Option String) {now : TimeOfDay}
    (closed : opensAt parse now enabled text = false) :
    Guarded respond (fun db => Agrees (· ∈ guardedFields) device (deviceNode db key))
      (fun c => ¬ Names key c) (program parse (.setupAutoPlayShutters user now)) := by
  cases user with
  | none => exact guarded_of_issues (issues_of_quiet trivial)
  | some uid =>
    apply guarded_of_opens (query_opens parse (q := ⟨some uid, isDue parse now, openingFields⟩) rfl)
    · intro c first
      exact first ▸ id
    · intro c db db' reply c' first agrees served listed
      subst first
      simp only [respond, serve, Except.ok.injEq, Prod.mk.injEq] at served
      obtain ⟨snapshot, other, shown, picked, rfl⟩ := listed
      simp only [Except.ok.injEq] at shown
      rw [names_update_iff]
      rintro rfl
      have due : isDue parse now (deviceNode db other) = true := by
        rw [← shown, ← served.2] at picked
        simp only [Query.picks, Bool.and_eq_true] at picked
        exact picked.2
      rw [not_due_of_agrees flag time closed agrees] at due
      simp at due
    · intro c e c' first listed
      obtain ⟨snapshot, other, shown, -⟩ := listed
      simp at shown

/-- A shutter whose automatic opening is off, or set to another minute than every evaluation's, is
    written to by no evaluation of the scheduler, whatever else is done to it meanwhile, as long as
    its owner, its flag and its time stay. -/
theorem not_due_not_opened {db : Json} {text : String} {enabled : Bool}
    (flag : (deviceNode db key).child "autoPlay" = Json.bool enabled)
    (time : (deviceNode db key).child "autoPlayTime" = Json.str text)
    {moves : List (Move Operation String)}
    (closed : ∀ user now, .start (.setupAutoPlayShutters user now) ∈ moves →
      opensAt parse now enabled text = false)
    (calm : ∀ op, .start op ∈ moves →
      ¬ Touches parse op key (deviceNode db key) (· ∈ guardedFields))
    {s : System} (ran : run (step parse) ⟨db, []⟩ moves = some s) {i : Nat} {user : Option String}
    {now : TimeOfDay} (evaluation : (starts moves)[i]? = some (.setupAutoPlayShutters user now))
    {c : DbCall} {k : Except String Json → Prog DbCall Json Ui String (Except String Unit)}
    (waits : s.Awaits i c k) : ¬ Names key c := by
  have bound : ∀ op, .start op ∈ moves → Guarded respond
      (fun db' => Agrees (· ∈ guardedFields) (deviceNode db key) (deviceNode db' key))
      (fun c => ∀ user now, op = .setupAutoPlayShutters user now → ¬ Names key c)
      (program parse op) := by
    intro op member
    cases op with
    | setupAutoPlayShutters user now =>
      refine guarded_mono (guarded_scheduler flag time user (closed user now member)) ?_
      exact fun c unnamed _ _ _ => unnamed
    | _ => exact guarded_of_all (by simp) _
  have kept := fun op member => keeps_agrees (calm op member)
  exact guarded_run (fun _ _ => rfl) kept bound ran evaluation waits user now rfl

end Runs

section Taken

/-- Both users give commands at once, and one of the calls fails. -/
def commandsAtOnce : List (Move Operation String) :=
  [.start (.openAll (some "uid-1")), .start (.closeAll (some "uid-2")), .answer 0, .answer 1,
    .fail 1 "network", .answer 0]

example : Throughout (step fun _ => none) (fun s : System => Agrees (· = "deviceName")
    (deviceNode twoDevices "001122334455") (deviceNode s.store "001122334455"))
    ⟨twoDevices, []⟩ commandsAtOnce := by
  refine untouched_fields_kept fun op member => ?_
  simp only [commandsAtOnce, List.mem_cons, Move.start.injEq, reduceCtorEq, List.not_mem_nil,
    or_false] at member
  rcases member with rfl | rfl
  all_goals exact untouched_of_query rfl rfl (by simp [always, BulkCommands.Bulk.fields])

theorem other_account_kept : Throughout (step fun _ => none) (fun s : System => ∀ field,
    (deviceNode s.store "AABBCCDDEEFF").child field =
      (deviceNode twoDevices "AABBCCDDEEFF").child field) ⟨twoDevices, []⟩
    [.start (.openAll (some "uid-1")), .answer 0, .answer 0] := by
  have own : ownedBy (some "uid-2") (deviceNode twoDevices "AABBCCDDEEFF") = true := by decide
  apply others_leave_device_alone own
  intro op member
  simp only [List.mem_cons, Move.start.injEq, reduceCtorEq, List.not_mem_nil, or_false] at member
  subst member
  refine ⟨by simp [place], ?_⟩
  intro q asks
  cases asks
  simp [always]

/-- Two shutters of one account, to be opened at eight and at nine. -/
def eightAndNine : Json := .branch [("ShutterDevices", .branch [
  ("001122334455", .branch [("autoPlay", Json.bool true), ("autoPlayTime", Json.str "8:00 AM"),
    ("userId", Json.str "uid-1")]),
  ("AABBCCDDEEFF", .branch [("autoPlay", Json.bool true), ("autoPlayTime", Json.str "9:00 AM"),
    ("userId", Json.str "uid-1")])])]

def onTheHour (hour : Fin 24) : TimeOfDay := ⟨hour, ⟨0, by decide⟩⟩

def readOnTheHour (time : String) : Option TimeOfDay :=
  if time = "8:00 AM" then some (onTheHour ⟨8, by decide⟩)
  else if time = "9:00 AM" then some (onTheHour ⟨9, by decide⟩)
  else none

/-- The owner closes both shutters while the evaluation at nine waits for its snapshot. -/
def evaluatedWhileClosing : List (Move Operation String) :=
  [.start (.setupAutoPlayShutters (some "uid-1") (onTheHour ⟨9, by decide⟩)),
    .start (.closeAll (some "uid-1")), .answer 1, .answer 1, .answer 0]

theorem only_nine_opened : ∃ s c k,
    run (step readOnTheHour) ⟨eightAndNine, []⟩ evaluatedWhileClosing = some s ∧
      s.Awaits 0 c k ∧ Names "AABBCCDDEEFF" c ∧ ¬ Names "001122334455" c := by
  have goes : ∃ s, run (step readOnTheHour) ⟨eightAndNine, []⟩ evaluatedWhileClosing = some s ∧
      ∃ k, s.Awaits 0 (.update ["ShutterDevices", "AABBCCDDEEFF"] openingFields) k :=
    ⟨_, rfl, _, _, rfl, rfl⟩
  obtain ⟨s, ran, k, waits⟩ := goes
  have flag : (deviceNode eightAndNine "001122334455").child "autoPlay" = Json.bool true := rfl
  have time : (deviceNode eightAndNine "001122334455").child "autoPlayTime" =
    Json.str "8:00 AM" := rfl
  refine ⟨s, _, k, ran, waits, names_update_iff.mpr rfl, ?_⟩
  refine not_due_not_opened flag time (fun user now member => ?_) (fun op member => ?_) ran
    (i := 0) rfl waits
  · simp only [evaluatedWhileClosing, List.mem_cons, Move.start.injEq, reduceCtorEq,
      Operation.setupAutoPlayShutters.injEq, List.not_mem_nil, or_false] at member
    obtain ⟨-, rfl⟩ := member
    decide
  · simp only [evaluatedWhileClosing, List.mem_cons, Move.start.injEq, reduceCtorEq,
      List.not_mem_nil, or_false] at member
    rcases member with rfl | rfl
    · exact scheduler_touches_nothing _ _
    · exact untouched_of_query rfl rfl (by
        simp [always, BulkCommands.Bulk.fields, guardedFields])

end Taken
end Isolation
