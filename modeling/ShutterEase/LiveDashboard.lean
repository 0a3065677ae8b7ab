import ShutterEase.Cards
import ShutterEase.ConcurrentHome

/-!
A phone with its dashboard beside the clients of every user, over the one database. What a call
changes under `ShutterDevices` reaches the phone's subscriptions, so the screen follows the
commands of all the clients.
-/
namespace LiveDashboard
open KeyedTree Interleaving Runs Linearization Firebase FirebasePath ShutterModels AccountDevices
open ScheduleController AutoPlayController Registration Operations Dashboard RecordTypes Home
open HomeRefinement ConcurrentHome Cards

structure World where
  database : System
  phone : App

inductive Event where
  | call (m : Move Operation String)
  | phone (e : Dashboard.Event)

def shutterDevices (w : World) : Json := w.database.store.child "ShutterDevices"

section Steps
variable (parse : String → Option TimeOfDay) (parseTime : String → Except String DateTime)

/-- `onValue` fires when the node has changed. -/
def told (before after : Json) (phone : App) : Option App :=
  if before = after then some phone else Dashboard.step parseTime phone (.write after)

def step (w : World) : Event → Option World
  | .call m => do
    let database ← Operations.step parse w.database m
    let phone ← told parseTime (shutterDevices w) (database.store.child "ShutterDevices") w.phone
    return ⟨database, phone⟩
  | .phone (.write _) => none
  | .phone e => (Dashboard.step parseTime w.phone e).map fun phone => ⟨w.database, phone⟩

/-- The phone is started while nobody has called the database yet. -/
def opened (user : String) (db : Json) : World :=
  ⟨⟨db, []⟩, launched (some user) (db.child "ShutterDevices")⟩

def calls : List Event → List (Move Operation String) :=
  List.filterMap fun e => match e with
    | .call m => some m
    | .phone _ => none

/-- The node as the run has had it at some point. -/
def Passed (start : World) (events : List Event) (snapshot : Json) : Prop :=
  ∃ before rest w, before ++ rest = events ∧ run (step parse parseTime) start before = some w ∧
    shutterDevices w = snapshot

end Steps

section Phone
variable {parseTime : String → Except String DateTime} {s s' : App}

/-- Nothing that the phone does itself changes what is stored. -/
theorem stored_kept {e : Dashboard.Event} (own : ∀ snapshot, e ≠ .write snapshot)
    (h : Dashboard.step parseTime s e = some s') : s'.shutterDevices = s.shutterDevices := by
  have next := Dashboard.step_cases h
  cases e with
  | write snapshot => exact absurd rfl (own snapshot)
  | showHome =>
    simp only at next
    subst next
    unfold App.put
    split <;> rfl
  | deliver i =>
    obtain ⟨snapshot, rest, -, rfl⟩ := next
    rfl
  | skip i =>
    obtain ⟨old, later, rest, -, rfl⟩ := next
    rfl
  | _ =>
    simp only at next
    subst next
    rfl

end Phone

section Worlds
variable {parse : String → Option TimeOfDay} {parseTime : String → Except String DateTime}
    {w w' start : World} {events : List Event}

theorem step_cases {e : Event} (h : step parse parseTime w e = some w') :
    match e with
    | .call m => Operations.step parse w.database m = some w'.database ∧
        (shutterDevices w' = shutterDevices w ∧ w'.phone = w.phone ∨
          Dashboard.step parseTime w.phone (.write (shutterDevices w')) = some w'.phone)
    | .phone e => w'.database = w.database ∧ (∀ snapshot, e ≠ .write snapshot) ∧
        Dashboard.step parseTime w.phone e = some w'.phone := by
  cases e with
  | call m =>
    simp only [step, Option.bind_eq_bind, Option.bind_eq_some_iff, Option.pure_def,
      Option.some.injEq] at h
    obtain ⟨database, moved, phone, heard, rfl⟩ := h
    refine ⟨moved, ?_⟩
    unfold told at heard
    split at heard
    · rename_i same
      exact Or.inl ⟨same.symm, (Option.some.inj heard).symm⟩
    · exact Or.inr heard
  | phone e =>
    cases e with
    | write snapshot => simp [step] at h
    | _ =>
      simp only [step, Option.map_eq_some_iff] at h
      obtain ⟨phone, moved, rfl⟩ := h
      exact ⟨rfl, by simp, moved⟩

theorem step_database {e : Event} (h : step parse parseTime w e = some w') :
    run (Operations.step parse) w.database (calls [e]) = some w'.database := by
  have next := step_cases h
  cases e with
  | call m => exact run_next next.1 []
  | phone e => exact congrArg some next.1.symm

/-- The clients run as if no phone listened. -/
theorem run_calls (ran : run (step parse parseTime) w events = some w') :
    run (Operations.step parse) w.database (calls events) = some w'.database := by
  induction events generalizing w with
  | nil =>
    simp only [run_nil, Option.some.injEq] at ran
    rw [ran]
    rfl
  | cons e rest ih =>
    obtain ⟨q, here, later⟩ := run_cons ran
    have split : calls (e :: rest) = calls [e] ++ calls rest := by
      cases e with
      | call m => rfl
      | phone e => rfl
    rw [split, run_append (step_database here), ih later]

theorem started_of_calls {op : Operation} (member : .start op ∈ calls events) :
    .call (.start op) ∈ events := by
  obtain ⟨e, inside, same⟩ := List.mem_filterMap.mp member
  cases e with
  | call m =>
    simp only [Option.some.injEq] at same
    exact same ▸ inside
  | phone e => simp at same

theorem passed_append {e : Event} {snapshot : Json}
    (passed : Passed parse parseTime start events snapshot) :
    Passed parse parseTime start (events ++ [e]) snapshot := by
  obtain ⟨before, rest, v, rfl, early, here⟩ := passed
  exact ⟨before, rest ++ [e], v, by simp, early, here⟩

theorem passed_end (ran : run (step parse parseTime) start events = some w) :
    Passed parse parseTime start events (shutterDevices w) :=
  ⟨events, [], w, by simp, ran, rfl⟩

end Worlds

section Settled
variable {parse : String → Option TimeOfDay} {parseTime : String → Except String DateTime}
    {w w' : World} {events : List Event} {user : String} {db : Json}

/-- What the run has passed is what the app's operations have left. -/
theorem left_of_passed (empty : db.child "ShutterDevices" = Node.null)
    (dated : ∀ op, .call (.start op) ∈ events → Dated parseTime op) {snapshot : Json}
    (passed : Passed parse parseTime (opened user db) events snapshot) :
    LeftByApp parse parseTime snapshot := by
  obtain ⟨before, rest, v, rfl, early, rfl⟩ := passed
  refine ⟨db, calls before, v.database, empty, ?_, run_calls early, rfl⟩
  intro op member
  exact dated op (List.mem_append_left _ (started_of_calls member))

/-- The phone's list comes from snapshots in `P`, and its subscriptions have been told of the
    node that is stored. -/
structure Follows (P : Json → Prop) (parseTime : String → Except String DateTime)
    (user : String) (w : World) : Prop where
  supplied : Supplied P parseTime user w.phone
  current : w.phone.shutterDevices = shutterDevices w

theorem follows_step {P : Json → Prop}
    (left : ∀ snapshot, P snapshot → LeftByApp parse parseTime snapshot)
    (inv : Follows P parseTime user w) {e : Event} (stays : ∀ e', e = .phone e' → StaysSignedIn e')
    (next : P (shutterDevices w')) (h : step parse parseTime w e = some w') :
    Follows P parseTime user w' := by
  have here := step_cases h
  cases e with
  | call m =>
    obtain ⟨-, unchanged | heard⟩ := here
    · obtain ⟨same, quiet⟩ := unchanged
      exact ⟨quiet ▸ inv.supplied, by rw [quiet, same, inv.current]⟩
    · refine ⟨supplied_step left inv.supplied (e := .write _) trivial ?_ heard, ?_⟩
      · intro snapshot same
        cases same
        exact next
      · exact congrArg App.shutterDevices (Dashboard.step_cases heard)
  | phone e =>
    obtain ⟨database, own, moved⟩ := here
    refine ⟨supplied_step left inv.supplied (stays e rfl) ?_ moved, ?_⟩
    · exact fun snapshot same => absurd same (own snapshot)
    · rw [stored_kept own moved, inv.current, shutterDevices, shutterDevices, database]

theorem follows_run (empty : db.child "ShutterDevices" = Node.null)
    (dated : ∀ op, .call (.start op) ∈ events → Dated parseTime op)
    (stays : ∀ e, .phone e ∈ events → StaysSignedIn e)
    (ran : run (step parse parseTime) (opened user db) events = some w) :
    Follows (Passed parse parseTime (opened user db) events) parseTime user w := by
  induction events using List.reverseRecOn generalizing w with
  | nil =>
    simp only [run_nil, Option.some.injEq] at ran
    subst ran
    have start : Passed parse parseTime (opened user db) [] (shutterDevices (opened user db)) :=
      passed_end rfl
    exact ⟨supplied_launched (left_of_passed empty dated start) start, rfl⟩
  | append_singleton events e ih =>
    obtain ⟨v, early, last⟩ := run_split ran
    obtain ⟨w', h, rest⟩ := run_cons last
    simp only [run_nil, Option.some.injEq] at rest
    subst rest
    have before := ih (fun op member => dated op (by simp [member]))
      (fun e' member => stays e' (by simp [member])) early
    have later : Follows (Passed parse parseTime (opened user db) (events ++ [e])) parseTime
        user v := ⟨supplied_mono (fun _ => passed_append) before.supplied, before.current⟩
    exact follows_step (fun _ => left_of_passed empty dated) later
      (fun e' same => stays e' (by simp [same])) (passed_end ran) h

/-- Whatever the clients do and however late the phone handles what it is told, its screen shows
    nothing yet or a home that the database has held; with nothing left to handle, it shows the
    home of now, and where the operations write once and no toggle is stale, that is the home that
    the commands of the ended operations leave one after the other. -/
theorem screen_follows_commands (empty : db.child "ShutterDevices" = Node.null)
    (dated : ∀ op, .call (.start op) ∈ events → Dated parseTime op)
    (stays : ∀ e, .phone e ∈ events → StaysSignedIn e)
    (ran : run (step parse parseTime) (opened user db) events = some w) (lang : Language) :
    let ops := finished respond (program parse) [] ⟨db, []⟩ (calls events)
    (w.phone.devices = [] ∧ w.phone.handledFor = none ∨
      ∃ snapshot, Passed parse parseTime (opened user db) events snapshot ∧
        ShowsHome lang user (homeOf snapshot) (homeScreen lang w.phone.devices)) ∧
    (w.phone.pending ≠ [] → (∀ queue ∈ w.phone.pending, queue = []) →
      ShowsHome lang user (home w.database.store) (homeScreen lang w.phone.devices) ∧
      ((∀ op, .call (.start op) ∈ events → writesOnce op = true) →
        Along (Operations.step parse) (Served Inverts) ⟨db, []⟩ (calls events) →
        ShowsHome lang user ((ops.map (command parse)).foldl (fun home c => c.perform home)
          fun _ => none) (homeScreen lang w.phone.devices))) := by
  intro ops
  have inv := follows_run empty dated stays ran
  refine ⟨supplied_shows inv.supplied lang, fun subscribed handled => ?_⟩
  have left := left_of_passed empty dated inv.supplied.stored
  have now := supplied_settled left inv.supplied subscribed handled lang
  rw [inv.current] at now
  refine ⟨now, fun once fresh => ?_⟩
  have in_order := home_in_order empty (fun op member => once op (started_of_calls member))
    (fun op member => dated op (started_of_calls member)) fresh (run_calls ran)
  exact in_order ▸ now

/-- The owner's phone shows its dashboard while others register, toggle and reset, and then
    handles the four snapshots it was told. -/
def watched : List Event :=
  .phone .showHome :: toggledMeanwhile.map .call ++ List.replicate 4 (.phone (.deliver 0))

theorem watched_follows : ∃ w, run (step (fun _ => none) readNoon) (opened "uid-1" Node.null)
      watched = some w ∧
    let ops := finished respond (program fun _ => none) [] ⟨Node.null, []⟩ (calls watched)
    (w.phone.devices = [] ∧ w.phone.handledFor = none ∨ ∃ snapshot,
      Passed (fun _ => none) readNoon (opened "uid-1" Node.null) watched snapshot ∧
        ShowsHome .it "uid-1" (homeOf snapshot) (homeScreen .it w.phone.devices)) ∧
    ShowsHome .it "uid-1" (home w.database.store) (homeScreen .it w.phone.devices) ∧
    ShowsHome .it "uid-1" ((ops.map (command fun _ => none)).foldl
      (fun home c => c.perform home) fun _ => none) (homeScreen .it w.phone.devices) := by
  have same : calls watched = toggledMeanwhile := rfl
  have started : ∀ op, .call (.start op) ∈ watched → .start op ∈ toggledMeanwhile := by
    simp [watched]
  have dated : ∀ op, .call (.start op) ∈ watched → Dated readNoon op :=
    fun op member => meanwhile_dated op (started op member)
  have stays : ∀ e, .phone e ∈ watched → StaysSignedIn e := by
    simp [watched, StaysSignedIn]
  have settled : (run (step (fun _ => none) readNoon) (opened "uid-1" Node.null) watched).map
      (fun w => w.phone.pending) = some [[]] := by decide +kernel
  obtain ⟨w, ran, handled⟩ := Option.map_eq_some_iff.mp settled
  obtain ⟨shown, follows⟩ := screen_follows_commands rfl dated stays ran .it
  obtain ⟨now, commands⟩ := follows (by simp [handled]) (by simp [handled])
  refine ⟨w, ran, shown, now, commands ?_ (same ▸ meanwhile_fresh)⟩
  exact fun op member => meanwhile_once op (started op member)

end Settled
end LiveDashboard
