import ShutterEase.DeviceList
import ShutterEase.Runs

/-!
One running app: who is signed in, whether the dashboard is on screen, the one device list and
the subscriptions that refill it. Every `listenForDeviceChanges` adds a subscription and none is
cancelled; each holds the snapshots it has not handled yet, oldest first.
-/
namespace Dashboard
open KeyedTree Runs Firebase ShutterModels AccountDevices DeviceList

/-- `handledFor` records who was signed in when the last snapshot was handled; the app keeps no
    such thing. -/
structure App where
  currentUser : Option String
  homeShown : Bool
  created : Bool
  devices : List ShutterDeviceModel
  pending : List (List Json)
  shutterDevices : Json
  handledFor : Option String

/-- A device operation is its write to the database and, where it ends in one, its
    `listenForDeviceChanges`. A snapshot that a later one has replaced may be skipped. -/
inductive Event where
  | signIn (uid : String)
  | logout
  | showHome
  | hideHome
  | listenForDeviceChanges
  | write (shutterDevices : Json)
  | deliver (i : Nat)
  | skip (i : Nat)

/-- A new subscription is sent what is stored now. -/
def App.listen (s : App) : App := { s with pending := s.pending ++ [[s.shutterDevices]] }

/-- `Get.put(DeviceController())`: the controller that is there, or a new one whose `onInit`
    listens. -/
def App.put (s : App) : App :=
  if s.created then s else App.listen { s with created := true }

section Steps
variable (parse : String → Except String DateTime)

def step (s : App) : Event → Option App
  | .signIn uid => some { s with currentUser := some uid }
  | .logout => some { s with currentUser := none, homeShown := false }
  | .showHome => some { s.put with homeShown := true }
  | .hideHome => some { s with homeShown := false }
  | .listenForDeviceChanges => if s.created then some s.listen else none
  | .write shutterDevices =>
    some { s with shutterDevices, pending := s.pending.map fun queue => queue ++ [shutterDevices] }
  | .deliver i =>
    match s.pending[i]? with
    | some (snapshot :: rest) => some { s with
        devices := (onDevices parse s.currentUser snapshot).1
        pending := s.pending.set i rest
        handledFor := s.currentUser }
    | _ => none
  | .skip i =>
    match s.pending[i]? with
    | some (_ :: next :: rest) => some { s with pending := s.pending.set i (next :: rest) }
    | _ => none

variable {parse} {s s' : App}

/-- Everything a step can do. -/
theorem step_cases {e : Event} (h : step parse s e = some s') :
    match e with
    | .signIn uid => s' = { s with currentUser := some uid }
    | .logout => s' = { s with currentUser := none, homeShown := false }
    | .showHome => s' = { s.put with homeShown := true }
    | .hideHome => s' = { s with homeShown := false }
    | .listenForDeviceChanges => s' = s.listen
    | .write shutterDevices => s' = { s with
        shutterDevices, pending := s.pending.map fun queue => queue ++ [shutterDevices] }
    | .deliver i => ∃ snapshot rest, s.pending[i]? = some (snapshot :: rest) ∧ s' = { s with
        devices := (onDevices parse s.currentUser snapshot).1
        pending := s.pending.set i rest
        handledFor := s.currentUser }
    | .skip i => ∃ old next rest, s.pending[i]? = some (old :: next :: rest) ∧
        s' = { s with pending := s.pending.set i (next :: rest) } := by
  cases e with
  | deliver i =>
    simp only [step] at h
    split at h
    · rename_i snapshot rest found
      exact ⟨snapshot, rest, found, by simpa using h.symm⟩
    · simp at h
  | skip i =>
    simp only [step] at h
    split at h
    · rename_i old next rest found
      exact ⟨old, next, rest, found, by simpa using h.symm⟩
    · simp at h
  | listenForDeviceChanges =>
    simp only [step] at h
    split at h
    · simpa using h.symm
    · simp at h
  | _ => simpa [step] using h.symm

/-- The app as it starts, with the user that the previous session left signed in. -/
def launched (user : Option String) (shutterDevices : Json) : App :=
  ⟨user, false, false, [], [], shutterDevices, none⟩

@[simp] theorem put_devices (s : App) : s.put.devices = s.devices := by
  unfold App.put
  split <;> rfl

@[simp] theorem put_currentUser (s : App) : s.put.currentUser = s.currentUser := by
  unfold App.put
  split <;> rfl

@[simp] theorem put_handledFor (s : App) : s.put.handledFor = s.handledFor := by
  unfold App.put
  split <;> rfl

end Steps

section Ownership
variable {parse : String → Except String DateTime} {s s' : App}

/-- While a user is signed in and looks at the dashboard, every entry is that user's. -/
def ShowsOwn (s : App) : Prop :=
  s.homeShown = true → ∀ u, s.currentUser = some u → ∀ d ∈ s.devices, d.userId = some u

/-- When a user comes to see the dashboard, the list is empty or was last filled for that
    user. -/
def FilledFor (s : App) : Event → Prop
  | .signIn uid => s.homeShown = true → s.devices = [] ∨ s.handledFor = some uid
  | .showHome => ∀ u, s.currentUser = some u → s.devices = [] ∨ s.handledFor = some u
  | _ => True

/-- The list belongs to whoever was signed in when it was last filled. -/
def Filled (s : App) : Prop := ∀ d ∈ s.devices, d.userId = s.handledFor

theorem filled_step (filled : Filled s) {e : Event} (h : step parse s e = some s') : Filled s' := by
  have next := step_cases h
  cases e with
  | deliver i =>
    obtain ⟨snapshot, rest, -, same⟩ := next
    subst same
    exact userId_addEach
  | skip i =>
    obtain ⟨old, later, rest, -, same⟩ := next
    subst same
    exact filled
  | showHome =>
    simp only at next
    subst next
    simpa [Filled] using filled
  | _ =>
    simp only at next
    subst next
    exact filled

/-- A filled list is a user's exactly when it is empty or was filled for that user. -/
theorem filled_for_iff (filled : Filled s) (u : String) :
    (∀ d ∈ s.devices, d.userId = some u) ↔ s.devices = [] ∨ s.handledFor = some u := by
  constructor
  · intro all
    cases list : s.devices with
    | nil => exact Or.inl rfl
    | cons d rest =>
      have member : d ∈ s.devices := by simp [list]
      exact Or.inr ((filled d member).symm.trans (all d member))
  · intro either d member
    rcases either with empty | same
    · simp [empty] at member
    · rw [filled d member, same]

theorem showsOwn_step_iff (filled : Filled s) (shows : ShowsOwn s) {e : Event}
    (h : step parse s e = some s') : ShowsOwn s' ↔ FilledFor s e := by
  have next := step_cases h
  cases e with
  | signIn uid =>
    simp only at next
    subst next
    unfold ShowsOwn FilledFor
    simp only [Option.some.injEq, forall_eq', filled_for_iff filled uid]
  | showHome =>
    simp only at next
    subst next
    unfold ShowsOwn FilledFor
    simp only [put_currentUser, put_devices, forall_const, filled_for_iff filled]
  | logout =>
    simp only at next
    subst next
    exact ⟨fun _ => trivial, fun _ shown => by simp at shown⟩
  | hideHome =>
    simp only at next
    subst next
    exact ⟨fun _ => trivial, fun _ shown => by simp at shown⟩
  | listenForDeviceChanges =>
    simp only at next
    subst next
    exact ⟨fun _ => trivial, fun _ => shows⟩
  | write shutterDevices =>
    simp only at next
    subst next
    exact ⟨fun _ => trivial, fun _ => shows⟩
  | deliver i =>
    obtain ⟨snapshot, rest, -, same⟩ := next
    subst same
    refine ⟨fun _ => trivial, ?_⟩
    intro _ _ u signedIn d member
    rw [← signedIn]
    exact userId_addEach d member
  | skip i =>
    obtain ⟨old, later, rest, -, same⟩ := next
    subst same
    exact ⟨fun _ => trivial, fun _ => shows⟩

/-- In every run of the app the dashboard shows nobody else's devices exactly when, each time
    a user comes to see it, it was last filled for that user or is empty. -/
theorem dashboard_own_iff_filled (parse : String → Except String DateTime) (user : Option String)
    (shutterDevices : Json) (events : List Event) :
    Throughout (step parse) ShowsOwn (launched user shutterDevices) events ↔
      Along (step parse) FilledFor (launched user shutterDevices) events := by
  apply throughout_iff_along Filled
  · exact fun s e s' filled h => filled_step filled h
  · intro s e disabled
    cases e with
    | signIn uid => simp [step] at disabled
    | showHome => simp [step] at disabled
    | _ => trivial
  · exact fun s e s' filled shows h => showsOwn_step_iff filled shows h
  · simp [Filled, launched]
  · simp [ShowsOwn, launched]

end Ownership

section Left

/-- One user's device is on the dashboard, the user logs out and another signs in. -/
theorem dashboard_of_another_user : ¬ Throughout (step noDates) ShowsOwn (launched none ownOnly)
    [.signIn "uid-1", .showHome, .deliver 0, .logout, .signIn "uid-2", .showHome] := by
  intro shows
  let salon : ShutterDeviceModel := { userId := some "uid-1", deviceName := some "Salon" }
  have ran : run (step noDates) (launched none ownOnly)
      [.signIn "uid-1", .showHome, .deliver 0, .logout, .signIn "uid-2", .showHome] =
        some ⟨some "uid-2", true, true, [salon], [[]], ownOnly, some "uid-1"⟩ := rfl
  have owner := throughout_end shows ran rfl "uid-2" rfl salon (by simp)
  simp [salon] at owner

end Left

section Convergence
variable {parse : String → Except String DateTime} {s s' : App} {u : String}

/-- Events in which the signed-in user stays. -/
def StaysSignedIn : Event → Prop
  | .signIn _ | .logout => False
  | _ => True

def WritesReadable (parse : String → Except String DateTime) : Event → Prop
  | .write shutterDevices => Readable parse shutterDevices
  | _ => True

/-- Each queue ends with what is stored, and once all are empty the list is the user's records
    of it. -/
structure Converging (parse : String → Except String DateTime) (u : String) (s : App) : Prop where
  user : s.currentUser = some u
  readable : ∀ queue ∈ s.pending, ∀ snapshot ∈ queue, Readable parse snapshot
  stored : Readable parse s.shutterDevices
  ends : ∀ queue ∈ s.pending, ∀ last, queue.getLast? = some last → last = s.shutterDevices
  settled : s.pending ≠ [] → (∃ queue ∈ s.pending, queue ≠ []) ∨
    Lists parse (some u) s.shutterDevices s.devices

theorem converging_listen (c : Converging parse u s) : Converging parse u s.listen := by
  refine ⟨c.user, ?_, c.stored, ?_, ?_⟩
  · intro queue member
    rcases List.mem_append.mp member with old | new
    · exact c.readable queue old
    · intro snapshot inside
      rw [List.mem_singleton.mp new, List.mem_singleton] at inside
      exact inside ▸ c.stored
  · intro queue member last at_end
    rcases List.mem_append.mp member with old | new
    · exact c.ends queue old last at_end
    · rw [List.mem_singleton.mp new] at at_end
      exact (Option.some.inj at_end).symm
  · intro _
    exact Or.inl ⟨[s.shutterDevices], by simp [App.listen], by simp⟩

theorem converging_write (c : Converging parse u s) {shutterDevices : Json}
    (readable : Readable parse shutterDevices) : Converging parse u { s with
      shutterDevices, pending := s.pending.map fun queue => queue ++ [shutterDevices] } := by
  refine ⟨c.user, ?_, readable, ?_, ?_⟩
  · intro queue member snapshot inside
    obtain ⟨before, old, same⟩ := List.mem_map.mp member
    subst same
    rcases List.mem_append.mp inside with earlier | now
    · exact c.readable before old snapshot earlier
    · rw [List.mem_singleton.mp now]
      exact readable
  · intro queue member last at_end
    obtain ⟨before, old, same⟩ := List.mem_map.mp member
    subst same
    simpa using at_end.symm
  · intro some_queue
    cases queues : s.pending with
    | nil => simp [queues] at some_queue
    | cons queue rest => exact Or.inl ⟨queue ++ [shutterDevices], by simp, by simp⟩

/-- A queue that is cut at its front still ends as it did. -/
theorem ends_set (c : Converging parse u s) {i : Nat} (front : List Json) {rest : List Json}
    (found : s.pending[i]? = some (front ++ rest)) :
    (∀ queue ∈ s.pending.set i rest, ∀ snapshot ∈ queue, Readable parse snapshot) ∧
      ∀ queue ∈ s.pending.set i rest, ∀ last, queue.getLast? = some last →
        last = s.shutterDevices := by
  have stored := List.mem_of_getElem? found
  constructor
  · intro queue member snapshot inside
    rcases List.mem_or_eq_of_mem_set member with old | cut
    · exact c.readable queue old snapshot inside
    · subst cut
      exact c.readable _ stored snapshot (by simp [inside])
  · intro queue member last at_end
    rcases List.mem_or_eq_of_mem_set member with old | cut
    · exact c.ends queue old last at_end
    · subst cut
      apply c.ends _ stored last
      rw [List.getLast?_append, at_end]
      rfl

theorem converging_deliver (c : Converging parse u s) {i : Nat} {snapshot : Json}
    {rest : List Json} (found : s.pending[i]? = some (snapshot :: rest)) :
    Converging parse u { s with
      devices := (onDevices parse s.currentUser snapshot).1
      pending := s.pending.set i rest
      handledFor := s.currentUser } := by
  obtain ⟨readable, ends⟩ := ends_set c [snapshot] found
  have inside := List.mem_of_getElem? found
  refine ⟨c.user, readable, c.stored, ends, ?_⟩
  intro _
  cases rest with
  | cons next later =>
    have here : next :: later ∈ s.pending.set i (next :: later) :=
      List.mem_set (List.getElem?_eq_some_iff.mp found).1 _
    exact Or.inl ⟨_, here, by simp⟩
  | nil =>
    have same : snapshot = s.shutterDevices := c.ends _ inside snapshot rfl
    right
    simp only
    rw [c.user, ← same]
    exact onDevices_readable (c.readable _ inside snapshot (by simp)) (some u)

theorem converging_skip (c : Converging parse u s) {i : Nat} {old next : Json}
    {rest : List Json} (found : s.pending[i]? = some (old :: next :: rest)) :
    Converging parse u { s with pending := s.pending.set i (next :: rest) } := by
  obtain ⟨readable, ends⟩ := ends_set c [old] found
  refine ⟨c.user, readable, c.stored, ends, ?_⟩
  intro _
  have here : next :: rest ∈ s.pending.set i (next :: rest) :=
    List.mem_set (List.getElem?_eq_some_iff.mp found).1 _
  exact Or.inl ⟨_, here, by simp⟩

theorem converging_step (c : Converging parse u s) {e : Event} (stays : StaysSignedIn e)
    (readable : WritesReadable parse e) (h : step parse s e = some s') :
    Converging parse u s' := by
  have next := step_cases h
  cases e with
  | signIn uid => exact stays.elim
  | logout => exact stays.elim
  | showHome =>
    simp only at next
    subst next
    unfold App.put
    split
    · exact ⟨c.user, c.readable, c.stored, c.ends, c.settled⟩
    · have listening := converging_listen (s := { s with created := true })
        ⟨c.user, c.readable, c.stored, c.ends, c.settled⟩
      exact ⟨listening.user, listening.readable, listening.stored, listening.ends,
        listening.settled⟩
  | hideHome =>
    simp only at next
    subst next
    exact ⟨c.user, c.readable, c.stored, c.ends, c.settled⟩
  | listenForDeviceChanges =>
    simp only at next
    subst next
    exact converging_listen c
  | write shutterDevices =>
    simp only at next
    subst next
    exact converging_write c readable
  | deliver i =>
    obtain ⟨snapshot, rest, found, same⟩ := next
    subst same
    exact converging_deliver c found
  | skip i =>
    obtain ⟨old, later, rest, found, same⟩ := next
    subst same
    exact converging_skip c found

/-- Whatever subscriptions there are and in whatever order their callbacks come: when nothing is
    left to handle the list is the user's records of what is stored, and after every callback
    it is the user's records of the snapshot that was handled. -/
theorem list_converges {shutterDevices : Json} {events : List Event}
    (stored : Readable parse shutterDevices) (stays : ∀ e ∈ events, StaysSignedIn e)
    (readable : ∀ e ∈ events, WritesReadable parse e)
    (ran : run (step parse) (launched (some u) shutterDevices) events = some s) :
    (s.pending ≠ [] → (∀ queue ∈ s.pending, queue = []) →
      Lists parse (some u) s.shutterDevices s.devices) ∧
    ∀ i s', step parse s (.deliver i) = some s' →
      ∃ snapshot rest, s.pending[i]? = some (snapshot :: rest) ∧
        Lists parse (some u) snapshot s'.devices := by
  have first : Converging parse u (launched (some u) shutterDevices) := by
    refine ⟨rfl, ?_, stored, ?_, ?_⟩ <;> simp [launched]
  have along : Along (step parse) (fun _ e => StaysSignedIn e ∧ WritesReadable parse e)
      (launched (some u) shutterDevices) events :=
    along_of_all (fun e member _ => ⟨stays e member, readable e member⟩) _
  have c : Converging parse u s := run_invariant (Converging parse u)
    (fun s e s' c condition h => converging_step c condition.1 condition.2 h) first along ran
  constructor
  · intro subscribed handled
    rcases c.settled subscribed with ⟨queue, member, waiting⟩ | listed
    · exact absurd (handled queue member) waiting
    · exact listed
  · intro i s' h
    obtain ⟨snapshot, rest, found, same⟩ := step_cases h
    subst same
    refine ⟨snapshot, rest, found, ?_⟩
    have inside := List.mem_of_getElem? found
    simp only [c.user]
    exact onDevices_readable (c.readable _ inside snapshot (by simp)) (some u)

section Settled

theorem readable_ownOnly : Readable noDates ownOnly := by
  intro key member
  have keys : ownOnly.keys = ["A0B1C2D3E4F5"] := rfl
  rw [keys, List.mem_singleton] at member
  subst member
  exact ⟨⟨_, rfl⟩, _, rfl⟩

theorem readable_null : Readable noDates Node.null := by
  intro key member
  simp [Node.keys, Node.null] at member

/-- Two subscriptions; the one that lags handles the old snapshot after the other handled the
    new one. -/
def lagging : List Event :=
  [.showHome, .listenForDeviceChanges, .write Node.null, .deliver 1, .deliver 1, .deliver 0,
    .deliver 0]

theorem list_converges_lagging : ∃ s, run (step noDates) (launched (some "uid-1") ownOnly) lagging =
      some s ∧
    (s.pending ≠ [] → (∀ queue ∈ s.pending, queue = []) →
      Lists noDates (some "uid-1") s.shutterDevices s.devices) ∧
    ∀ i s', step noDates s (.deliver i) = some s' →
      ∃ snapshot rest, s.pending[i]? = some (snapshot :: rest) ∧
        Lists noDates (some "uid-1") snapshot s'.devices := by
  have ran : run (step noDates) (launched (some "uid-1") ownOnly) lagging =
      some ⟨some "uid-1", true, true, [], [[], []], Node.null, some "uid-1"⟩ := rfl
  refine ⟨_, ran, list_converges readable_ownOnly ?_ ?_ ran⟩
  · simp [lagging, StaysSignedIn]
  · simp [lagging, WritesReadable, readable_null]

end Settled
end Convergence
end Dashboard
