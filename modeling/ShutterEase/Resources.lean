import Mathlib.Data.List.Nodup
import ShutterEase.Runs

/-!
The timers and subscriptions that the controllers start. An `AutoPlayController` remembers the
timer it started last and cancels that one when it is closed. The other two keep no handle on
what they listen to, so nothing cancels it.
-/
namespace Resources
open Runs

inductive Kind where
  | autoPlay
  | device
  | schedule
  deriving DecidableEq, Repr

/-- `live` are the timers or subscriptions that run, numbered as they were started. -/
structure Controller where
  kind : Kind
  live : List Nat
  timer : Option Nat
  started : Nat
  closed : Bool
  deriving DecidableEq, Repr

section Methods

def Controller.listen (c : Controller) : Controller :=
  { c with live := c.live ++ [c.started], started := c.started + 1 }

def startAutoPlayScheduler (c : Controller) : Controller :=
  { c.listen with timer := some c.started }

def listenForDeviceChanges (c : Controller) : Controller := c.listen

def fetchSchedule (c : Controller) : Controller := c.listen

/-- What the controllers of a kind start, in `onInit` and whenever they are asked again. -/
def Controller.start (c : Controller) : Controller :=
  match c.kind with
  | .autoPlay => startAutoPlayScheduler c
  | .device => listenForDeviceChanges c
  | .schedule => fetchSchedule c

def onInit (kind : Kind) : Controller := Controller.start ⟨kind, [], none, 0, false⟩

def onClose (c : Controller) : Controller :=
  match c.kind, c.timer with
  | .autoPlay, some timer => { c with live := c.live.erase timer, closed := true }
  | _, _ => { c with closed := true }

end Methods

abbrev App := List Controller

inductive Event where
  | onInit (kind : Kind)
  | startAutoPlayScheduler (i : Nat)
  | listenForDeviceChanges (i : Nat)
  | fetchSchedule (i : Nat)
  | onClose (i : Nat)

section Steps

def App.again (s : App) (kind : Kind) (i : Nat) : Option App :=
  match s[i]? with
  | none => none
  | some c => if c.kind = kind then some (s.set i c.start) else none

def App.close (s : App) (i : Nat) : Option App :=
  match s[i]? with
  | none => none
  | some c => if c.closed = true then none else some (s.set i (Resources.onClose c))

def step (s : App) : Event → Option App
  | .onInit kind => some (s ++ [Resources.onInit kind])
  | .startAutoPlayScheduler i => s.again .autoPlay i
  | .listenForDeviceChanges i => s.again .device i
  | .fetchSchedule i => s.again .schedule i
  | .onClose i => s.close i

/-- One timer or subscription at most, and none once the controller is closed. -/
structure Bounded (c : Controller) : Prop where
  one : c.live.length ≤ 1
  released : c.closed = true → c.live = []

def NoLeak (s : App) : Prop := ∀ c ∈ s, Bounded c

def Has (s : App) (kind : Kind) (i : Nat) : Prop := ∃ c, s[i]? = some c ∧ c.kind = kind

/-- Nothing is started but by `onInit`, and only an `AutoPlayController` is closed. -/
def StartsOnce (s : App) : Event → Prop
  | .onInit _ => True
  | .startAutoPlayScheduler i => ¬ Has s .autoPlay i
  | .listenForDeviceChanges i => ¬ Has s .device i
  | .fetchSchedule i => ¬ Has s .schedule i
  | .onClose i => ∀ c, s[i]? = some c → c.closed = false → c.kind = .autoPlay

end Steps

section Count
variable {c : Controller}

@[simp] theorem start_live (c : Controller) : c.start.live = c.live ++ [c.started] := by
  unfold Controller.start
  split <;> rfl

@[simp] theorem start_started (c : Controller) : c.start.started = c.started + 1 := by
  unfold Controller.start
  split <;> rfl

@[simp] theorem start_kind (c : Controller) : c.start.kind = c.kind := by
  unfold Controller.start
  split <;> rfl

@[simp] theorem start_closed (c : Controller) : c.start.closed = c.closed := by
  unfold Controller.start
  split <;> rfl

theorem start_timer (c : Controller) (own : c.kind = .autoPlay) :
    c.start.timer = some c.started := by
  simp only [Controller.start, own, startAutoPlayScheduler]

def Controller.cancelled (c : Controller) : Nat :=
  if c.closed = true ∧ c.kind = .autoPlay then 1 else 0

/-- Whatever was started and not cancelled runs; the remembered timer is one that runs. -/
structure Sound (c : Controller) : Prop where
  begun : 0 < c.started
  counted : c.live.length + c.cancelled = c.started
  remembered : c.kind = .autoPlay → c.closed = false → ∃ t ∈ c.live, c.timer = some t

theorem sound_start (counted : c.live.length + c.cancelled = c.started) : Sound c.start := by
  constructor
  · simp
  · have same : c.start.cancelled = c.cancelled := by simp [Controller.cancelled]
    simp only [start_live, start_started, same, List.length_append, List.length_singleton]
    omega
  · intro own _
    rw [start_kind] at own
    exact ⟨c.started, by simp, start_timer c own⟩

theorem sound_onInit (kind : Kind) : Sound (onInit kind) := sound_start rfl

theorem onClose_started (c : Controller) : (onClose c).started = c.started := by
  unfold onClose
  split <;> rfl

theorem onClose_kind (c : Controller) : (onClose c).kind = c.kind := by
  unfold onClose
  split <;> rfl

theorem onClose_closed (c : Controller) : (onClose c).closed = true := by
  unfold onClose
  split <;> rfl

theorem sound_onClose (sound : Sound c) (open_yet : c.closed = false) : Sound (onClose c) := by
  constructor
  · rw [onClose_started]
    exact sound.begun
  · have counted := sound.counted
    simp only [Controller.cancelled, open_yet, Bool.false_eq_true, false_and, ↓reduceIte] at counted
    rw [onClose_started, Controller.cancelled, onClose_closed, onClose_kind]
    by_cases own : c.kind = .autoPlay
    · obtain ⟨timer, member, remembered⟩ := sound.remembered own open_yet
      have some_live := List.length_pos_of_mem member
      simp only [onClose, own, remembered, List.length_erase_of_mem member, and_self, ↓reduceIte]
      omega
    · have kept : (onClose c).live = c.live := by
        unfold onClose
        split
        · rename_i same _
          exact absurd same own
        · rfl
      simp only [own, kept, and_false, ↓reduceIte]
      omega
  · intro _ still
    rw [onClose_closed] at still
    cases still

theorem bounded_iff (sound : Sound c) :
    Bounded c ↔ c.started = 1 ∧ (c.closed = true → c.kind = .autoPlay) := by
  have counted := sound.counted
  have begun := sound.begun
  unfold Controller.cancelled at counted
  constructor
  · intro bounded
    obtain ⟨one, released⟩ := bounded
    by_cases shut : c.closed = true
    · have empty := released shut
      by_cases own : c.kind = .autoPlay
      · simp only [shut, own, empty, List.length_nil, and_self, ↓reduceIte] at counted
        exact ⟨counted.symm, fun _ => own⟩
      · simp only [own, empty, List.length_nil, and_false, ↓reduceIte] at counted
        omega
    · have none_cancelled : ¬ (c.closed = true ∧ c.kind = .autoPlay) := fun both => shut both.1
      rw [if_neg none_cancelled] at counted
      exact ⟨by omega, fun same => absurd same shut⟩
  · intro once
    obtain ⟨started, own⟩ := once
    constructor
    · omega
    · intro shut
      simp only [shut, own shut, and_self, ↓reduceIte] at counted
      exact List.length_eq_zero_iff.mp (by omega)

end Count

section Apps
variable {s s' : App}

def AllSound (s : App) : Prop := ∀ c ∈ s, Sound c

theorem again_some {kind : Kind} {i : Nat} (h : s.again kind i = some s') :
    ∃ c, s[i]? = some c ∧ c.kind = kind ∧ s' = s.set i c.start := by
  unfold App.again at h
  split at h
  · simp at h
  · rename_i c at_i
    split at h
    · rename_i own
      exact ⟨c, at_i, own, by simpa using h.symm⟩
    · simp at h

theorem again_none {kind : Kind} {i : Nat} (h : s.again kind i = none) : ¬ Has s kind i := by
  intro has
  obtain ⟨c, at_i, own⟩ := has
  simp [App.again, at_i, own] at h

theorem close_some {i : Nat} (h : s.close i = some s') :
    ∃ c, s[i]? = some c ∧ c.closed = false ∧ s' = s.set i (onClose c) := by
  unfold App.close at h
  split at h
  · simp at h
  · rename_i c at_i
    split at h
    · simp at h
    · rename_i still
      exact ⟨c, at_i, by simpa using still, by simpa using h.symm⟩

theorem all_set {P : Controller → Prop} {i : Nat} {c : Controller} (all : ∀ x ∈ s, P x)
    (here : P c) : ∀ x ∈ s.set i c, P x := by
  intro x member
  rcases List.mem_or_eq_of_mem_set member with old | rfl
  · exact all x old
  · exact here

theorem again_sound {kind : Kind} {i : Nat} (sound : AllSound s)
    (h : s.again kind i = some s') : AllSound s' := by
  obtain ⟨c, at_i, -, rfl⟩ := again_some h
  have counted := (sound c (List.mem_of_getElem? at_i)).counted
  exact all_set sound (sound_start counted)

theorem step_sound (sound : AllSound s) {e : Event} (h : step s e = some s') : AllSound s' := by
  cases e with
  | onInit kind =>
    simp only [step, Option.some.injEq] at h
    subst h
    intro c member
    rcases List.mem_append.mp member with old | new
    · exact sound c old
    · rw [List.mem_singleton.mp new]
      exact sound_onInit kind
  | startAutoPlayScheduler i => exact again_sound sound h
  | listenForDeviceChanges i => exact again_sound sound h
  | fetchSchedule i => exact again_sound sound h
  | onClose i =>
    obtain ⟨c, at_i, still, rfl⟩ := close_some h
    exact all_set sound (sound_onClose (sound c (List.mem_of_getElem? at_i)) still)

theorem again_leaks {kind : Kind} {i : Nat} (sound : AllSound s)
    (h : s.again kind i = some s') : ¬ NoLeak s' := by
  obtain ⟨c, at_i, -, rfl⟩ := again_some h
  have own := sound c (List.mem_of_getElem? at_i)
  have in_range := (List.getElem?_eq_some_iff.mp at_i).1
  intro bounded
  have here : c.start ∈ s.set i c.start := List.mem_set in_range c.start
  have once := ((bounded_iff (sound_start own.counted)).mp (bounded _ here)).1
  have begun := own.begun
  rw [start_started] at once
  omega

theorem again_iff {kind : Kind} {i : Nat} (sound : AllSound s) (h : s.again kind i = some s') :
    NoLeak s' ↔ ¬ Has s kind i := by
  obtain ⟨c, at_i, own, -⟩ := again_some h
  constructor
  · exact fun bounded => absurd bounded (again_leaks sound h)
  · exact fun none_there => absurd ⟨c, at_i, own⟩ none_there

theorem noLeak_step_iff (sound : AllSound s) (bounded : NoLeak s) {e : Event}
    (h : step s e = some s') : NoLeak s' ↔ StartsOnce s e := by
  cases e with
  | onInit kind =>
    simp only [step, Option.some.injEq] at h
    subst h
    refine ⟨fun _ => trivial, fun _ => ?_⟩
    intro c member
    rcases List.mem_append.mp member with old | new
    · exact bounded c old
    · rw [List.mem_singleton.mp new]
      cases kind <;> exact ⟨by decide, by decide⟩
  | startAutoPlayScheduler i => exact again_iff sound h
  | listenForDeviceChanges i => exact again_iff sound h
  | fetchSchedule i => exact again_iff sound h
  | onClose i =>
    obtain ⟨c, at_i, still, rfl⟩ := close_some h
    have own := sound c (List.mem_of_getElem? at_i)
    have in_range := (List.getElem?_eq_some_iff.mp at_i).1
    have once := ((bounded_iff own).mp (bounded c (List.mem_of_getElem? at_i))).1
    have closed_iff := bounded_iff (sound_onClose own still)
    rw [onClose_started, onClose_kind, onClose_closed] at closed_iff
    constructor
    · intro after d at_i' _
      rw [at_i, Option.some.injEq] at at_i'
      subst at_i'
      have here : onClose c ∈ s.set i (onClose c) := List.mem_set in_range (onClose c)
      exact (closed_iff.mp (after _ here)).2 rfl
    · intro releases
      exact all_set bounded (closed_iff.mpr ⟨once, fun _ => releases c at_i still⟩)

theorem idle_startsOnce {e : Event} (h : step s e = none) : StartsOnce s e := by
  cases e with
  | onInit kind => trivial
  | startAutoPlayScheduler i => exact again_none h
  | listenForDeviceChanges i => exact again_none h
  | fetchSchedule i => exact again_none h
  | onClose i =>
    intro c at_i still
    simp [step, App.close, at_i, still] at h

/-- Timers and subscriptions stay bounded along a run exactly when every start is the one of an
    `onInit` and no `DeviceController` or `ScheduleController` is closed. -/
theorem no_leak_iff (events : List Event) :
    Throughout step NoLeak [] events ↔ Along step StartsOnce [] events := by
  apply throughout_iff_along AllSound
  · exact fun s e s' sound h => step_sound sound h
  · exact fun s e h => idle_startsOnce h
  · exact fun s e s' sound bounded h => noLeak_step_iff sound bounded h
  · simp [AllSound]
  · simp [NoLeak]

end Apps

section Widgets
variable {s : App}

def App.registered (s : App) (kind : Kind) : Option Nat :=
  s.findIdx? fun c => decide (c.kind = kind) && !c.closed

/-- `Get.put`, which starts a controller where none is registered, and a call on what it returns. -/
def putThen (kind : Kind) (call : Nat → Event) (s : App) : List Event :=
  match s.registered kind with
  | some i => [call i]
  | none => [.onInit kind, call s.length]

def roomCardBuild (s : App) : List Event :=
  match s.registered .device with
  | some _ => putThen .autoPlay .startAutoPlayScheduler s
  | none =>
    .onInit .device :: putThen .autoPlay .startAutoPlayScheduler (s ++ [Resources.onInit .device])

/-- `initState` of `ScheduleScreen` and of `ScheduleForm`. -/
def scheduleInitState : App → List Event := putThen .schedule .fetchSchedule

theorem onInit_kind (kind : Kind) : (onInit kind).kind = kind := by
  rw [onInit, start_kind]

theorem putThen_leaks {kind : Kind} {call : Nat → Event} (sound : AllSound s)
    (calls : ∀ s i, step s (call i) = App.again s kind i) :
    ∃ s', run step s (putThen kind call s) = some s' ∧ ¬ NoLeak s' := by
  have goes : ∀ t i, AllSound t → Has t kind i →
      ∃ s', run step t [call i] = some s' ∧ ¬ NoLeak s' := by
    intro t i sound has
    cases asked : App.again t kind i with
    | none => exact absurd has (again_none asked)
    | some s' => exact ⟨s', by simp only [run, calls, asked], again_leaks sound asked⟩
  unfold putThen
  split
  · rename_i i there
    obtain ⟨in_range, fits, -⟩ := List.findIdx?_eq_some_iff_getElem.mp there
    simp only [Bool.and_eq_true, decide_eq_true_eq] at fits
    exact goes s i sound ⟨s[i], List.getElem?_eq_getElem in_range, fits.1⟩
  · have first : step s (.onInit kind) = some (s ++ [onInit kind]) := rfl
    rw [run_next first]
    apply goes _ _ (step_sound sound first)
    exact ⟨onInit kind, by simp, onInit_kind kind⟩

theorem schedule_screen_leaks (sound : AllSound s) :
    ∃ s', run step s (scheduleInitState s) = some s' ∧ ¬ NoLeak s' :=
  putThen_leaks sound fun _ _ => rfl

theorem room_card_leaks (sound : AllSound s) :
    ∃ s', run step s (roomCardBuild s) = some s' ∧ ¬ NoLeak s' := by
  unfold roomCardBuild
  split
  · exact putThen_leaks sound fun _ _ => rfl
  · have first : step s (.onInit .device) = some (s ++ [onInit .device]) := rfl
    rw [run_next first]
    exact putThen_leaks (step_sound sound first) fun _ _ => rfl

def oneTimerLeft : App :=
  [⟨.device, [0], none, 1, false⟩, ⟨.autoPlay, [0], some 1, 2, true⟩]

/-- The first card that is built starts two timers, and closing the controller leaves one. -/
theorem room_card_leaves_timer :
    run step [] (roomCardBuild [] ++ [.onClose 1]) = some oneTimerLeft ∧
      ¬ Throughout step NoLeak [] (roomCardBuild [] ++ [.onClose 1]) := by
  have ran : run step [] (roomCardBuild [] ++ [.onClose 1]) = some oneTimerLeft := rfl
  refine ⟨ran, ?_⟩
  intro bounded
  have ended := throughout_end bounded ran
  have released := (ended ⟨.autoPlay, [0], some 1, 2, true⟩ (by decide)).released rfl
  cases released

end Widgets
end Resources
