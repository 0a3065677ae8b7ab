import ShutterEase.AutoPlayController

/-!
Which minutes the scheduler's clock reads hit. The timer's ticks are a minute apart and each
evaluation reads the clock some delay later, so a read falls into its tick's minute or, by a
carry, into the next. Times are in microseconds, as `DateTime` counts them.
-/
namespace SchedulerMinutes
open KeyedTree Firebase AccountDevices AutoPlayController

def minute : Nat := 60 * 1000000

def minuteRead (s : Nat) (d : Nat → Nat) (k : Nat) : Nat := (s + minute * k + d k) / minute

def minutesOfDay : Nat := 1440

def clockAt (m : Nat) : TimeOfDay :=
  ⟨⟨m / 60 % 24, Nat.mod_lt _ (by decide)⟩, ⟨m % 60, Nat.mod_lt _ (by decide)⟩⟩

/-- The keys that evaluation `k` writes to, given the tree its read returned. -/
def openedBy (parse : String → Option TimeOfDay) (uid : String) (s : Nat) (d : Nat → Nat)
    (dbs : Nat → Json) (k : Nat) : List String :=
  opened parse (clockAt (minuteRead s d k)) (userDevices (some uid) ((dbs k).child "ShutterDevices"))

/-- The device is one of the user's, its auto-play is on with the given text, and the loop gets
    to it. -/
def Scheduled (uid key text : String) (db : Json) : Prop :=
  ∃ before device after,
    userDevices (some uid) (db.child "ShutterDevices") = before ++ (key, device) :: after ∧
      device.child "autoPlay" = Json.bool true ∧ device.child "autoPlayTime" = Json.str text ∧
      ∀ e ∈ before, Passes e.2

/-- Of the evaluations `0` to `n`, exactly one reads each minute strictly between the first
    read and the last, and opens a device scheduled for it on that day. -/
def ActsOncePerMinute (parse : String → Option TimeOfDay) (s : Nat) (d : Nat → Nat) (n : Nat) :
    Prop :=
  ∀ m, minuteRead s d 0 < m → m < minuteRead s d n →
    (∃! k, k ≤ n ∧ minuteRead s d k = m) ∧
    ∀ uid key text dbs, convertTo24HourFormat parse (some text) = some (formatHHmm (clockAt m)) →
      (∀ k, k ≤ n → Scheduled uid key text (dbs k)) →
      ∃! k, k ≤ n ∧ minuteRead s d k / minutesOfDay = m / minutesOfDay ∧
        key ∈ openedBy parse uid s d dbs k

def Carries (s : Nat) (d : Nat → Nat) (k : Nat) : Prop := minute ≤ s % minute + d k

instance (s : Nat) (d : Nat → Nat) (k : Nat) : Decidable (Carries s d k) :=
  inferInstanceAs (Decidable (minute ≤ s % minute + d k))

/-- No delay carries over after one that does not, and none stops carrying over except between
    the first two evaluations or the last two. -/
def SteadyDelays (s : Nat) (d : Nat → Nat) (n : Nat) : Prop :=
  ∀ k, k < n → (Carries s d (k + 1) → Carries s d k) ∧
    (Carries s d k → ¬ Carries s d (k + 1) → k = 0 ∨ k + 1 = n)

section Reads
variable {s n : Nat} {d : Nat → Nat}

theorem read_carried (short : ∀ k, d k < minute) {k : Nat} (carries : Carries s d k) :
    minuteRead s d k = s / minute + k + 1 := by
  have bound := short k
  unfold Carries at carries
  unfold minuteRead
  unfold minute at *
  omega

theorem read_not_carried {k : Nat} (stays : ¬ Carries s d k) :
    minuteRead s d k = s / minute + k := by
  unfold Carries at stays
  unfold minuteRead
  unfold minute at *
  omega

theorem read_bounds (short : ∀ k, d k < minute) (k : Nat) :
    s / minute + k ≤ minuteRead s d k ∧ minuteRead s d k ≤ s / minute + k + 1 := by
  by_cases carries : Carries s d k
  · rw [read_carried short carries]
    omega
  · rw [read_not_carried carries]
    omega

theorem read_le_succ (short : ∀ k, d k < minute) (k : Nat) :
    minuteRead s d k ≤ minuteRead s d (k + 1) := by
  have here := read_bounds (s := s) short k
  have next := read_bounds (s := s) short (k + 1)
  omega

theorem read_mono (short : ∀ k, d k < minute) {j k : Nat} (le : j ≤ k) :
    minuteRead s d j ≤ minuteRead s d k := by
  induction k, le using Nat.le_induction with
  | base => exact Nat.le_refl _
  | succ k _ ih => exact ih.trans (read_le_succ short k)

theorem carries_back (steady : SteadyDelays s d n) {j k : Nat} (le : j ≤ k) (inside : k ≤ n)
    (carries : Carries s d k) : Carries s d j := by
  induction k, le using Nat.le_induction with
  | base => exact carries
  | succ k _ ih => exact ih (by omega) ((steady k (by omega)).1 carries)

theorem read_some (short : ∀ k, d k < minute) (steady : SteadyDelays s d n) {m : Nat}
    (after : minuteRead s d 0 < m) (before : m < minuteRead s d n) :
    ∃ k, k ≤ n ∧ minuteRead s d k = m := by
  have first := read_bounds (s := s) short 0
  have last := read_bounds (s := s) short n
  have own : m - s / minute ≤ n := by omega
  by_cases carries : Carries s d (m - s / minute)
  · -- the tick of minute `m` is carried past it, so the one before was carried into it
    have prior : Carries s d (m - s / minute - 1) := carries_back steady (by omega) own carries
    refine ⟨m - s / minute - 1, by omega, ?_⟩
    rw [read_carried short prior]
    omega
  · refine ⟨m - s / minute, own, ?_⟩
    rw [read_not_carried carries]
    omega

/-- Two reads of one minute are neighbours, the first of them carried. -/
theorem read_twice (short : ∀ k, d k < minute) {j k : Nat} (less : j < k)
    (same : minuteRead s d j = minuteRead s d k) :
    k = j + 1 ∧ Carries s d j ∧ ¬ Carries s d (j + 1) := by
  have at_k := read_bounds (s := s) short k
  have carries : Carries s d j := by
    by_contra stays
    rw [read_not_carried stays] at same
    omega
  rw [read_carried short carries] at same
  have next : k = j + 1 := by omega
  subst next
  refine ⟨rfl, carries, ?_⟩
  intro again
  rw [read_carried short again] at same
  omega

theorem read_once (short : ∀ k, d k < minute) (steady : SteadyDelays s d n) {m : Nat}
    (after : minuteRead s d 0 < m) (before : m < minuteRead s d n) :
    ∃! k, k ≤ n ∧ minuteRead s d k = m := by
  have never : ∀ j k, j < k → k ≤ n → minuteRead s d j = m → minuteRead s d k = m → False := by
    intro j k less inside at_j at_k
    obtain ⟨rfl, carries, stays⟩ := read_twice short less (at_j.trans at_k.symm)
    rcases (steady j (by omega)).2 carries stays with first | last
    · subst first
      omega
    · rw [← last] at before
      omega
  obtain ⟨k, inside, reads⟩ := read_some short steady after before
  refine ⟨k, ⟨inside, reads⟩, ?_⟩
  rintro j ⟨inside', reads'⟩
  rcases Nat.lt_trichotomy j k with less | same | more
  · exact (never j k less inside reads' reads).elim
  · exact same
  · exact (never k j more inside' reads reads').elim

theorem steady_of_read_once (short : ∀ k, d k < minute)
    (once : ∀ m, minuteRead s d 0 < m → m < minuteRead s d n →
      ∃! k, k ≤ n ∧ minuteRead s d k = m) : SteadyDelays s d n := by
  intro k inside
  have from_first := read_mono (s := s) short (Nat.zero_le k)
  have to_last : minuteRead s d (k + 1) ≤ minuteRead s d n := read_mono short inside
  constructor
  · intro carries
    by_contra stays
    have here := read_not_carried stays
    have next := read_carried short carries
    obtain ⟨j, ⟨-, reads⟩, -⟩ := once (minuteRead s d k + 1) (by omega) (by omega)
    rcases Nat.lt_or_ge k j with later | earlier
    · have low : minuteRead s d (k + 1) ≤ minuteRead s d j := read_mono short later
      omega
    · have high := read_mono (s := s) short earlier
      omega
  · intro carries stays
    by_contra inner
    have here := read_carried short carries
    have next := read_not_carried stays
    have before := read_bounds (s := s) short 0
    have after := read_bounds (s := s) short n
    obtain ⟨j, -, unique⟩ := once (minuteRead s d k) (by
      by_contra low
      have zero : minuteRead s d 0 = minuteRead s d k := by omega
      have gap := read_twice short (show 0 < k by omega) zero
      omega) (by
      by_contra high
      have whole : minuteRead s d (k + 1) = minuteRead s d n := by omega
      have gap := read_twice short (show k + 1 < n by omega) whole
      exact stays gap.2.1)
    have one := unique k ⟨by omega, rfl⟩
    have two := unique (k + 1) ⟨by omega, by omega⟩
    omega

end Reads

section Openings
variable {parse : String → Option TimeOfDay} {s n : Nat} {d : Nat → Nat}

theorem minute_eq_iff (a b : Nat) :
    a = b ↔ a / minutesOfDay = b / minutesOfDay ∧ clockAt a = clockAt b := by
  constructor
  · intro same
    subst same
    exact ⟨rfl, rfl⟩
  · intro minute
    obtain ⟨day, clock⟩ := minute
    simp only [clockAt, TimeOfDay.mk.injEq, Fin.mk.injEq] at clock
    obtain ⟨hour, minute⟩ := clock
    unfold minutesOfDay at day
    omega

theorem openedBy_iff {uid key text : String} {dbs : Nat → Json} {k m : Nat}
    (shows : convertTo24HourFormat parse (some text) = some (formatHHmm (clockAt m)))
    (scheduled : Scheduled uid key text (dbs k)) :
    minuteRead s d k / minutesOfDay = m / minutesOfDay ∧ key ∈ openedBy parse uid s d dbs k ↔
      minuteRead s d k = m := by
  obtain ⟨before, device, after, listed, flag, time, passes⟩ := scheduled
  have distinct := userDevices_keys_nodup (some uid) ((dbs k).child "ShutterDevices")
  rw [listed] at distinct
  rw [openedBy, listed, mem_opened_reached parse distinct passes flag time]
  simp only [opensAt, decide_true, Bool.true_and, decide_eq_true_eq, shows, Option.some.injEq]
  rw [minute_eq_iff (minuteRead s d k) m, eq_comm (a := formatHHmm _), currentTime_eq_iff]

/-- The scheduler acts once in every minute of a run exactly when the delays are steady. -/
theorem acts_once_per_minute_iff (parse : String → Option TimeOfDay) (n : Nat)
    (short : ∀ k, d k < minute) :
    ActsOncePerMinute parse s d n ↔ SteadyDelays s d n := by
  constructor
  · intro acts
    exact steady_of_read_once short fun m after before => (acts m after before).1
  · intro steady m after before
    obtain ⟨k, ⟨inside, reads⟩, unique⟩ := read_once short steady after before
    refine ⟨⟨k, ⟨inside, reads⟩, unique⟩, ?_⟩
    intro uid key text dbs shows scheduled
    refine ⟨k, ⟨inside, (openedBy_iff shows (scheduled k inside)).mpr reads⟩, ?_⟩
    rintro j ⟨inside', day, opens⟩
    exact unique j ⟨inside', (openedBy_iff shows (scheduled j inside')).mp ⟨day, opens⟩⟩

end Openings

section Skipped

def readPastMidnight (time : String) : Option TimeOfDay :=
  if time = "12:01 AM" then some (clockAt 1)
  else if time = "12:03 AM" then some (clockAt 3)
  else none

def slowFirst : Nat → Nat := fun k => if k = 0 then 40 * 1000000 else 2 * 1000000

/-- Half a minute past, with the second read forty seconds late. -/
def lateSecond : Nat → Nat := fun k => if k = 1 then 40 * 1000000 else 2 * 1000000

theorem acts_once_on_time :
    convertTo24HourFormat readPastMidnight (some "12:03 AM") = some (formatHHmm (clockAt 3)) ∧
      ActsOncePerMinute readPastMidnight (30 * 1000000) slowFirst 5 := by
  have short : ∀ k, slowFirst k < minute := by
    intro k
    unfold slowFirst
    split <;> decide
  have steady : SteadyDelays (30 * 1000000) slowFirst 5 := by
    unfold SteadyDelays
    decide
  exact ⟨by decide, (acts_once_per_minute_iff readPastMidnight 5 short).mpr steady⟩

/-- The first evaluation reads minute zero, the second minute two; minute one is skipped. -/
theorem late_read_skips_minute : (∀ k, lateSecond k < minute) ∧
    convertTo24HourFormat readPastMidnight (some "12:01 AM") = some (formatHHmm (clockAt 1)) ∧
    ¬ ActsOncePerMinute readPastMidnight (30 * 1000000) lateSecond 1 := by
  have short : ∀ k, lateSecond k < minute := by
    intro k
    unfold lateSecond
    split <;> decide
  refine ⟨short, by decide, ?_⟩
  intro acts
  have steady := steady_of_read_once short fun m after before => (acts m after before).1
  have back := (steady 0 (by omega)).1 (by decide)
  exact absurd back (by decide)

end Skipped
end SchedulerMinutes
