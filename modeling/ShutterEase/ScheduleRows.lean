import ShutterEase.ScheduleForm

/-!
The form's rows after one snapshot that has records for some of the weekdays. The listener
copies by position in the sorted list, so a row is its own day's exactly when no earlier day
is missing.
-/
namespace ScheduleRows
open KeyedTree Firebase ShutterModels ScheduleController ScheduleWeek ScheduleForm

/-- The days of a set, Monday first. -/
def listed (stored : Fin 7 → Bool) : List (Fin 7) := (List.finRange 7).filter stored

/-- The snapshot has a record for each of the days and nothing else. -/
structure HoldsDays (lang : Language) (node : Json) (has : Fin 7 → Bool)
    (stored : Fin 7 → Times) : Prop where
  record : ∀ i, has i = true → ScheduleModel.fromJson (node.child (days lang i)) =
    .ok (newSchedule (days lang i) (stored i))
  only : ∀ key ∈ node.keys, ∃ i, has i = true ∧ key = days lang i

/-- Each stored weekday is in its row, the other rows are as they were, and no list that the
    listener is notified of is longer than the form. -/
structure ShowsOwn (lang : Language) (node : Json) (order : List String) (has : Fin 7 → Bool)
    (stored rows : Fin 7 → Times) : Prop where
  own : ∀ i, has i = true → delivered lang node order rows i = stored i
  untouched : ∀ i, has i = false → delivered lang node order rows i = rows i
  in_range : ∀ scheduleList ∈ notifications lang node order, scheduleList.length ≤ 7

/-- No stored weekday comes after a missing one. -/
def FromMonday (has : Fin 7 → Bool) : Prop := ∀ i, has i = true → ∀ j, j < i → has j = true

section Listed
variable {has : Fin 7 → Bool}

theorem listed_increasing (has : Fin 7 → Bool) : (listed has).Pairwise (· < ·) :=
  (List.pairwise_lt_finRange 7).filter _

theorem mem_listed {i : Fin 7} : i ∈ listed has ↔ has i = true := by simp [listed]

theorem listed_nodup (has : Fin 7 → Bool) : (listed has).Nodup := (List.nodup_finRange 7).filter _

theorem listed_length (has : Fin 7 → Bool) : (listed has).length ≤ 7 := by
  have short := List.length_filter_le has (List.finRange 7)
  simpa [listed] using short

theorem listed_lt {m n : Nat} (less : m < n) (bound : n < (listed has).length) :
    (listed has)[m] < (listed has)[n] :=
  List.pairwise_iff_getElem.mp (listed_increasing has) m n _ bound less

/-- Without a gap every day stands at its own position. -/
theorem listed_at (whole : FromMonday has) (n : Nat) (bound : n < (listed has).length) :
    (listed has)[n].val = n := by
  induction n using Nat.strongRecOn with
  | ind n ih =>
    have low : n ≤ (listed has)[n].val := by
      cases n with
      | zero => exact Nat.zero_le _
      | succ m =>
        have before := ih m (by omega) (by omega)
        have less := Fin.lt_def.mp (listed_lt (Nat.lt_add_one m) bound)
        omega
    by_contra gap
    have high : n < (listed has)[n].val := by omega
    -- the day numbered `n` is stored, and the list has no place left for it
    have stored := whole _ (mem_listed.mp (List.getElem_mem bound))
      ⟨n, Nat.lt_trans high (listed has)[n].isLt⟩ (Fin.lt_def.mpr high)
    obtain ⟨m, place, same⟩ := List.getElem_of_mem (mem_listed.mpr stored)
    rcases Nat.lt_trichotomy m n with less | here | more
    · have early := ih m less place
      rw [same] at early
      simp only at early
      omega
    · subst here
      rw [same] at high
      simp at high
    · have less := Fin.lt_def.mp (listed_lt more place)
      rw [same] at less
      simp only at less
      omega

theorem stored_iff_lt (whole : FromMonday has) (i : Fin 7) :
    has i = true ↔ i.val < (listed has).length := by
  constructor
  · intro stored
    obtain ⟨n, bound, same⟩ := List.getElem_of_mem (mem_listed.mpr stored)
    have here := listed_at whole n bound
    rw [same] at here
    omega
  · intro bound
    have here : (listed has)[i.val] = i := Fin.ext (listed_at whole i.val bound)
    have member := List.getElem_mem bound
    rw [here] at member
    exact mem_listed.mp member

theorem fromMonday_of_places
    (places : ∀ i, has i = true → ∃ bound : i.val < (listed has).length, (listed has)[i.val] = i) :
    FromMonday has := by
  intro i stored j less
  obtain ⟨bound, -⟩ := places i stored
  have room : j.val < (listed has).length := by
    have := Fin.lt_def.mp less
    omega
  have member := mem_listed.mp (List.getElem_mem room)
  obtain ⟨bound', same⟩ := places _ member
  have index := (listed_nodup has).getElem_inj_iff.mp same
  have here : (listed has)[j.val] = j := Fin.ext index
  rw [here] at member
  exact member

end Listed

section Delivered
variable {lang : Language} {node : Json} {has : Fin 7 → Bool} {stored : Fin 7 → Times}
    {order : List String}

theorem keys_of_holds (holds : HoldsDays lang node has stored) (key : String) :
    key ∈ node.keys ↔ key ∈ (listed has).map (days lang) := by
  constructor
  · intro member
    obtain ⟨i, there, same⟩ := holds.only key member
    exact List.mem_map.mpr ⟨i, mem_listed.mpr there, same.symm⟩
  · intro member
    obtain ⟨i, there, same⟩ := List.mem_map.mp member
    exact same ▸ Node.mem_keys.mpr (decoded_ne_null (holds.record i (mem_listed.mp there)))

theorem notifications_nothing (lang : Language) (node : Json) :
    ∀ scheduleList ∈ notifications lang node [], scheduleList = [] := by
  intro scheduleList member
  unfold notifications at member
  split at member
  · simpa [decodeAll, sortByDay] using member
  · simp at member

theorem notifyAll_empty {lists : List (List ScheduleModel)} (empty : ∀ l ∈ lists, l = [])
    (rows : Fin 7 → Times) : notifyAll rows lists = rows := by
  induction lists with
  | nil => rfl
  | cons l rest ih =>
    rw [empty l (by simp)]
    exact ih fun m member => empty m (by simp [member])

/-- The snapshot decodes to the records of its days, unless it has none. -/
theorem decoded_of_holds (holds : HoldsDays lang node has stored) (perm : order.Perm node.keys) :
    ∃ schedule, order.length = (listed has).length ∧
      decodeAll (order.map node.child) = .ok schedule ∧
      schedule.Perm (records lang stored (listed has)) := by
  apply decoded_records (listed_nodup has) _ (keys_of_holds holds) perm
  exact fun i member => holds.record i (mem_listed.mp member)

theorem map_or_nothing (holds : HoldsDays lang node has stored) (perm : order.Perm node.keys) :
    asMap node = .ok node ∨ order = [] := by
  cases keys : node.keys with
  | nil =>
    right
    rw [keys] at perm
    exact List.Perm.eq_nil perm
  | cons key rest =>
    left
    have there : node.child key ≠ Node.null := Node.mem_keys.mp (by simp [keys])
    obtain ⟨i, -, rfl⟩ := holds.only key (by simp [keys])
    exact asMap_of_day there

/-- The row at a position of the list shows the day listed there, the rest stay. -/
theorem delivered_row (holds : HoldsDays lang node has stored) (perm : order.Perm node.keys)
    (rows : Fin 7 → Times) (i : Fin 7) : delivered lang node order rows i =
      match (listed has)[i.val]? with
      | some j => stored j
      | none => rows i := by
  obtain ⟨schedule, length, decoded, list⟩ := decoded_of_holds holds perm
  have count : schedule.length = (listed has).length := by
    rw [list.length_eq, records, List.length_map]
  rcases map_or_nothing holds perm with map | nothing
  · rw [delivered_decoded map decoded, if_pos (length ▸ listed_length has),
      sortByDay_records (listed_increasing has) list]
    cases place : (listed has)[i.val]? with
    | some j => simp [shownRows, records, place]
    | none =>
      have beyond : (listed has).length ≤ i.val := List.getElem?_eq_none_iff.mp place
      have past : schedule[i.val]? = none := List.getElem?_eq_none_iff.mpr (count ▸ beyond)
      simp [shownRows, records, place, past]
  · subst nothing
    have none_listed : listed has = [] := List.length_eq_zero_iff.mp length.symm
    rw [delivered, notifyAll_empty (notifications_nothing lang node), none_listed]
    rfl

theorem lists_in_range (holds : HoldsDays lang node has stored) (perm : order.Perm node.keys) :
    ∀ scheduleList ∈ notifications lang node order, scheduleList.length ≤ 7 := by
  obtain ⟨schedule, length, decoded, list⟩ := decoded_of_holds holds perm
  have short : schedule.length ≤ 7 := by
    rw [list.length_eq, records, List.length_map]
    exact listed_length has
  intro scheduleList member
  rcases map_or_nothing holds perm with map | nothing
  · rw [notifications_of_map map, decoded] at member
    simp only [List.mem_cons, List.not_mem_nil, or_false] at member
    rcases member with cleared | filled | sorted
    · simp [cleared]
    · rw [filled]
      exact short
    · simpa [sorted, sortByDay] using short
  · subst nothing
    simp [notifications_nothing lang node scheduleList member]

end Delivered

section Subsets
variable {lang : Language} {has : Fin 7 → Bool} {order : List String}

theorem showsOwn_of_fromMonday (whole : FromMonday has) {node : Json} {stored : Fin 7 → Times}
    (holds : HoldsDays lang node has stored) (perm : order.Perm node.keys)
    (rows : Fin 7 → Times) : ShowsOwn lang node order has stored rows := by
  constructor
  · intro i there
    have bound := (stored_iff_lt whole i).mp there
    have here : (listed has)[i.val] = i := Fin.ext (listed_at whole i.val bound)
    rw [delivered_row holds perm, List.getElem?_eq_getElem bound, here]
  · intro i missing
    have beyond : (listed has).length ≤ i.val := by
      by_contra bound
      have there := (stored_iff_lt whole i).mpr (by omega)
      simp [missing] at there
    rw [delivered_row holds perm, List.getElem?_eq_none_iff.mpr beyond]
  · exact lists_in_range holds perm

theorem exists_holds (lang : Language) (has : Fin 7 → Bool) (stored : Fin 7 → Times) :
    ∃ node, HoldsDays lang node has stored := by
  refine ⟨writeRows lang stored Node.null (listed has), ?_, ?_⟩
  · intro i there
    exact child_writeRows_written (mem_listed.mpr there) Node.null
  · intro key member
    by_contra foreign
    have other : ∀ i ∈ listed has, key ≠ days lang i := by
      intro i there same
      exact foreign ⟨i, mem_listed.mp there, same⟩
    have gone : (writeRows lang stored Node.null (listed has)).child key = Node.null :=
      child_writeRows_other other Node.null
    exact Node.mem_keys.mp member gone

def telling (i : Fin 7) : Times := ⟨days .en i, "-", "-", "-"⟩

def unset : Times := ⟨"", "", "", ""⟩

theorem fromMonday_of_shows {node : Json} (holds : HoldsDays lang node has telling)
    (perm : order.Perm node.keys)
    (shows : ShowsOwn lang node order has telling fun _ => unset) : FromMonday has := by
  have named : ∀ i j, telling i = telling j → i = j := by
    intro i j same
    exact days_injective .en i j (congrArg Times.firstOpeningTime same)
  apply fromMonday_of_places
  intro i there
  have own := shows.own i there
  rw [delivered_row holds perm] at own
  cases place : (listed has)[i.val]? with
  | some j =>
    rw [place] at own
    obtain ⟨bound, same⟩ := List.getElem?_eq_some_iff.mp place
    exact ⟨bound, same.trans (named j i own)⟩
  | none =>
    rw [place] at own
    have blank := congrArg Times.firstOpeningTime own
    have written : ∀ k : Fin 7, "" ≠ days .en k := by decide
    exact absurd blank (written i)

/-- For any set of weekdays and any map order: every row shows its own weekday, whatever times
    are stored and were shown before, exactly when the set starts with Monday and has no gap. -/
theorem rows_show_own_day_iff (lang : Language) (has : Fin 7 → Bool) {order : List String}
    (days_in_order : order.Perm ((listed has).map (days lang))) :
    (∀ node stored rows, HoldsDays lang node has stored →
      ShowsOwn lang node order has stored rows) ↔ FromMonday has := by
  have any_node : ∀ node stored, HoldsDays lang node has stored → order.Perm node.keys := by
    intro node stored holds
    have keys := keys_perm_days (listed_nodup has) node (keys_of_holds holds)
    exact days_in_order.trans keys.symm
  constructor
  · intro shows
    obtain ⟨node, holds⟩ := exists_holds lang has telling
    exact fromMonday_of_shows holds (any_node node telling holds)
      (shows node telling (fun _ => unset) holds)
  · intro whole node stored rows holds
    exact showsOwn_of_fromMonday whole holds (any_node node stored holds) rows

theorem rows_show_own_monday :
    (∀ node stored rows, HoldsDays .en node (fun i => i = 0) stored →
      ShowsOwn .en node ["Monday"] (fun i => i = 0) stored rows) ↔ FromMonday fun i => i = 0 :=
  rows_show_own_day_iff .en (fun i => i = 0) (by decide)

/-- Only Tuesday is left of a schedule. -/
def tuesdayOnly : Json := .branch [("Tuesday", .branch [("day", Json.str "Tuesday"),
  ("firstOpeningTime", Json.str "08:00"), ("firstClosingTime", Json.str "20:00"),
  ("secondOpeningTime", Json.str "-"), ("secondClosingTime", Json.str "-")])]

def tuesdayTimes : Times := ⟨"08:00", "20:00", "-", "-"⟩

theorem tuesday_shown_as_monday :
    HoldsDays .en tuesdayOnly (fun i => i = 1) (fun _ => tuesdayTimes) ∧
    ["Tuesday"].Perm tuesdayOnly.keys ∧
    delivered .en tuesdayOnly ["Tuesday"] (fun _ => unset) 0 = tuesdayTimes ∧
    delivered .en tuesdayOnly ["Tuesday"] (fun _ => unset) 1 = unset ∧
    ¬ ShowsOwn .en tuesdayOnly ["Tuesday"] (fun i => i = 1) (fun _ => tuesdayTimes)
      fun _ => unset := by
  refine ⟨⟨?_, ?_⟩, by decide, by decide, by decide, ?_⟩
  · intro i there
    have tuesday : i = 1 := by simpa using there
    subst tuesday
    rfl
  · intro key member
    have tuesday : tuesdayOnly.keys = ["Tuesday"] := by decide
    rw [tuesday, List.mem_singleton] at member
    exact ⟨1, rfl, member⟩
  · intro shows
    have own := shows.own 1 (by decide)
    exact absurd own (by decide)

end Subsets
end ScheduleRows
