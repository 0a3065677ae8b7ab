import Mathlib.Data.List.Perm.Subperm
import ShutterEase.ScheduleController

/- A `Schedule` node that holds a week: which keys it has, how saves change it, and what the
   callback makes of it in any map order. -/
namespace ScheduleWeek
open KeyedTree Firebase ShutterModels ScheduleController

/-- The records of a week in one language, Monday first. -/
def week (lang : Language) (rows : Fin 7 → Times) : List ScheduleModel :=
  (List.finRange 7).map fun i => newSchedule (days lang i) (rows i)

def records (lang : Language) (rows : Fin 7 → Times) (l : List (Fin 7)) : List ScheduleModel :=
  l.map fun i => newSchedule (days lang i) (rows i)

theorem records_sorted (lang : Language) (rows : Fin 7 → Times) {l : List (Fin 7)}
    (increasing : l.Pairwise (· < ·)) :
    (records lang rows l).Pairwise fun a b => indexOf lang a.day ≤ indexOf lang b.day := by
  rw [records, List.pairwise_map]
  apply increasing.imp
  intro i j less
  simp only [newSchedule, indexOf_days]
  have := Fin.lt_def.mp less
  omega

/-- Whatever order records arrive in, the sort puts their days in order. -/
theorem sortByDay_records {lang : Language} {rows : Fin 7 → Times} {l : List (Fin 7)}
    (increasing : l.Pairwise (· < ·)) {schedule : List ScheduleModel}
    (same : schedule.Perm (records lang rows l)) :
    sortByDay lang schedule = records lang rows l := by
  have perm : (sortByDay lang schedule).Perm (records lang rows l) :=
    (List.perm_insertionSort _ _).trans same
  have total : Std.Total fun a b : ScheduleModel =>
      indexOf lang a.day ≤ indexOf lang b.day := ⟨fun a b => Int.le_total _ _⟩
  have trans : IsTrans ScheduleModel fun a b =>
      indexOf lang a.day ≤ indexOf lang b.day := ⟨fun a b c => Int.le_trans⟩
  apply List.Perm.eq_of_pairwise _ (List.pairwise_insertionSort _ _)
    (records_sorted lang rows increasing) perm
  intro a b ha hb le ge
  obtain ⟨i, -, rfl⟩ := List.mem_map.mp (perm.mem_iff.mp ha)
  obtain ⟨j, -, rfl⟩ := List.mem_map.mp hb
  simp only [newSchedule, indexOf_days] at le ge
  have eq : i = j := Fin.ext (by omega)
  rw [eq]

theorem sortByDay_week {lang : Language} {rows : Fin 7 → Times} {schedule : List ScheduleModel}
    (same : schedule.Perm (week lang rows)) : sortByDay lang schedule = week lang rows :=
  sortByDay_records (List.pairwise_lt_finRange 7) same

/-- Records of the other language all compare equal, so the sort leaves them in map order. -/
theorem sortByDay_foreign {lang other : Language} (ne : lang ≠ other)
    {schedule : List ScheduleModel} (foreign : ∀ s ∈ schedule, ∃ i, s.day = days other i) :
    sortByDay lang schedule = schedule := by
  apply List.Pairwise.insertionSort_eq
  apply List.pairwise_of_forall_mem_list
  intro a ha b hb
  obtain ⟨i, hi⟩ := foreign a ha
  obtain ⟨j, hj⟩ := foreign b hb
  rw [hi, hj, indexOf_foreign ne, indexOf_foreign ne]

theorem decodeAll_map {α : Type} {node : α → Json} {model : α → ScheduleModel} {l : List α}
    (decodes : ∀ a ∈ l, ScheduleModel.fromJson (node a) = .ok (model a)) :
    decodeAll (l.map node) = .ok (l.map model) := by
  induction l with
  | nil => rfl
  | cons a rest ih =>
    have head := decodes a (by simp)
    have tail := ih fun b hb => decodes b (by simp [hb])
    simp [decodeAll, head, tail]

theorem day_not_index (lang : Language) : ∀ i, indexKey (days lang i) = none := by
  cases lang <;> decide

theorem asMap_of_day {lang : Language} {node : Json} {i : Fin 7}
    (there : node.child (days lang i) ≠ Node.null) : asMap node = .ok node :=
  asMap_of_child there (day_not_index lang i)

theorem notifications_of_map {lang : Language} {node : Json} {order : List String}
    (map : asMap node = .ok node) :
    notifications lang node order = match decodeAll (order.map node.child) with
      | .ok schedule => [[], schedule, sortByDay lang schedule]
      | .error _ => [[]] := by
  cases decoded : decodeAll (order.map node.child) <;> simp only [notifications, map, decoded]

theorem decodeAll_length {l : List Json} {schedule : List ScheduleModel}
    (h : decodeAll l = .ok schedule) : schedule.length = l.length := by
  induction l generalizing schedule with
  | nil =>
    simp only [decodeAll, Except.ok.injEq] at h
    simp [← h]
  | cons e rest ih =>
    simp only [decodeAll] at h
    split at h
    · rename_i s ss here later
      simp only [Except.ok.injEq] at h
      subst h
      simp [ih later]
    · simp at h
    · simp at h

theorem decodeAll_getElem {l : List Json} {schedule : List ScheduleModel} {n : Nat} {e : Json}
    (h : decodeAll l = .ok schedule) (at_n : l[n]? = some e) :
    ∃ s, schedule[n]? = some s ∧ ScheduleModel.fromJson e = .ok s := by
  induction l generalizing schedule n with
  | nil => simp at at_n
  | cons x rest ih =>
    simp only [decodeAll] at h
    split at h
    · rename_i s ss here later
      simp only [Except.ok.injEq] at h
      subst h
      cases n with
      | zero =>
        simp only [List.getElem?_cons_zero, Option.some.injEq] at at_n
        subst at_n
        exact ⟨s, rfl, here⟩
      | succ n =>
        rw [List.getElem?_cons_succ] at at_n ⊢
        exact ih later at_n
    · simp at h
    · simp at h

theorem decodeAll_error {l : List Json}
    (bad : ∃ e ∈ l, ∀ s, ScheduleModel.fromJson e ≠ .ok s) : ∃ msg, decodeAll l = .error msg := by
  induction l with
  | nil => simp at bad
  | cons e rest ih =>
    simp only [decodeAll]
    split
    · rename_i s ss here later
      obtain ⟨e', member, broken⟩ := bad
      rcases List.mem_cons.mp member with rfl | member
      · exact absurd here (broken s)
      · obtain ⟨msg, fails⟩ := ih ⟨e', member, broken⟩
        rw [fails] at later
        simp at later
    · exact ⟨_, rfl⟩
    · exact ⟨_, rfl⟩

/-- A record for each of the seven days, whatever else the node holds. -/
def HoldsWeek (lang : Language) (node : Json) (stored : Fin 7 → Times) : Prop :=
  ∀ i, ScheduleModel.fromJson (node.child (days lang i)) =
    .ok (newSchedule (days lang i) (stored i))

section Weeks
variable {lang : Language} {node : Json} {stored : Fin 7 → Times}

theorem decoded_ne_null {json : Json} {s : ScheduleModel}
    (h : ScheduleModel.fromJson json = .ok s) : json ≠ Node.null := by
  intro gone
  rw [gone] at h
  cases h

theorem HoldsWeek.there (holds : HoldsWeek lang node stored) (i : Fin 7) :
    node.child (days lang i) ≠ Node.null := decoded_ne_null (holds i)

theorem HoldsWeek.writeRows (holds : HoldsWeek lang node stored) (form : Fin 7 → Times)
    (l : List (Fin 7)) :
    HoldsWeek lang (writeRows lang form node l) fun i => if i ∈ l then form i else stored i := by
  intro i
  by_cases member : i ∈ l
  · simp only [member, ↓reduceIte]
    exact child_writeRows_written member node
  · simp only [member, ↓reduceIte]
    rw [child_writeRows_other]
    · exact holds i
    · intro j hj eq
      exact member (days_injective lang i j eq ▸ hj)

theorem HoldsWeek.keys_writeRows (holds : HoldsWeek lang node stored) (form : Fin 7 → Times)
    (l : List (Fin 7)) (key : String) :
    key ∈ (ScheduleController.writeRows lang form node l).keys ↔ key ∈ node.keys := by
  by_cases day : ∃ i, key = days lang i
  · obtain ⟨i, rfl⟩ := day
    have before := Node.mem_keys.mpr (holds.there i)
    have after := Node.mem_keys.mpr ((holds.writeRows form l).there i)
    exact ⟨fun _ => before, fun _ => after⟩
  · have other : ∀ i ∈ l, key ≠ days lang i := fun i _ eq => day ⟨i, eq⟩
    rw [Node.mem_keys, Node.mem_keys, child_writeRows_other other]

theorem keys_perm_days {l : List (Fin 7)} (distinct : l.Nodup) (node : Json)
    (exactly : ∀ key, key ∈ node.keys ↔ key ∈ l.map (days lang)) :
    node.keys.Perm (l.map (days lang)) := by
  have names : (l.map (days lang)).Nodup := distinct.map fun i j eq => days_injective lang i j eq
  rw [List.perm_ext_iff_of_nodup (Node.keys_nodup node) names]
  exact exactly

/-- A node with some days and nothing else decodes to their records, in any map order. -/
theorem decoded_records {l : List (Fin 7)} (distinct : l.Nodup)
    (holds : ∀ i ∈ l, ScheduleModel.fromJson (node.child (days lang i)) =
      .ok (newSchedule (days lang i) (stored i)))
    (exactly : ∀ key, key ∈ node.keys ↔ key ∈ l.map (days lang)) {order : List String}
    (perm : order.Perm node.keys) : ∃ schedule, order.length = l.length ∧
      decodeAll (order.map node.child) = .ok schedule ∧
      schedule.Perm (records lang stored l) := by
  have day_keys : order.Perm (l.map (days lang)) :=
    perm.trans (keys_perm_days distinct node exactly)
  have each : ∀ key, ∃ s, key ∈ order → ScheduleModel.fromJson (node.child key) = .ok s := by
    intro key
    by_cases member : key ∈ order
    · obtain ⟨i, listed, named⟩ := List.mem_map.mp (day_keys.mem_iff.mp member)
      rw [← named]
      exact ⟨_, fun _ => holds i listed⟩
    · exact ⟨newSchedule key (stored 0), fun h => absurd h member⟩
  choose model decodes using each
  have same : (l.map (days lang)).map model = records lang stored l := by
    rw [List.map_map, records]
    apply List.map_congr_left
    intro i listed
    have mine := decodes (days lang i) (day_keys.mem_iff.mpr (List.mem_map.mpr ⟨i, listed, rfl⟩))
    rw [holds i listed] at mine
    simpa using mine.symm
  have length : order.length = l.length := by simpa using day_keys.length_eq
  exact ⟨order.map model, length, decodeAll_map decodes, same ▸ day_keys.map model⟩

/-- A node with the seven days and nothing else decodes to the week, in any map order. -/
theorem HoldsWeek.decoded (holds : HoldsWeek lang node stored)
    (only : ∀ key ∈ node.keys, ∃ i, key = days lang i) {order : List String}
    (perm : order.Perm node.keys) : ∃ schedule, order.length = 7 ∧
      decodeAll (order.map node.child) = .ok schedule ∧ schedule.Perm (week lang stored) := by
  have exactly : ∀ key, key ∈ node.keys ↔ key ∈ (List.finRange 7).map (days lang) := by
    intro key
    constructor
    · intro member
      obtain ⟨i, same⟩ := only key member
      exact List.mem_map.mpr ⟨i, List.mem_finRange i, same.symm⟩
    · intro member
      obtain ⟨i, -, same⟩ := List.mem_map.mp member
      exact same ▸ Node.mem_keys.mpr (holds.there i)
  obtain ⟨schedule, length, decoded, list⟩ :=
    decoded_records (List.nodup_finRange 7) (fun i _ => holds i) exactly perm
  exact ⟨schedule, length.trans List.length_finRange, decoded, list⟩

/-- Any key can come first, second and so on in the order a map hands its entries over. -/
theorem exists_order {keys : List String} {key : String} (member : key ∈ keys) {n : Nat}
    (room : n < keys.length) : ∃ order : List String, order.Perm keys ∧ order[n]? = some key := by
  have short : (keys.erase key).length = keys.length - 1 := List.length_erase_of_mem member
  refine ⟨(keys.erase key).take n ++ key :: (keys.erase key).drop n, ?_, ?_⟩
  · have moved : ((keys.erase key).take n ++ key :: (keys.erase key).drop n).Perm
        (key :: ((keys.erase key).take n ++ (keys.erase key).drop n)) := List.perm_middle
    rw [List.take_append_drop] at moved
    exact moved.trans (List.perm_cons_erase member).symm
  · have taken : ((keys.erase key).take n).length = n := by
      simp only [List.length_take]
      omega
    rw [List.getElem?_append_right (by omega), taken]
    simp

/-- Seven days and a key that names none of them are more than seven keys. -/
theorem more_than_seven (holds : HoldsWeek lang node stored)
    (extra : ∃ key ∈ node.keys, ∀ i, key ≠ days lang i) : 7 < node.keys.length := by
  obtain ⟨key, member, foreign⟩ := extra
  have names : (key :: (List.finRange 7).map (days lang)).Nodup := by
    apply List.nodup_cons.mpr
    refine ⟨?_, (List.nodup_finRange 7).map fun i j eq => days_injective lang i j eq⟩
    intro named
    obtain ⟨i, -, eq⟩ := List.mem_map.mp named
    exact foreign i eq.symm
  have part : key :: (List.finRange 7).map (days lang) ⊆ node.keys := by
    intro k hk
    rcases List.mem_cons.mp hk with rfl | day
    · exact member
    · obtain ⟨i, -, rfl⟩ := List.mem_map.mp day
      exact Node.mem_keys.mpr (holds.there i)
  have counted := (List.subperm_of_subset names part).length_le
  simp only [List.length_cons, List.length_map, List.length_finRange] at counted
  omega

theorem holdsWeek_saved (lang : Language) (node : Json) (rows : Fin 7 → Times) :
    HoldsWeek lang (writeRows lang rows node (List.finRange 7)) rows :=
  fun i => child_writeRows_written (List.mem_finRange i) node

theorem keys_saved (lang : Language) (rows : Fin 7 → Times) :
    ∀ key ∈ (writeRows lang rows Node.null (List.finRange 7)).keys, ∃ i, key = days lang i := by
  intro key member
  by_contra foreign
  have other : ∀ i ∈ List.finRange 7, key ≠ days lang i := fun i _ eq => foreign ⟨i, eq⟩
  have gone : (writeRows lang rows Node.null (List.finRange 7)).child key = Node.null :=
    child_writeRows_other other Node.null
  exact Node.mem_keys.mp member gone

end Weeks
end ScheduleWeek
