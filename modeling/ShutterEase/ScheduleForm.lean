import Mathlib.Logic.Function.Basic
import ShutterEase.Runs
import ShutterEase.ScheduleWeek

/-!
The schedule form while its own save is running. The loop reads row `i` when it reaches it;
any snapshot of the node that arrives in between runs the listener, which copies list
positions into the rows. Typing and other writers are outside this machine.
-/
namespace ScheduleForm
open KeyedTree Firebase ShutterModels ScheduleController ScheduleWeek Runs

/-- The listener's loop over `scheduleList`. An eighth entry has no row and throws; the rows
    copied before it stay copied. -/
def copyRows (rows : Fin 7 → Times) : Nat → List ScheduleModel →
    Except (Fin 7 → Times) (Fin 7 → Times)
  | _, [] => .ok rows
  | i, scheduleItem :: rest =>
    if h : i < 7 then copyRows (Function.update rows ⟨i, h⟩ (times scheduleItem)) (i + 1) rest
    else .error rows

/-- One call of the listener for each notification, until one throws. -/
def notifyAll (rows : Fin 7 → Times) : List (List ScheduleModel) → Fin 7 → Times
  | [] => rows
  | scheduleList :: rest =>
    match copyRows rows 0 scheduleList with
    | .ok rows' => notifyAll rows' rest
    | .error rows' => rows'

/-- What one delivered snapshot makes of the rows. -/
def delivered (lang : Language) (node : Json) (order : List String) (rows : Fin 7 → Times) :
    Fin 7 → Times := notifyAll rows (notifications lang node order)

inductive Phase where
  | row (i : Fin 7)
  | sent (i : Fin 7) (text : Times)
  | saved
  | failed

structure Saving where
  node : Json
  rows : Fin 7 → Times
  phase : Phase
  applied : Bool

inductive Event where
  | send
  | apply
  | refuse
  | deliver (order : List String)

/-- The form when Save is tapped. -/
def tapped (node : Json) (form : Fin 7 → Times) : Saving := ⟨node, form, .row 0, false⟩

def nextPhase (i : Fin 7) : Phase := if h : i.val + 1 < 7 then .row ⟨i.val + 1, h⟩ else .saved

def step (lang : Language) (s : Saving) : Event → Option Saving
  | .send =>
    match s.phase with
    | .row i => some { s with phase := .sent i (s.rows i) }
    | _ => none
  | .apply =>
    match s.phase with
    | .sent i text =>
      let node := s.node.update [days lang i] (newSchedule (days lang i) text).toJson
      some { s with node, phase := nextPhase i, applied := true }
    | _ => none
  | .refuse =>
    match s.phase with
    | .sent _ _ => some { s with phase := .failed }
    | _ => none
  | .deliver order =>
    if s.applied = true ∧ order.Perm s.node.keys then
      some { s with rows := delivered lang s.node order s.rows }
    else none

/-- Whatever is delivered in between, a save that ends well has stored the texts the form
    showed at the tap. -/
def NoEditLost (lang : Language) (node : Json) (form : Fin 7 → Times) : Prop :=
  ∀ events s, run (step lang) (tapped node form) events = some s → s.phase = .saved →
    ∀ i, ScheduleModel.fromJson (s.node.child (days lang i)) =
      .ok (newSchedule (days lang i) (form i))

/-- The rows after the listener has seen a list of at most seven entries, or the first seven
    of a longer one. -/
def shownRows (rows : Fin 7 → Times) (l : List ScheduleModel) : Fin 7 → Times :=
  fun i => match l[i.val]? with
    | some s => times s
    | none => rows i

theorem copyRows_from (l : List ScheduleModel) (rows : Fin 7 → Times) (n : Nat) (h : n ≤ 7) :
    let shown : Fin 7 → Times := fun i =>
      if n ≤ i.val then match l[i.val - n]? with
        | some s => times s
        | none => rows i
      else rows i
    copyRows rows n l = if n + l.length ≤ 7 then .ok shown else .error shown := by
  induction l generalizing rows n with
  | nil => simp [copyRows, h]
  | cons s rest ih =>
    by_cases room : n < 7
    · simp only [copyRows, room, ↓reduceDIte]
      rw [ih _ (n + 1) room]
      have rows_eq : (fun i : Fin 7 =>
          if n + 1 ≤ i.val then match rest[i.val - (n + 1)]? with
            | some s => times s
            | none => Function.update rows ⟨n, room⟩ (times s) i
          else Function.update rows ⟨n, room⟩ (times s) i) =
          fun i : Fin 7 => if n ≤ i.val then match (s :: rest)[i.val - n]? with
            | some s => times s
            | none => rows i
          else rows i := by
        funext i
        by_cases here : i.val = n
        · have eq : i = ⟨n, room⟩ := Fin.ext here
          subst eq
          simp
        · have ne : i ≠ ⟨n, room⟩ := fun eq => here (by rw [eq])
          by_cases later : n + 1 ≤ i.val
          · have shift : i.val - n = (i.val - (n + 1)) + 1 := by omega
            have from_n : n ≤ i.val := by omega
            simp only [later, from_n, ↓reduceIte, shift, List.getElem?_cons_succ,
              Function.update_of_ne ne]
          · have before : ¬ n ≤ i.val := by omega
            simp only [later, before, ↓reduceIte, Function.update_of_ne ne]
      simp only [rows_eq, List.length_cons]
      have bound : n + 1 + rest.length ≤ 7 ↔ n + (rest.length + 1) ≤ 7 := by omega
      simp only [bound]
    · have full : n = 7 := by omega
      subst full
      have rows_eq : rows = fun i : Fin 7 => if 7 ≤ i.val then
          match (s :: rest)[i.val - 7]? with
            | some s => times s
            | none => rows i
          else rows i := by
        funext i
        have := i.isLt
        have low : ¬ 7 ≤ i.val := by omega
        simp only [low, ↓reduceIte]
      simp only [copyRows, lt_self_iff_false, ↓reduceDIte, List.length_cons]
      rw [← rows_eq]
      simp

theorem copyRows_eq (rows : Fin 7 → Times) (l : List ScheduleModel) :
    copyRows rows 0 l =
      if l.length ≤ 7 then .ok (shownRows rows l) else .error (shownRows rows l) := by
  have all := copyRows_from l rows 0 (by omega)
  simp only [Nat.zero_add, Nat.zero_le, ↓reduceIte, Nat.sub_zero] at all
  exact all

@[simp] theorem shownRows_nil (rows : Fin 7 → Times) : shownRows rows [] = rows := rfl

theorem shownRows_week (lang : Language) (rows shown : Fin 7 → Times) :
    shownRows rows (week lang shown) = shown := by
  funext i
  have entry : (week lang shown)[i.val]? = some (newSchedule (days lang i) (shown i)) := by
    simp [week]
  simp [shownRows, entry]

section Deliveries
variable {lang : Language} {node : Json} {order : List String} {rows : Fin 7 → Times}

/-- One record that does not decode, and the rows are left alone. -/
theorem delivered_undecodable (map : asMap node = .ok node)
    (bad : ∃ k ∈ order, ∀ s, ScheduleModel.fromJson (node.child k) ≠ .ok s) :
    delivered lang node order rows = rows := by
  obtain ⟨k, member, broken⟩ := bad
  obtain ⟨msg, fails⟩ := decodeAll_error (l := order.map node.child)
    ⟨node.child k, List.mem_map.mpr ⟨k, member, rfl⟩, broken⟩
  simp [delivered, notifications_of_map map, fails, notifyAll, copyRows]

theorem delivered_decoded {schedule : List ScheduleModel} (map : asMap node = .ok node)
    (decoded : decodeAll (order.map node.child) = .ok schedule) :
    delivered lang node order rows = if order.length ≤ 7 then
        shownRows (shownRows rows schedule) (sortByDay lang schedule)
      else shownRows rows schedule := by
  have length : schedule.length = order.length := by
    simpa using decodeAll_length decoded
  have sorted : (sortByDay lang schedule).length = order.length := by
    simp [sortByDay, length]
  simp only [delivered, notifications_of_map map, decoded, notifyAll,
    copyRows_eq, length, sorted, List.length_nil, Nat.zero_le, ↓reduceIte, shownRows_nil]
  by_cases short : order.length ≤ 7
  · simp only [short, ↓reduceIte]
  · simp only [short, ↓reduceIte]

end Deliveries

section Weeks
variable {lang : Language} {node : Json} {stored form : Fin 7 → Times}

/-- A node with the seven days and nothing else hands the listener the whole week. -/
theorem delivered_plain_week (holds : HoldsWeek lang node stored)
    (only : ∀ key ∈ node.keys, ∃ i, key = days lang i) {order : List String}
    (perm : order.Perm node.keys) (rows : Fin 7 → Times) :
    delivered lang node order rows = stored := by
  obtain ⟨schedule, seven, decoded, list⟩ := holds.decoded only perm
  rw [delivered_decoded (asMap_of_day (holds.there 0)) decoded]
  simp only [seven, Nat.le_refl, ↓reduceIte, sortByDay_week list, shownRows_week]

end Weeks

section Runs
variable {lang : Language} {node : Json} {stored form : Fin 7 → Times}

/-- No snapshot of a node some rows of which are saved, the first among them, can change a
    row of the form. -/
def Steady (lang : Language) (node : Json) (form : Fin 7 → Times) : Prop :=
  ∀ l order, 0 ∈ l → order.Perm (writeRows lang form node l).keys →
    delivered lang (writeRows lang form node l) order form = form

/-- The rows still show the form, and every row before the loop's is stored. -/
def Intact (lang : Language) (node : Json) (form : Fin 7 → Times) (s : Saving) : Prop :=
  s.rows = form ∧ ∃ l, s.node = writeRows lang form node l ∧ (s.applied = true → 0 ∈ l) ∧
    match s.phase with
    | .row i => ∀ j, j < i → j ∈ l
    | .sent i text => text = form i ∧ ∀ j, j < i → j ∈ l
    | .saved => ∀ j, j ∈ l
    | .failed => True

theorem writeRows_append (rows : Fin 7 → Times) (l : List (Fin 7)) (i : Fin 7) :
    writeRows lang rows node (l ++ [i]) = writeRow lang rows (writeRows lang rows node l) i := by
  simp [writeRows]

theorem intact_step (steady : Steady lang node form) {s s' : Saving} {e : Event}
    (intact : Intact lang node form s) (h : step lang s e = some s') :
    Intact lang node form s' := by
  obtain ⟨rows, l, at_node, first, at_phase⟩ := intact
  cases e with
  | send =>
    simp only [step] at h
    split at h
    · rename_i i phase
      simp only [Option.some.injEq] at h
      subst h
      simp only [phase] at at_phase
      exact ⟨rows, l, at_node, first, by simp only [rows], at_phase⟩
    · simp at h
  | apply =>
    simp only [step] at h
    split at h
    · rename_i i text phase
      simp only [Option.some.injEq] at h
      subst h
      simp only [phase] at at_phase
      obtain ⟨same, before⟩ := at_phase
      refine ⟨rows, l ++ [i], ?_, ?_, ?_⟩
      · rw [writeRows_append, ← at_node, same]
        rfl
      · intro _
        by_cases zero : i = 0
        · simp [zero]
        · have low : 0 < i := Fin.pos_iff_ne_zero.mpr zero
          simp [before 0 low]
      · have done : ∀ j : Fin 7, j.val < i.val + 1 → j ∈ l ++ [i] := by
          intro j bound
          by_cases here : j = i
          · simp [here]
          · have less : j < i := by
              have ne : j.val ≠ i.val := fun eq => here (Fin.ext eq)
              rw [Fin.lt_def]
              omega
            simp [before j less]
        unfold nextPhase
        split
        · rename_i next
          simp only at next
          split at next
          · simp only [Phase.row.injEq] at next
            subst next
            intro j less
            exact done j (Fin.lt_def.mp less)
          · simp at next
        · rename_i next
          split at next <;> simp at next
        · rename_i next
          split at next
          · simp at next
          · intro j
            have := j.isLt
            exact done j (by omega)
        · trivial
    · simp at h
  | refuse =>
    simp only [step] at h
    split at h
    · simp only [Option.some.injEq] at h
      subst h
      exact ⟨rows, l, at_node, first, trivial⟩
    · simp at h
  | deliver order =>
    simp only [step] at h
    split at h
    · rename_i enabled
      simp only [Option.some.injEq] at h
      subst h
      obtain ⟨applied, perm⟩ := enabled
      rw [at_node] at perm
      have kept := steady l order (first applied) perm
      refine ⟨?_, l, at_node, first, at_phase⟩
      simp only
      rw [at_node, rows]
      exact kept
    · simp at h

theorem noEditLost_of_steady (steady : Steady lang node form) : NoEditLost lang node form := by
  intro events s ran saved i
  have start : Intact lang node form (tapped node form) := by
    refine ⟨rfl, [], rfl, ?_, ?_⟩
    · intro applied
      simp [tapped] at applied
    · intro j less
      simp at less
  have along : Along (step lang) (fun _ _ => True) (tapped node form) events :=
    along_of_all (fun _ _ _ => trivial) _
  obtain ⟨-, l, at_node, -, at_phase⟩ := run_invariant (Intact lang node form)
    (fun s e s' intact _ h => intact_step steady intact h) start along ran
  simp only [saved] at at_phase
  rw [at_node]
  exact child_writeRows_written (at_phase i) node

/-- The loop with nothing delivered, from one row on. -/
def unattended : Nat → List Event
  | 0 => []
  | n + 1 => .send :: .apply :: unattended n

theorem run_row (lang : Language) (rows : Fin 7 → Times) (node : Json) (i : Fin 7) (applied : Bool) :
    run (step lang) ⟨node, rows, .row i, applied⟩ [.send, .apply] =
      some ⟨writeRow lang rows node i, rows, nextPhase i, true⟩ := rfl

theorem finRange_drop (i : Fin 7) :
    (List.finRange 7).drop i.val = i :: (List.finRange 7).drop (i.val + 1) := by
  have here : i.val < (List.finRange 7).length := by simp
  rw [List.drop_eq_getElem_cons here]
  simp

theorem run_unattended (rows : Fin 7 → Times) (n : Nat) (i : Fin 7) (left : i.val + n = 6)
    (node : Json) (applied : Bool) :
    run (step lang) ⟨node, rows, .row i, applied⟩ (unattended (n + 1)) =
      some ⟨writeRows lang rows node ((List.finRange 7).drop i.val), rows, .saved, true⟩ := by
  induction n generalizing i node applied with
  | zero =>
    have last : nextPhase i = .saved := by
      unfold nextPhase
      split
      · omega
      · rfl
    have none_left : (List.finRange 7).drop (i.val + 1) = [] := by
      apply List.drop_eq_nil_of_le
      simp only [List.length_finRange]
      omega
    rw [finRange_drop, none_left]
    have once := run_row lang rows node i applied
    rw [last] at once
    exact once
  | succ n ih =>
    have more : i.val + 1 < 7 := by omega
    have next : nextPhase i = .row ⟨i.val + 1, more⟩ := by simp [nextPhase, more]
    have once := run_row lang rows node i applied
    rw [next] at once
    have later := ih ⟨i.val + 1, more⟩ (by simp only; omega) (writeRow lang rows node i) true
    rw [show unattended (n + 1 + 1) = [.send, .apply] ++ unattended (n + 1) from rfl,
      run_append once, later, finRange_drop i]
    rfl

/-- Left alone, the machine leaves on the node what `saveSchedule` leaves there. -/
theorem undisturbed_save {deviceId : String} (segment : FirebasePath.IsSegment deviceId)
    (lang shown : Language) (form : Fin 7 → Times) (db : Json) :
    run (step lang) (tapped (db.get ["ShutterDevices", deviceId, "Schedule"]) form)
        (unattended 7) =
      some ⟨(alone (saveSchedule deviceId lang shown form) db).1.get
        ["ShutterDevices", deviceId, "Schedule"], form, .saved, true⟩ := by
  rw [(alone_saveSchedule segment lang shown form db).2.1]
  exact run_unattended form 6 0 rfl _ false

/-- A snapshot that arrives after the first row's write, and nothing after it: the later rows
    are saved as it left them. -/
theorem delivered_of_noEditLost (kept : NoEditLost lang node form) {order : List String}
    (perm : order.Perm (writeRow lang form node 0).keys) {i : Fin 7} (later : i ≠ 0) :
    delivered lang (writeRow lang form node 0) order form i = form i := by
  let rows := delivered lang (writeRow lang form node 0) order form
  have ran : run (step lang) (tapped node form) (.send :: .apply :: .deliver order :: unattended 6) =
      some ⟨writeRows lang rows (writeRow lang form node 0) ((List.finRange 7).drop 1), rows,
        .saved, true⟩ := by
    have first : run (step lang) (tapped node form) [.send, .apply] =
        some ⟨writeRow lang form node 0, form, .row 1, true⟩ := rfl
    have second : step lang ⟨writeRow lang form node 0, form, .row 1, true⟩ (.deliver order) =
        some ⟨writeRow lang form node 0, rows, .row 1, true⟩ := by
      simp only [step, perm, and_self, ↓reduceIte]
      rfl
    rw [show (.send :: .apply :: .deliver order :: unattended 6 : List Event) =
      [.send, .apply] ++ (.deliver order :: unattended 6) from rfl, run_append first,
      run_next second]
    exact run_unattended rows 5 1 rfl (writeRow lang form node 0) true
  have stored := kept _ _ ran rfl i
  have others : ∀ j : Fin 7, j ≠ 0 → j ∈ (List.finRange 7).drop 1 := by decide
  have member := others i later
  rw [child_writeRows_written member] at stored
  simp only [Except.ok.injEq] at stored
  have same := congrArg times stored
  simpa using same

/-- The listener cannot harm the save: some record stops it from filling the list, or the node
    is a plain week that differs from the form on Monday at most, or there are more records
    than rows and all but Monday's read as every row of the form does. -/
def Harmless (lang : Language) (node : Json) (form stored : Fin 7 → Times) : Prop :=
  (∃ key ∈ node.keys, ∀ s, ScheduleModel.fromJson (node.child key) ≠ .ok s) ∨
    (∀ key ∈ node.keys, ∃ i, key = days lang i) ∧ (∀ i, i ≠ 0 → form i = stored i) ∨
    (∃ key ∈ node.keys, ∀ i, key ≠ days lang i) ∧ (∀ i, form i = form 0) ∧
      ∀ key ∈ node.keys, key ≠ days lang 0 → ∀ s,
        ScheduleModel.fromJson (node.child key) = .ok s → times s = form 0

/-- The record under a key once some rows are saved: a saved row, or what was there. -/
theorem decoded_writeRows {l : List (Fin 7)} {key : String} {s : ScheduleModel}
    (h : ScheduleModel.fromJson ((writeRows lang form node l).child key) = .ok s) :
    (∃ i ∈ l, key = days lang i ∧ times s = form i) ∨
      (∀ i ∈ l, key ≠ days lang i) ∧ ScheduleModel.fromJson (node.child key) = .ok s := by
  by_cases saved : ∃ i ∈ l, key = days lang i
  · obtain ⟨i, member, rfl⟩ := saved
    rw [child_writeRows_written member] at h
    simp only [Except.ok.injEq] at h
    exact Or.inl ⟨i, member, rfl, by rw [← h]; rfl⟩
  · have other : ∀ i ∈ l, key ≠ days lang i := fun i hi eq => saved ⟨i, hi, eq⟩
    rw [child_writeRows_other other] at h
    exact Or.inr ⟨other, h⟩

theorem steady_of_undecodable (holds : HoldsWeek lang node stored)
    (bad : ∃ key ∈ node.keys, ∀ s, ScheduleModel.fromJson (node.child key) ≠ .ok s) :
    Steady lang node form := by
  intro l order _ perm
  obtain ⟨key, member, broken⟩ := bad
  have foreign : ∀ i, key ≠ days lang i := by
    intro i eq
    exact broken _ (eq ▸ holds i)
  have there := (holds.writeRows form l).there 0
  apply delivered_undecodable (asMap_of_day there)
  refine ⟨key, perm.mem_iff.mpr ((holds.keys_writeRows form l key).mpr member), ?_⟩
  rw [child_writeRows_other fun i _ => foreign i]
  exact broken

theorem steady_of_plain_week (holds : HoldsWeek lang node stored)
    (only : ∀ key ∈ node.keys, ∃ i, key = days lang i) (same : ∀ i, i ≠ 0 → form i = stored i) :
    Steady lang node form := by
  intro l order first perm
  have week_now := holds.writeRows form l
  have form_now : (fun i => if i ∈ l then form i else stored i) = form := by
    funext i
    by_cases member : i ∈ l
    · simp only [member, ↓reduceIte]
    · have ne : i ≠ 0 := fun eq => member (eq ▸ first)
      simp only [member, ↓reduceIte, same i ne]
  rw [form_now] at week_now
  refine delivered_plain_week week_now ?_ perm form
  intro key member
  exact only key ((holds.keys_writeRows form l key).mp member)

section Crowded
variable {order : List String} {model : String → ScheduleModel}

/-- With more than seven records the rows become the first seven in map order. -/
theorem delivered_crowded (holds : HoldsWeek lang node stored) (many : 7 < order.length)
    (decodes : ∀ k ∈ order, ScheduleModel.fromJson (node.child k) = .ok (model k))
    (rows : Fin 7 → Times) {i : Fin 7} {key : String} (at_i : order[i.val]? = some key) :
    delivered lang node order rows i = times (model key) := by
  have long : ¬ order.length ≤ 7 := by omega
  rw [delivered_decoded (asMap_of_day (holds.there 0)) (decodeAll_map decodes)]
  simp [long, shownRows, at_i]

end Crowded

theorem steady_of_one_text (holds : HoldsWeek lang node stored)
    (extra : ∃ key ∈ node.keys, ∀ i, key ≠ days lang i) (flat : ∀ i, form i = form 0)
    (records : ∀ key ∈ node.keys, key ≠ days lang 0 → ∀ s,
      ScheduleModel.fromJson (node.child key) = .ok s → times s = form 0) :
    Steady lang node form := by
  intro l order first perm
  have week_now := holds.writeRows form l
  have in_node : ∀ key ∈ order, key ∈ node.keys := fun key member =>
    (holds.keys_writeRows form l key).mp (perm.mem_iff.mp member)
  by_cases bad : ∃ k ∈ order, ∀ s,
      ScheduleModel.fromJson ((writeRows lang form node l).child k) ≠ .ok s
  · exact delivered_undecodable (asMap_of_day (week_now.there 0)) bad
  · have decoded : ∀ k, ∃ s, k ∈ order →
        ScheduleModel.fromJson ((writeRows lang form node l).child k) = .ok s := by
      intro k
      by_cases member : k ∈ order
      · by_contra none_fits
        refine bad ⟨k, member, ?_⟩
        intro s fits
        exact none_fits ⟨s, fun _ => fits⟩
      · exact ⟨newSchedule k (form 0), fun h => absurd h member⟩
    choose model decodes using decoded
    have one_text : ∀ k ∈ order, times (model k) = form 0 := by
      intro k member
      rcases decoded_writeRows (decodes k member) with ⟨i, -, -, text⟩ | ⟨other, before⟩
      · rw [text, flat i]
      · exact records k (in_node k member) (other 0 first) _ before
    have many : 7 < order.length := by
      obtain ⟨key, member, foreign⟩ := extra
      rw [perm.length_eq]
      exact more_than_seven week_now ⟨key, (holds.keys_writeRows form l key).mpr member, foreign⟩
    funext i
    have bound : i.val < order.length := by
      have := i.isLt
      omega
    rw [delivered_crowded week_now many decodes form (List.getElem?_eq_getElem bound),
      one_text _ (List.getElem_mem bound), flat i]

theorem plain_week_of_noEditLost (holds : HoldsWeek lang node stored)
    (only : ∀ key ∈ node.keys, ∃ i, key = days lang i) (kept : NoEditLost lang node form) :
    ∀ i, i ≠ 0 → form i = stored i := by
  intro i later
  have week_now := holds.writeRows form [0]
  have only_now : ∀ key ∈ (writeRows lang form node [0]).keys, ∃ i, key = days lang i :=
    fun key member => only key ((holds.keys_writeRows form [0] key).mp member)
  have shown := delivered_of_noEditLost kept (List.Perm.refl _) later
  have stored_now := congrFun (delivered_plain_week week_now only_now (List.Perm.refl _) form) i
  simp only [List.mem_singleton, later, ↓reduceIte] at stored_now
  exact shown.symm.trans stored_now

theorem one_text_of_noEditLost (holds : HoldsWeek lang node stored)
    (extra : ∃ key ∈ node.keys, ∀ i, key ≠ days lang i)
    (good : ∀ key ∈ node.keys, ∃ s, ScheduleModel.fromJson (node.child key) = .ok s)
    (kept : NoEditLost lang node form) :
    (∀ i, form i = form 0) ∧ ∀ key ∈ node.keys, key ≠ days lang 0 → ∀ s,
      ScheduleModel.fromJson (node.child key) = .ok s → times s = form 0 := by
  let node' := writeRows lang form node [0]
  have week_now : HoldsWeek lang node' _ := holds.writeRows form [0]
  have many : 7 < node'.keys.length := by
    obtain ⟨key, member, foreign⟩ := extra
    exact more_than_seven week_now ⟨key, (holds.keys_writeRows form [0] key).mpr member, foreign⟩
  have decoded : ∀ k, ∃ s, k ∈ node'.keys → ScheduleModel.fromJson (node'.child k) = .ok s := by
    intro k
    by_cases member : k ∈ node'.keys
    · by_cases monday : k = days lang 0
      · exact ⟨_, fun _ => monday ▸ week_now 0⟩
      · obtain ⟨s, fits⟩ := good k ((holds.keys_writeRows form [0] k).mp member)
        refine ⟨s, fun _ => ?_⟩
        have same : node'.child k = node.child k :=
          child_writeRows_other (by simpa using monday) node
        rw [same]
        exact fits
    · exact ⟨newSchedule k (form 0), fun h => absurd h member⟩
  choose model decodes using decoded
  -- every record of the node can land on every row after the first
  have lands : ∀ k ∈ node'.keys, ∀ i, i ≠ 0 → times (model k) = form i := by
    intro k member i later
    have bound : i.val < node'.keys.length := by
      have := i.isLt
      omega
    obtain ⟨order, perm, at_i⟩ := exists_order member bound
    have shown := delivered_of_noEditLost kept perm later
    have in_order : ∀ j ∈ order, ScheduleModel.fromJson (node'.child j) = .ok (model j) :=
      fun j hj => decodes j (perm.mem_iff.mp hj)
    have landed := delivered_crowded week_now (perm.length_eq ▸ many) in_order form at_i
    exact landed.symm.trans shown
  have monday_key : days lang 0 ∈ node'.keys := Node.mem_keys.mpr (week_now.there 0)
  have monday : times (model (days lang 0)) = form 0 := by
    have mine := decodes (days lang 0) monday_key
    rw [week_now 0] at mine
    simp only [List.mem_singleton, ↓reduceIte, Except.ok.injEq] at mine
    rw [← mine]
    rfl
  have flat : ∀ i, form i = form 0 := by
    intro i
    by_cases zero : i = 0
    · rw [zero]
    · rw [← lands _ monday_key i zero, monday]
  refine ⟨flat, ?_⟩
  intro key member other s fits
  have now := (holds.keys_writeRows form [0] key).mpr member
  have same : node'.child key = node.child key :=
    child_writeRows_other (by simpa using other) node
  have mine := decodes key now
  rw [same, fits] at mine
  simp only [Except.ok.injEq] at mine
  rw [mine, lands key now 1 (by decide), flat 1]

/-- On a node that holds the week, exactly the harmless contents keep every edit. -/
theorem no_edit_lost_iff_harmless (holds : HoldsWeek lang node stored) :
    NoEditLost lang node form ↔ Harmless lang node form stored := by
  constructor
  · intro kept
    by_cases bad : ∃ key ∈ node.keys, ∀ s, ScheduleModel.fromJson (node.child key) ≠ .ok s
    · exact Or.inl bad
    · by_cases only : ∀ key ∈ node.keys, ∃ i, key = days lang i
      · exact Or.inr (Or.inl ⟨only, plain_week_of_noEditLost holds only kept⟩)
      · have extra : ∃ key ∈ node.keys, ∀ i, key ≠ days lang i := by simpa using only
        have good : ∀ key ∈ node.keys, ∃ s,
            ScheduleModel.fromJson (node.child key) = .ok s := by simpa using bad
        exact Or.inr (Or.inr ⟨extra, one_text_of_noEditLost holds extra good kept⟩)
  · intro harmless
    apply noEditLost_of_steady
    rcases harmless with bad | ⟨only, same⟩ | ⟨extra, flat, records⟩
    · exact steady_of_undecodable holds bad
    · exact steady_of_plain_week holds only same
    · exact steady_of_one_text holds extra flat records

end Runs

section Lost

/-- A week saved into an empty node, every day from eight to eight. -/
def eightToEight : Fin 7 → Times := fun _ => ⟨"08:00", "20:00", "-", "-"⟩

/-- The form with Tuesday's first opening moved. -/
def earlierTuesday : Fin 7 → Times := fun i =>
  if i = 1 then ⟨"07:30", "20:00", "-", "-"⟩ else ⟨"08:00", "20:00", "-", "-"⟩

def laterMonday : Fin 7 → Times := fun i =>
  if i = 0 then ⟨"09:00", "20:00", "-", "-"⟩ else ⟨"08:00", "20:00", "-", "-"⟩

def savedWeek : Json := writeRows .en eightToEight Node.null (List.finRange 7)

theorem monday_edit_kept : NoEditLost .en savedWeek laterMonday := by
  have holds : HoldsWeek .en savedWeek eightToEight := holdsWeek_saved .en Node.null eightToEight
  refine (no_edit_lost_iff_harmless holds).mpr (Or.inr (Or.inl ⟨keys_saved .en eightToEight, ?_⟩))
  decide

theorem tuesday_edit_lost : HoldsWeek .en savedWeek eightToEight ∧
    ¬ NoEditLost .en savedWeek earlierTuesday := by
  have holds : HoldsWeek .en savedWeek eightToEight := holdsWeek_saved .en Node.null eightToEight
  refine ⟨holds, ?_⟩
  intro kept
  have same := plain_week_of_noEditLost holds (keys_saved .en eightToEight) kept 1 (by decide)
  exact absurd same (by decide)

end Lost
end ScheduleForm
