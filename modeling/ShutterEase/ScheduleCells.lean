import ShutterEase.DeviceSchema
import ShutterEase.ScheduleRows

/-!
The schedule form from its opening on: its tables are built, snapshots arrive, cells are edited
and saves run, in any order and with saves overlapping. Besides what the source keeps, the
state records which cells were edited and where a row's texts come from.
-/
namespace ScheduleCells
open KeyedTree Firebase ShutterModels ScheduleController ScheduleWeek ScheduleForm ScheduleRows Runs

inductive Cell where
  | firstOpening
  | firstClosing
  | secondOpening
  | secondClosing
  deriving DecidableEq, Repr

def Cell.text : Cell → Times → String
  | .firstOpening => Times.firstOpeningTime
  | .firstClosing => Times.firstClosingTime
  | .secondOpening => Times.secondOpeningTime
  | .secondClosing => Times.secondClosingTime

def Cell.setText (text : String) (row : Times) : Cell → Times
  | .firstOpening => { row with firstOpeningTime := text }
  | .firstClosing => { row with firstClosingTime := text }
  | .secondOpening => { row with secondOpeningTime := text }
  | .secondClosing => { row with secondClosingTime := text }

/-- Where the cell's time is stored in its weekday's record. -/
def Cell.field : Cell → String
  | .firstOpening => "firstOpeningTime"
  | .firstClosing => "firstClosingTime"
  | .secondOpening => "secondOpeningTime"
  | .secondClosing => "secondClosingTime"

/-- What building a table leaves in a cell. -/
def orDash (text : String) : String := if text = "" then "-" else text

/-- One row of both tables; a build of the form builds the two of them. -/
def buildScheduleTable (row : Times) : Times :=
  { firstOpeningTime := orDash row.firstOpeningTime
    firstClosingTime := orDash row.firstClosingTime
    secondOpeningTime := orDash row.secondOpeningTime
    secondClosingTime := orDash row.secondClosingTime }

/-- A save waits to read a row, or for the answer to the update of one. `known` records which of
    the weekday's cells were stored when the row was read. -/
inductive Phase where
  | row (i : Fin 7)
  | sent (i : Fin 7) (text : Times) (known : Cell → Bool)
  | saved
  | failed

/-- A save with the node as it was at the tap. -/
structure Save where
  before : Json
  phase : Phase

structure Form where
  node : Json
  /-- the states of the node since the form was opened -/
  published : List Json
  rows : Fin 7 → Times
  saves : List Save
  /-- the cells that the user has edited -/
  edited : Fin 7 → Cell → Bool
  /-- the key of the record that has last filled the row -/
  filled : Fin 7 → Option String
  /-- the tables were built after that -/
  built : Fin 7 → Bool

inductive Event where
  | build
  | deliver (n : Nat) (order : List String)
  | edit (i : Fin 7) (cell : Cell) (text : String)
  | tap
  | send (n : Nat)
  | apply (n : Nat)
  | refuse (n : Nat)

/-- The form when it has been opened. -/
def opened (node : Json) : Form :=
  { node
    published := [node]
    rows := fun _ => ⟨"", "", "", ""⟩
    saves := []
    edited := fun _ _ => false
    filled := fun _ => none
    built := fun _ => false }

/-- The save reads row `n` next, or has saved all rows. -/
def phaseAt (n : Nat) : Phase := if h : n < 7 then .row ⟨n, h⟩ else .saved

/-- What is stored in a cell, also where the rest of the weekday's record is missing. -/
def cellOf (lang : Language) (node : Json) (i : Fin 7) (c : Cell) : Json :=
  (node.child (days lang i)).child c.field

/-- The entries that the listener copies last, with their keys. -/
def shown (lang : Language) (node : Json) (order : List String) : List (String × ScheduleModel) :=
  match asMap node with
  | .error _ => []
  | .ok scheduleData =>
    match decodeAll (order.map scheduleData.child) with
    | .error _ => []
    | .ok schedule =>
      let entries := order.zip schedule
      if order.length ≤ 7 then
        entries.insertionSort fun a b => indexOf lang a.2.day ≤ indexOf lang b.2.day
      else entries

/-- Each of the controller's subscriptions lags behind on its own, so any state since the
    opening can be delivered. Tapping into a cell that shows a dash clears it, which is an edit
    like any other. -/
def step (lang : Language) (s : Form) : Event → Option Form
  | .build => some
    { s with
      rows := fun i => buildScheduleTable (s.rows i)
      built := fun _ => true }
  | .deliver n order =>
    match s.published[n]? with
    | none => none
    | some snapshot =>
      if order.Perm snapshot.keys then
        some
          { s with
            rows := delivered lang snapshot order s.rows
            filled := fun i => match (shown lang snapshot order)[i.val]? with
              | some (key, _) => some key
              | none => s.filled i
            built := fun i => match (shown lang snapshot order)[i.val]? with
              | some _ => false
              | none => s.built i }
      else none
  | .edit i cell text => some
    { s with
      rows := Function.update s.rows i (cell.setText text (s.rows i))
      edited := fun j c => if j = i ∧ c = cell then true else s.edited j c }
  | .tap => some { s with saves := s.saves ++ [⟨s.node, phaseAt 0⟩] }
  | .send n =>
    match s.saves[n]? with
    | some ⟨before, .row i⟩ =>
      let known := fun c => !(cellOf lang s.node i c).isNull
      some { s with saves := s.saves.set n ⟨before, .sent i (s.rows i) known⟩ }
    | _ => none
  | .apply n =>
    match s.saves[n]? with
    | some ⟨before, .sent i text _⟩ =>
      let node := s.node.update [days lang i] (newSchedule (days lang i) text).toJson
      some
        { s with
          node
          published := s.published ++ [node]
          saves := s.saves.set n ⟨before, phaseAt (i.val + 1)⟩ }
    | _ => none
  | .refuse n =>
    match s.saves[n]? with
    | some ⟨before, .sent _ _ _⟩ => some { s with saves := s.saves.set n ⟨before, .failed⟩ }
    | _ => none

/-- The unedited cells that are stored in one node are stored alike in another. -/
def SameUnedited (lang : Language) (edited : Fin 7 → Cell → Bool) (old new : Json) : Prop :=
  ∀ i c, edited i c = false → cellOf lang old i c ≠ Node.null →
    cellOf lang new i c = cellOf lang old i c

/-- Every save that has ended well has kept the unedited cells as they were at its tap. -/
def Kept (lang : Language) (s : Form) : Prop :=
  ∀ save ∈ s.saves, save.phase = .saved → SameUnedited lang s.edited save.before s.node

/-- A cell of weekday `i` still shows the value that is stored for it: its own record has filled
    it and no later build has put a dash into it, or it was never filled and an untouched cell
    looks just like that value. -/
def Faithful (lang : Language) (filled : Option String) (built : Bool) (i : Fin 7)
    (value : Json) : Prop :=
  match filled with
  | some key => key = days lang i ∧ (built = true → value ≠ Json.str "")
  | none => value = Json.str (if built then "-" else "")

/-- A save that reads a row finds its stored unedited cells faithful; and none of the cells that
    were not stored then is stored by the time of the update. -/
def ReadsFaithful (lang : Language) (s : Form) : Event → Prop
  | .send n => ∀ before i, s.saves[n]? = some ⟨before, .row i⟩ → ∀ c : Cell,
      s.edited i c = false → cellOf lang s.node i c ≠ Node.null →
        Faithful lang (s.filled i) (s.built i) i (cellOf lang s.node i c)
  | .apply n => ∀ before i text known, s.saves[n]? = some ⟨before, .sent i text known⟩ →
      ∀ c : Cell, s.edited i c = false → known c = false → cellOf lang s.node i c = Node.null
  | _ => True

section Cells
variable {row : Times} {c : Cell}

theorem orDash_orDash (text : String) : orDash (orDash text) = orDash text := by
  by_cases empty : text = ""
  · rw [empty]
    decide
  · simp [orDash, empty]

theorem text_setText_ne {cell : Cell} (ne : c ≠ cell) (text : String) (row : Times) :
    c.text (cell.setText text row) = c.text row := by
  cases cell <;> cases c <;> first | exact absurd rfl ne | rfl

theorem text_buildScheduleTable (c : Cell) (row : Times) :
    c.text (buildScheduleTable row) = orDash (c.text row) := by
  cases c <;> rfl

end Cells

section Records
variable {lang : Language} {node : Json} {order : List String}

/-- What is shown comes from the records under its keys. -/
theorem shown_stored {key : String} {record : ScheduleModel}
    (member : (key, record) ∈ shown lang node order) :
    ScheduleModel.fromJson (node.child key) = .ok record := by
  unfold shown at member
  split at member
  · cases member
  rename_i scheduleData map
  cases asMap_eq map
  split at member
  · cases member
  · rename_i schedule decoded
    have entry : (key, record) ∈ order.zip schedule := by
      simp only at member
      split at member
      · exact (List.mem_insertionSort _).mp member
      · exact member
    obtain ⟨n, bound, here⟩ := List.getElem_of_mem entry
    rw [List.getElem_zip, Prod.mk.injEq] at here
    obtain ⟨at_key, at_record⟩ := here
    have length := List.length_zip ▸ bound
    have in_order : n < order.length := by omega
    have in_schedule : n < schedule.length := by omega
    have from_key : (order.map node.child)[n]? = some (node.child key) := by
      rw [List.getElem?_map, List.getElem?_eq_getElem in_order, at_key]
      rfl
    obtain ⟨stored, same, decodes⟩ := decodeAll_getElem decoded from_key
    rw [List.getElem?_eq_getElem in_schedule, at_record, Option.some.injEq] at same
    exact same ▸ decodes

theorem shownRows_again {l m : List ScheduleModel} (length : l.length = m.length)
    (rows : Fin 7 → Times) : shownRows (shownRows rows l) m = shownRows rows m := by
  funext i
  cases place : m[i.val]? with
  | some record => simp [shownRows, place]
  | none =>
    have past : l[i.val]? = none := by
      rw [List.getElem?_eq_none_iff] at place ⊢
      omega
    simp [shownRows, place, past]

theorem delivered_shown (lang : Language) (node : Json) (order : List String)
    (rows : Fin 7 → Times) : delivered lang node order rows =
      shownRows rows ((shown lang node order).map Prod.snd) := by
  cases map : asMap node with
  | error msg => simp [delivered, notifications, map, notifyAll, shown]
  | ok scheduleData =>
    cases asMap_eq map
    cases decoded : decodeAll (order.map node.child) with
    | error msg =>
      simp [delivered, notifications_of_map map, map, decoded, notifyAll, copyRows, shown]
    | ok schedule =>
      have length : schedule.length = order.length := by simpa using decodeAll_length decoded
      have values : (order.zip schedule).map Prod.snd = schedule :=
        List.map_snd_zip (by omega)
      rw [delivered_decoded map decoded]
      by_cases short : order.length ≤ 7
      · have sorted : (shown lang node order).map Prod.snd = sortByDay lang schedule := by
          simp only [shown, map, decoded, short, ↓reduceIte]
          have by_day : ((order.zip schedule).insertionSort fun a b =>
              indexOf lang a.2.day ≤ indexOf lang b.2.day).map Prod.snd =
              sortByDay lang ((order.zip schedule).map Prod.snd) :=
            List.map_insertionSort _ _ Prod.snd _ fun _ _ _ _ => Iff.rfl
          rw [by_day, values]
        rw [if_pos short, sorted]
        exact shownRows_again (by simp [sortByDay]) rows
      · simp only [shown, map, decoded, short, ↓reduceIte, values]

theorem text_of_asString {json : Json} {text : String} (read : asString json = .ok text) :
    json = Json.str text := by
  unfold asString at read
  split at read
  · exact congrArg Json.str (Except.ok.inj read)
  · cases read

theorem cellOf_decoded {i : Fin 7} {record : ScheduleModel}
    (decodes : ScheduleModel.fromJson (node.child (days lang i)) = .ok record) (c : Cell) :
    cellOf lang node i c = Json.str (c.text (times record)) := by
  simp only [ScheduleModel.fromJson, DeviceSchema.bind_ok_iff, DeviceSchema.pure_ok_iff] at decodes
  obtain ⟨day, -, one, first, two, second, three, third, four, fourth, rfl⟩ := decodes
  cases c with
  | firstOpening => exact text_of_asString first
  | firstClosing => exact text_of_asString second
  | secondOpening => exact text_of_asString third
  | secondClosing => exact text_of_asString fourth

theorem cellOf_write_same (lang : Language) (node : Json) (i : Fin 7) (text : Times) (c : Cell) :
    cellOf lang (node.update [days lang i] (newSchedule (days lang i) text).toJson) i c =
      Json.str (c.text text) :=
  cellOf_decoded (child_writeRow_same lang (fun _ => text) node i) c

theorem cellOf_write_ne {i j : Fin 7} (ne : j ≠ i) (lang : Language) (node : Json)
    (text : Times) (c : Cell) :
    cellOf lang (node.update [days lang i] (newSchedule (days lang i) text).toJson) j c =
      cellOf lang node j c := by
  have other : days lang j ≠ days lang i := fun same => ne (days_injective lang j i same)
  exact congrArg (fun day : Json => day.child c.field)
    (child_writeRow_ne other (fun _ => text) node)

end Records

section Unedited
variable {lang : Language} {edited edited' : Fin 7 → Cell → Bool} {old mid new : Json}

theorem sameUnedited_refl : SameUnedited lang edited old old := fun _ _ _ _ => rfl

theorem sameUnedited_trans (first : SameUnedited lang edited old mid)
    (second : SameUnedited lang edited mid new) : SameUnedited lang edited old new := by
  intro i c untouched stored
  have same := first i c untouched stored
  exact (second i c untouched (same ▸ stored)).trans same

/-- Further edits leave fewer cells to compare. -/
theorem sameUnedited_mono (more : ∀ i c, edited' i c = false → edited i c = false)
    (same : SameUnedited lang edited old new) : SameUnedited lang edited' old new :=
  fun i c untouched => same i c (more i c untouched)

end Unedited

/-- What an unedited cell shows, by where its row's texts come from. -/
def Shows (lang : Language) (s : Form) (i : Fin 7) (c : Cell) : Prop :=
  match s.filled i with
  | none => c.text (s.rows i) = if s.built i then "-" else ""
  | some key => key = days lang i → ∃ time, cellOf lang s.node i c = Json.str time ∧
      c.text (s.rows i) = if s.built i then orDash time else time

/-- A row that was read and not yet written holds what is stored in the unedited cells that were
    stored when it was read. -/
def Sent (lang : Language) (s : Form) (phase : Phase) : Prop :=
  ∀ i text known, phase = .sent i text known → ∀ c : Cell, s.edited i c = false →
    known c = true → cellOf lang s.node i c = Json.str (c.text text)

structure Inv (lang : Language) (s : Form) : Prop where
  shows : ∀ i c, s.edited i c = false → Shows lang s i c
  past : ∀ old ∈ s.published, SameUnedited lang s.edited old s.node
  sent : ∀ save ∈ s.saves, Sent lang s save.phase
  kept : ∀ save ∈ s.saves, SameUnedited lang s.edited save.before s.node

section Steps
variable {lang : Language} {s s' : Form}

theorem inv_build (inv : Inv lang s) : Inv lang
    { s with
      rows := fun i => buildScheduleTable (s.rows i)
      built := fun _ => true } := by
  refine ⟨?_, inv.past, inv.sent, inv.kept⟩
  intro i c untouched
  have before := inv.shows i c untouched
  unfold Shows at before ⊢
  simp only [text_buildScheduleTable, ↓reduceIte]
  cases source : s.filled i with
  | none =>
    simp only [source] at before ⊢
    rw [before]
    cases s.built i <;> decide
  | some key =>
    simp only [source] at before ⊢
    intro own
    obtain ⟨time, stored, text⟩ := before own
    refine ⟨time, stored, ?_⟩
    rw [text]
    cases s.built i with
    | true => exact orDash_orDash _
    | false => rfl

/-- An old snapshot fills the unedited cells with what is still stored. -/
theorem inv_deliver (inv : Inv lang s) {snapshot : Json} {order : List String}
    (earlier : snapshot ∈ s.published) : Inv lang
    { s with
      rows := delivered lang snapshot order s.rows
      filled := fun i => match (shown lang snapshot order)[i.val]? with
        | some (key, _) => some key
        | none => s.filled i
      built := fun i => match (shown lang snapshot order)[i.val]? with
        | some _ => false
        | none => s.built i } := by
  refine ⟨?_, inv.past, inv.sent, inv.kept⟩
  intro i c untouched
  have before := inv.shows i c untouched
  cases place : (shown lang snapshot order)[i.val]? with
  | none =>
    unfold Shows at before ⊢
    simp only [delivered_shown, shownRows, List.getElem?_map, place, Option.map_none]
    exact before
  | some entry =>
    obtain ⟨key, record⟩ := entry
    unfold Shows
    simp only [delivered_shown, shownRows, List.getElem?_map, place, Option.map_some]
    intro own
    have decoded := shown_stored (List.mem_of_getElem? place)
    rw [own] at decoded
    have stored := cellOf_decoded decoded c
    have there : cellOf lang snapshot i c ≠ Node.null := by
      rw [stored]
      exact Node.leaf_ne_null _
    exact ⟨_, (inv.past snapshot earlier i c untouched there).trans stored, rfl⟩

theorem inv_edit (inv : Inv lang s) (i : Fin 7) (cell : Cell) (text : String) : Inv lang
    { s with
      rows := Function.update s.rows i (cell.setText text (s.rows i))
      edited := fun j c => if j = i ∧ c = cell then true else s.edited j c } := by
  have more : ∀ j c, (if j = i ∧ c = cell then true else s.edited j c) = false →
      s.edited j c = false := by
    intro j c untouched
    by_cases here : j = i ∧ c = cell
    · simp [here] at untouched
    · simpa [here] using untouched
  constructor
  · intro j c untouched
    have before := inv.shows j c (more j c untouched)
    have kept : c.text (Function.update s.rows i (cell.setText text (s.rows i)) j) =
        c.text (s.rows j) := by
      by_cases row : j = i
      · subst row
        have ne : c ≠ cell := by
          intro same
          simp [same] at untouched
        rw [Function.update_self, text_setText_ne ne]
      · rw [Function.update_of_ne row]
    unfold Shows at before ⊢
    simp only [kept]
    exact before
  · intro old earlier
    exact sameUnedited_mono more (inv.past old earlier)
  · intro save member j row known waiting c untouched
    exact inv.sent save member j row known waiting c (more j c untouched)
  · intro save member
    exact sameUnedited_mono more (inv.kept save member)

/-- Saves change while the form stays: the new one is as sound as the old ones. -/
theorem inv_saves (inv : Inv lang s) {saves : List Save}
    (old_or_new : ∀ save ∈ saves, save ∈ s.saves ∨
      SameUnedited lang s.edited save.before s.node ∧ Sent lang s save.phase) :
    Inv lang { s with saves } := by
  refine ⟨inv.shows, inv.past, ?_, ?_⟩
  · intro save member
    rcases old_or_new save member with old | ⟨-, new⟩
    · exact inv.sent save old
    · exact new
  · intro save member
    rcases old_or_new save member with old | ⟨new, -⟩
    · exact inv.kept save old
    · exact new

/-- A save goes on to its next phase without a write. -/
theorem inv_phase (inv : Inv lang s) {n : Nat} {before : Json} {phase phase' : Phase}
    (at_n : s.saves[n]? = some ⟨before, phase⟩) (sent : Sent lang s phase') :
    Inv lang { s with saves := s.saves.set n ⟨before, phase'⟩ } := by
  have own := inv.kept _ (List.mem_of_getElem? at_n)
  apply inv_saves inv
  intro save member
  rcases List.mem_or_eq_of_mem_set member with old | rfl
  · exact Or.inl old
  · exact Or.inr ⟨own, sent⟩

/-- A faithful cell shows the stored value. -/
theorem text_of_faithful {i : Fin 7} {c : Cell} (shows : Shows lang s i c)
    (faithful : Faithful lang (s.filled i) (s.built i) i (cellOf lang s.node i c)) :
    cellOf lang s.node i c = Json.str (c.text (s.rows i)) := by
  unfold Shows at shows
  unfold Faithful at faithful
  cases source : s.filled i with
  | none =>
    simp only [source] at shows faithful
    rw [shows, faithful]
  | some key =>
    simp only [source] at shows faithful
    obtain ⟨own, written⟩ := faithful
    obtain ⟨time, stored, text⟩ := shows own
    rw [text, stored]
    cases later : s.built i with
    | true =>
      have nonempty : time ≠ "" := fun empty => written later (empty ▸ stored)
      simp [orDash, nonempty]
    | false => rfl

/-- The node changes in edited cells and by newly stored ones only. -/
theorem inv_node (inv : Inv lang s) {node : Json} {saves : List Save}
    (same : SameUnedited lang s.edited s.node node)
    (known : ∀ save ∈ saves, ∃ old ∈ s.saves, save.before = old.before ∧
      ∀ i text known, save.phase = .sent i text known → save.phase = old.phase) :
    Inv lang { s with node, published := s.published ++ [node], saves } := by
  have stays : ∀ {i c time}, s.edited i c = false → cellOf lang s.node i c = Json.str time →
      cellOf lang node i c = Json.str time := by
    intro i c time untouched stored
    have there : cellOf lang s.node i c ≠ Node.null := by
      rw [stored]
      exact Node.leaf_ne_null _
    exact (same i c untouched there).trans stored
  constructor
  · intro i c untouched
    have before := inv.shows i c untouched
    unfold Shows at before ⊢
    cases source : s.filled i with
    | none =>
      simp only [source] at before ⊢
      exact before
    | some key =>
      simp only [source] at before ⊢
      intro own
      obtain ⟨time, stored, text⟩ := before own
      exact ⟨time, stays untouched stored, text⟩
  · intro old earlier
    rcases List.mem_append.mp earlier with past | now
    · exact sameUnedited_trans (inv.past old past) same
    · rw [List.mem_singleton.mp now]
      exact sameUnedited_refl
  · intro save member i text cells waiting c untouched stored
    obtain ⟨old, old_member, -, phase⟩ := known save member
    have waiting' := (phase i text cells waiting).symm.trans waiting
    exact stays untouched (inv.sent old old_member i text cells waiting' c untouched stored)
  · intro save member
    obtain ⟨old, old_member, before, -⟩ := known save member
    rw [before]
    exact sameUnedited_trans (inv.kept old old_member) same

theorem phaseAt_not_sent (n : Nat) (j : Fin 7) (text : Times) (known : Cell → Bool) :
    phaseAt n ≠ .sent j text known := by
  unfold phaseAt
  split <;> simp

/-- The update of a row that was read faithfully keeps the unedited cells. -/
theorem sameUnedited_apply (inv : Inv lang s) {n : Nat}
    (careful : ReadsFaithful lang s (.apply n)) {before : Json} {i : Fin 7} {text : Times}
    {known : Cell → Bool} (at_n : s.saves[n]? = some ⟨before, .sent i text known⟩) :
    SameUnedited lang s.edited s.node
      (s.node.update [days lang i] (newSchedule (days lang i) text).toJson) := by
  intro j c untouched stored
  by_cases here : j = i
  · subst here
    rw [cellOf_write_same]
    cases read : known c with
    | false => exact absurd (careful before j text known at_n c untouched read) stored
    | true =>
      have sent := inv.sent _ (List.mem_of_getElem? at_n) j text known rfl c untouched read
      exact sent.symm
  · exact cellOf_write_ne here lang s.node text c

theorem inv_step (inv : Inv lang s) {e : Event} (careful : ReadsFaithful lang s e)
    (h : step lang s e = some s') : Inv lang s' := by
  cases e with
  | build =>
    simp only [step, Option.some.injEq] at h
    subst h
    exact inv_build inv
  | deliver n order =>
    simp only [step] at h
    split at h
    · cases h
    · rename_i snapshot at_n
      split at h
      · rename_i perm
        rw [Option.some.injEq] at h
        subst h
        exact inv_deliver inv (List.mem_of_getElem? at_n)
      · cases h
  | edit i cell text =>
    simp only [step, Option.some.injEq] at h
    subst h
    exact inv_edit inv i cell text
  | tap =>
    simp only [step, Option.some.injEq] at h
    subst h
    apply inv_saves inv
    intro save member
    rcases List.mem_append.mp member with old | new
    · exact Or.inl old
    · right
      rw [List.mem_singleton.mp new]
      refine ⟨sameUnedited_refl, ?_⟩
      intro i text known waiting
      exact absurd waiting (phaseAt_not_sent 0 i text known)
  | send n =>
    simp only [step] at h
    split at h
    · rename_i before i at_n
      rw [Option.some.injEq] at h
      subst h
      apply inv_phase inv at_n
      intro j text known waiting c untouched stored
      obtain ⟨rfl, rfl, rfl⟩ := Phase.sent.inj waiting
      have there : cellOf lang s.node i c ≠ Node.null := by
        simpa [← Node.isNull_iff] using stored
      exact text_of_faithful (inv.shows i c untouched) (careful before i at_n c untouched there)
    · cases h
  | apply n =>
    simp only [step] at h
    split at h
    · rename_i before i text known at_n
      rw [Option.some.injEq] at h
      subst h
      apply inv_node inv (sameUnedited_apply inv careful at_n)
      intro save member
      rcases List.mem_or_eq_of_mem_set member with old | new
      · exact ⟨save, old, rfl, fun _ _ _ _ => rfl⟩
      · subst new
        refine ⟨_, List.mem_of_getElem? at_n, rfl, ?_⟩
        intro j row cells waiting
        exact absurd waiting (phaseAt_not_sent _ j row cells)
    · cases h
  | refuse n =>
    simp only [step] at h
    split at h
    · rename_i before i text known at_n
      rw [Option.some.injEq] at h
      subst h
      exact inv_phase inv at_n fun i text known waiting => by cases waiting
    · cases h

end Steps

section OneSave
variable {lang : Language}

def SamePhase : ScheduleForm.Phase → Phase → Prop
  | .row i, .row j => i = j
  | .sent i text, .sent j text' _ => i = j ∧ text = text'
  | .saved, .saved | .failed, .failed => True
  | _, _ => False

/-- The form with one save in it, while nobody edits it and its tables are not built. -/
structure Matches (a : Saving) (s : Form) : Prop where
  node : s.node = a.node
  rows : s.rows = a.rows
  current : ∃ n : Nat, s.published[n]? = some s.node
  save : ∃ before phase, s.saves = [⟨before, phase⟩] ∧ SamePhase a.phase phase

theorem samePhase_next (i : Fin 7) : SamePhase (nextPhase i) (phaseAt (i.val + 1)) := by
  unfold nextPhase phaseAt
  split
  · exact rfl
  · trivial

theorem matches_step {a a' : Saving} {s : Form} {e : ScheduleForm.Event} (m : Matches a s)
    (h : ScheduleForm.step lang a e = some a') :
    ∃ e' s', step lang s e' = some s' ∧ Matches a' s' := by
  obtain ⟨before, phase, saves, same⟩ := m.save
  cases e with
  | send =>
    simp only [ScheduleForm.step] at h
    split at h
    · rename_i i reads
      rw [Option.some.injEq] at h
      subst h
      rw [reads] at same
      cases phase with
      | row j =>
        cases (same : i = j)
        refine ⟨.send 0, ?_⟩
        simp only [step, saves, List.getElem?_cons_zero, List.set_cons_zero, Option.some.injEq]
        refine ⟨_, rfl, m.node, m.rows, m.current, before, _, rfl, rfl, ?_⟩
        exact (congrFun m.rows i).symm
      | _ => exact absurd same id
    · cases h
  | apply =>
    simp only [ScheduleForm.step] at h
    split at h
    · rename_i i text waits
      rw [Option.some.injEq] at h
      subst h
      rw [waits] at same
      cases phase with
      | sent j text' known =>
        obtain ⟨here, sent⟩ := same
        subst here sent
        refine ⟨.apply 0, ?_⟩
        simp only [step, saves, List.getElem?_cons_zero, List.set_cons_zero, Option.some.injEq]
        refine ⟨_, rfl, ?_, m.rows, ?_, before, _, rfl, samePhase_next i⟩
        · simp only [m.node]
        · exact ⟨s.published.length, List.getElem?_concat_length⟩
      | _ => exact absurd same id
    · cases h
  | refuse =>
    simp only [ScheduleForm.step] at h
    split at h
    · rename_i i text waits
      rw [Option.some.injEq] at h
      subst h
      rw [waits] at same
      cases phase with
      | sent j text' known =>
        refine ⟨.refuse 0, ?_⟩
        simp only [step, saves, List.getElem?_cons_zero, List.set_cons_zero, Option.some.injEq]
        exact ⟨_, rfl, m.node, m.rows, m.current, before, _, rfl, trivial⟩
      | _ => exact absurd same id
    · cases h
  | deliver order =>
    simp only [ScheduleForm.step] at h
    split at h
    · rename_i listens
      rw [Option.some.injEq] at h
      subst h
      obtain ⟨n, at_n⟩ := m.current
      have perm : order.Perm s.node.keys := m.node ▸ listens.2
      refine ⟨.deliver n order, ?_⟩
      simp only [step, at_n, perm, ↓reduceIte, Option.some.injEq]
      refine ⟨_, rfl, m.node, ?_, ⟨n, at_n⟩, before, phase, saves, same⟩
      simp only [m.node, m.rows]
    · cases h

/-- Every run of the machine of one save is a run of the form with that save. -/
theorem one_save_in_form {a : Saving} {s : Form} (fresh : s.saves = [])
    (current : ∃ n : Nat, s.published[n]? = some s.node) {events : List ScheduleForm.Event}
    (ran : run (ScheduleForm.step lang) (tapped s.node s.rows) events = some a) :
    ∃ events' s', run (step lang) s events' = some s' ∧ Matches a s' := by
  let pressed : Form := { s with saves := [⟨s.node, phaseAt 0⟩] }
  have tap : step lang s .tap = some pressed := by simp [step, fresh, pressed]
  have first : Matches (tapped s.node s.rows) pressed :=
    ⟨rfl, rfl, current, s.node, phaseAt 0, rfl, rfl⟩
  obtain ⟨events', s', ran', last⟩ :=
    run_simulates Matches (fun _ _ _ _ m h => matches_step m h) first ran
  exact ⟨.tap :: events', s', (run_next tap events').trans ran', last⟩

end OneSave

section Runs
variable {lang : Language}

theorem inv_opened (node : Json) : Inv lang (opened node) := by
  constructor
  · intro i c _
    cases c <;> rfl
  · intro old earlier
    rw [List.mem_singleton.mp earlier]
    exact sameUnedited_refl
  · intro save member
    cases member
  · intro save member
    cases member

/-- A row of which nothing is stored can be written whatever it shows. -/
theorem along_new_row {s q : Form} {n : Nat} {before : Json} {i : Fin 7} {events : List Event}
    (at_n : s.saves[n]? = some ⟨before, .row i⟩) (gone : ∀ c, cellOf lang s.node i c = Node.null)
    (wrote : run (step lang) s [.send n, .apply n] = some q)
    (rest : Along (step lang) (ReadsFaithful lang) q events) :
    Along (step lang) (ReadsFaithful lang) s (.send n :: .apply n :: events) := by
  obtain ⟨mid, sent, later⟩ := run_cons wrote
  obtain ⟨last, applied, done⟩ := run_cons later
  rw [run_nil, Option.some.injEq] at done
  subst done
  apply along_next _ sent
  · apply along_next _ applied rest
    intro before' j text known at_j c _ _
    simp only [step, at_n, Option.some.injEq] at sent
    subst sent
    have bound := (List.getElem?_eq_some_iff.mp at_n).1
    simp only [List.getElem?_set_self bound, Option.some.injEq, Save.mk.injEq,
      Phase.sent.injEq] at at_j
    rw [← at_j.2.1]
    exact gone c
  · intro before' j at_j c _ stored
    rw [at_n, Option.some.injEq, Save.mk.injEq, Phase.row.injEq] at at_j
    exact absurd (at_j.2 ▸ gone c) stored

/-- In any run of the form in which saves read faithful rows, every save that ends well has
    kept the cells that were never edited. -/
theorem unedited_cells_kept (lang : Language) (node : Json) {events : List Event}
    (careful : Along (step lang) (ReadsFaithful lang) (opened node) events) :
    Throughout (step lang) (Kept lang) (opened node) events := by
  apply throughout_invariant (Inv lang) _ _ (inv_opened node) careful
  · intro s e s' inv now h
    exact inv_step inv now h
  · intro s inv save member _
    exact inv.kept save member

end Runs

section Monday

def mondayNode : Json := .branch [("Monday", .branch [("day", Json.str "Monday"),
  ("firstOpeningTime", Json.str "08:00"), ("firstClosingTime", Json.str "20:00"),
  ("secondOpeningTime", Json.str "-"), ("secondClosingTime", Json.str "-")])]

/-- The seven rows of the first save. -/
def writeAll : List Event := (List.replicate 7 [.send 0, .apply 0]).flatten

/-- Monday's second opening is the one edit. -/
def savedInTime : List Event :=
  .build :: .deliver 0 ["Monday"] :: .edit ⟨0, by decide⟩ .secondOpening "17:00" :: .tap ::
    writeAll

theorem monday_kept :
    (∃ s, run (step .en) (opened mondayNode) savedInTime = some s ∧
      ∃ save ∈ s.saves, save.phase = .saved) ∧
    Throughout (step .en) (Kept .en) (opened mondayNode) savedInTime := by
  refine ⟨⟨_, rfl, _, List.Mem.head _, rfl⟩, ?_⟩
  apply unedited_cells_kept
  apply along_next trivial rfl
  apply along_next trivial rfl
  apply along_next trivial rfl
  apply along_next trivial rfl
  have nothing : ∀ {node : Json} {i : Fin 7}, node.child (days .en i) = Node.null →
      ∀ c, cellOf .en node i c = Node.null := by
    intro node i gone c
    rw [cellOf, gone]
    rfl
  apply along_next _ rfl
  · apply along_next _ rfl
    · -- from Tuesday on nothing is stored yet
      apply along_new_row rfl (nothing rfl) rfl
      apply along_new_row rfl (nothing rfl) rfl
      apply along_new_row rfl (nothing rfl) rfl
      apply along_new_row rfl (nothing rfl) rfl
      apply along_new_row rfl (nothing rfl) rfl
      apply along_new_row rfl (nothing rfl) rfl
      trivial
    · intro before i text known at_n c untouched unknown
      cases at_n
      cases c <;> cases unknown
  · intro before i at_n c untouched stored
    cases at_n
    exact ⟨rfl, fun later => by cases later⟩

/-- Save is tapped before the first snapshot arrives. -/
def savedTooEarly : List Event := .build :: .tap :: writeAll

theorem early_save_blanks_monday : ∃ s, run (step .en) (opened mondayNode) savedTooEarly = some s ∧
    (∀ i c, s.edited i c = false) ∧ ¬ Kept .en s := by
  refine ⟨_, rfl, fun _ _ => rfl, ?_⟩
  intro kept
  have same : Json.str "-" = Json.str "08:00" :=
    kept ⟨mondayNode, .saved⟩ (List.Mem.head _) rfl 0 .firstOpening rfl (Node.leaf_ne_null _)
  simp [Json.str] at same

end Monday
end ScheduleCells
