import Mathlib.Algebra.Ring.Parity
import Mathlib.Data.Finset.Card
import ShutterEase.Deletion

/-!
Toggles of one device, interleaved. Each is a read and a later write of what it read, negated, so
it builds on the toggle whose write it has read and undoes whatever was written in between. The
order in which reads and writes are answered tells how many toggles build on each other, and only
these have counted.
-/
namespace Toggles
open KeyedTree Resumption Interleaving Runs Firebase DeviceController Operations Ownership Deletion

/-- `deviceData['shutterIconStatus'] ?? false`. -/
def iconStatus (d : String) (db : Json) : Bool :=
  match asBool? ((deviceNode db d).child "shutterIconStatus") with
  | .ok stored => stored.getD false
  | .error _ => false

/-- The call writes or deletes the flag. -/
def Touches (d : String) : DbCall → Prop
  | .get _ => False
  | .set path _ | .remove path => path = ["ShutterDevices", d]
  | .update path fields =>
    path = ["ShutterDevices", d] ∧ "shutterIconStatus" ∈ fields.map Prod.fst

/-- The device is there; the clients numbered `toggles` are toggles of it, and their calls do
    not fail; no other client touches the flag. -/
structure Undisturbed (d : DeviceId) (toggles : Finset Nat) (s : System)
    (m : Move Operation String) : Prop where
  there : ∃ deviceData, asMap (deviceNode s.store d.1) = .ok deviceData
  tapped : ∀ op, m = .start op → s.clients.length ∈ toggles → op = .toggleDeviceStatus d
  only : ∀ i c k, m = .answer i → s.Awaits i c k → Touches d.1 c → i ∈ toggles
  succeeds : ∀ i ∈ toggles, ∀ e, m ≠ .fail i e

/-- How many toggles build on each other up to what the flag holds now, and up to what each
    toggle has read. -/
structure Chain where
  flag : Nat
  read : Nat → Option Nat

/-- The first answer to a toggle is to its read, the second to its write. -/
def Chain.next (toggles : Finset Nat) (c : Chain) : Move Operation String → Chain
  | .answer i =>
    if i ∈ toggles then
      match c.read i with
      | none => { c with read := Function.update c.read i (some c.flag) }
      | some n => { c with flag := n + 1 }
    else c
  | _ => c

def chain (toggles : Finset Nat) (moves : List (Move Operation String)) : Chain :=
  moves.foldl (Chain.next toggles) ⟨0, fun _ => none⟩

def answers (i : Nat) (moves : List (Move Operation String)) : Nat :=
  moves.countP fun m => match m with
    | .answer j => j = i
    | _ => false

/-- No toggle is answered while another has read and not yet written. -/
def NoneOverlap (toggles : Finset Nat) (moves : List (Move Operation String)) : Prop :=
  ∀ before i after, moves = before ++ .answer i :: after → i ∈ toggles →
    ∀ j ∈ toggles, j ≠ i → answers j before ≠ 1

section Clients
variable {d : DeviceId}

/-- A toggle that has read the device. -/
def writing (d : DeviceId) (v : Bool) : Act Unit :=
  Action.tryCatch (do
    update ["ShutterDevices", d.1] [("shutterIconStatus", Json.bool v)]
    perform (.showSuccessToast "Shutter icon status has been updated."))
    fun _ => perform (.showErrorSnackbar "Failed to update shutter icon status. Please try again.")

abbrev Client := Prog DbCall Json Ui String (Except String Unit)

/-- A toggle by what it has read and how often it was answered. -/
inductive Phase (d : DeviceId) (first : Bool) : Option Nat → Nat → Client → Prop where
  | reading : Phase d first none 0 (toggleDeviceStatus d.1)
  | writing (n : Nat) : Phase d first (some n) 1 (Toggles.writing d (!not^[n] first))
  | finished {n : Nat} {q : Client} (ended : awaiting q = none) : Phase d first (some n) 2 q

theorem awaiting_toggle (d : DeviceId) : ∃ k, awaiting (toggleDeviceStatus d.1) =
      some (.get ["ShutterDevices", d.1], k) ∧
    ∀ snapshot stored, (∃ deviceData, asMap snapshot = .ok deviceData) →
      asBool? (snapshot.child "shutterIconStatus") = .ok stored →
      k (.ok snapshot) = writing d (!stored.getD false) := by
  unfold toggleDeviceStatus
  simp only [ref, Registration.ref_segment d.2, Action.lift_ok_bind]
  refine ⟨_, rfl, ?_⟩
  rintro snapshot stored ⟨deviceData, map⟩ flag
  have there := isNull_of_asMap map
  rw [asMap_eq map] at map
  change (if snapshot.isNull = true then _ else (Action.lift (asMap snapshot) >>= _ : Act Unit)) = _
  rw [there, if_neg Bool.false_ne_true, map, Action.lift_ok_bind, flag]
  rfl

theorem awaiting_writing (v : Bool) : ∃ k, awaiting (writing d v) =
      some (.update ["ShutterDevices", d.1] [("shutterIconStatus", Json.bool v)], k) ∧
    ∀ reply, awaiting (k (.ok reply)) = none := ⟨_, rfl, fun _ => rfl⟩

end Clients

section Flag
variable {d : String} {c : DbCall} {db db' reply : Json}

theorem icon_served (call : DeviceCall c) (spares : ¬ Touches d c)
    (served : respond c db = .ok (db', reply)) :
    (deviceNode db' d).child "shutterIconStatus" = (deviceNode db d).child "shutterIconStatus" := by
  cases c with
  | get path =>
    simp only [respond, serve, Except.ok.injEq, Prod.mk.injEq] at served
    rw [served.1]
  | set path value =>
    obtain ⟨form, userData, now, place, -⟩ := call
    subst place
    have ne : d ≠ Registration.newDeviceId form := by
      intro same
      exact spares (same ▸ rfl)
    simp only [respond, serve, Except.ok.injEq, Prod.mk.injEq] at served
    rw [← served.1, deviceNode_set_ne ne]
  | update path fields =>
    simp only [respond, serve, Except.ok.injEq, Prod.mk.injEq] at served
    rw [← served.1]
    apply child_update (by decide)
    rcases call with ⟨k, here, -⟩ | below
    · left
      refine ⟨k, here, ?_⟩
      intro same named
      exact spares ⟨same ▸ here, named⟩
    · exact Or.inr below
  | remove path =>
    obtain ⟨k, place⟩ := call
    subst place
    have ne : d ≠ k := by
      intro same
      exact spares (same ▸ rfl)
    simp only [respond, serve, Except.ok.injEq, Prod.mk.injEq] at served
    rw [← served.1, Node.remove, deviceNode_set_ne ne]

theorem icon_written (db : Json) (d : String) (v : Bool) :
    (deviceNode (db.update ["ShutterDevices", d] [("shutterIconStatus", Json.bool v)]) d).child
      "shutterIconStatus" = Json.bool v := by
  rw [deviceNode, Node.get_update_same]
  simp

end Flag

section Orders
variable {toggles : Finset Nat} {before moves : List (Move Operation String)} {i j : Nat}
    {m : Move Operation String}

theorem chain_append : chain toggles (before ++ [m]) = (chain toggles before).next toggles m := by
  simp [chain]

theorem chain_other (other : ∀ i ∈ toggles, m ≠ .answer i) (c : Chain) : c.next toggles m = c := by
  cases m with
  | answer i =>
    have spared : i ∉ toggles := fun member => other i member rfl
    simp [Chain.next, spared]
  | start op => rfl
  | fail i e => rfl

theorem chain_read (member : i ∈ toggles) (unread : (chain toggles before).read i = none) :
    chain toggles (before ++ [.answer i]) = { chain toggles before with
      read := Function.update (chain toggles before).read i (some (chain toggles before).flag) } := by
  rw [chain_append]
  simp [Chain.next, member, unread]

theorem chain_write {n : Nat} (member : i ∈ toggles)
    (read : (chain toggles before).read i = some n) :
    chain toggles (before ++ [.answer i]) = { chain toggles before with flag := n + 1 } := by
  rw [chain_append]
  simp [Chain.next, member, read]

theorem answers_append_same : answers i (before ++ [.answer i]) = answers i before + 1 := by
  simp [answers]

theorem answers_append_ne (other : m ≠ .answer j) :
    answers j (before ++ [m]) = answers j before := by
  cases m with
  | answer i =>
    have ne : i ≠ j := fun same => other (same ▸ rfl)
    simp [answers, ne]
  | start op => simp [answers]
  | fail i e => simp [answers]

/-- Where no two toggles overlap: how often each was answered tells what it has read, and every
    toggle that has written has counted. -/
structure Serial (toggles : Finset Nat) (before : List (Move Operation String)) : Prop where
  unread : ∀ j ∈ toggles, (chain toggles before).read j = none ↔ answers j before = 0
  current : ∀ j ∈ toggles, answers j before = 1 →
    (chain toggles before).read j = some (chain toggles before).flag
  written : (chain toggles before).flag = (toggles.filter fun j => 2 ≤ answers j before).card

theorem serial_nil : Serial toggles [] :=
  ⟨fun _ _ => ⟨fun _ => rfl, fun _ => rfl⟩, by simp [answers], by simp [answers, chain]⟩

theorem serial_other (serial : Serial toggles before) (other : ∀ i ∈ toggles, m ≠ .answer i) :
    Serial toggles (before ++ [m]) := by
  have same : ∀ j ∈ toggles, answers j (before ++ [m]) = answers j before :=
    fun j member => answers_append_ne (other j member)
  refine ⟨fun j member => ?_, fun j member => ?_, ?_⟩
  · rw [chain_append, chain_other other, same j member]
    exact serial.unread j member
  · rw [chain_append, chain_other other, same j member]
    exact serial.current j member
  · rw [chain_append, chain_other other, serial.written]
    congr 1
    exact Finset.filter_congr fun j member => by rw [same j member]

theorem answers_other (ne : j ≠ i) : answers j (before ++ [.answer i]) = answers j before :=
  answers_append_ne fun same => ne (Move.answer.inj same).symm

theorem serial_read (serial : Serial toggles before) (member : i ∈ toggles)
    (apart : ∀ j ∈ toggles, j ≠ i → answers j before ≠ 1)
    (unread : (chain toggles before).read i = none) :
    Serial toggles (before ++ [.answer i]) := by
  have none_yet := (serial.unread i member).mp unread
  have next := chain_read member unread
  refine ⟨fun j there => ?_, fun j there => ?_, ?_⟩
  · by_cases same : j = i
    · subst same
      simp [next, answers_append_same]
    · rw [next, answers_other same]
      simpa [same] using serial.unread j there
  · by_cases same : j = i
    · subst same
      simp [next]
    · rw [answers_other same]
      exact fun once => absurd once (apart j there same)
  · rw [next, serial.written]
    congr 1
    refine Finset.filter_congr fun j there => ?_
    by_cases same : j = i
    · subst same
      rw [answers_append_same, none_yet]
      simp
    · rw [answers_other same]

theorem serial_write (serial : Serial toggles before) (member : i ∈ toggles)
    (apart : ∀ j ∈ toggles, j ≠ i → answers j before ≠ 1) (once : answers i before = 1) :
    Serial toggles (before ++ [.answer i]) := by
  have read := serial.current i member once
  have next := chain_write member read
  refine ⟨fun j there => ?_, fun j there => ?_, ?_⟩
  · rw [next]
    by_cases same : j = i
    · subst same
      simp [answers_append_same, read]
    · rw [answers_other same]
      exact serial.unread j there
  · by_cases same : j = i
    · subst same
      rw [answers_append_same, once]
      simp
    · rw [answers_other same]
      exact fun once => absurd once (apart j there same)
  · have fresh : i ∉ toggles.filter fun j => 2 ≤ answers j before := by
      simp [once]
    have more : (toggles.filter fun j => 2 ≤ answers j (before ++ [.answer i])) =
        insert i (toggles.filter fun j => 2 ≤ answers j before) := by
      ext j
      by_cases same : j = i
      · subst same
        simp [member, answers_append_same, once]
      · simp [same, answers_other same]
    rw [next, more, Finset.card_insert_of_notMem fresh, serial.written]

theorem serial_answer (serial : Serial toggles before) (member : i ∈ toggles)
    (apart : ∀ j ∈ toggles, j ≠ i → answers j before ≠ 1) (left : answers i before < 2) :
    Serial toggles (before ++ [.answer i]) := by
  cases read : (chain toggles before).read i with
  | none => exact serial_read serial member apart read
  | some n =>
    have answered : answers i before ≠ 0 := fun zero => by
      simp [(serial.unread i member).mpr zero] at read
    exact serial_write serial member apart (by omega)

theorem serial_before (apart : NoneOverlap toggles moves)
    (twice : ∀ i ∈ toggles, answers i moves = 2) (after : List (Move Operation String))
    (whole : moves = before ++ after) : Serial toggles before := by
  induction before using List.reverseRecOn generalizing after with
  | nil => exact serial_nil
  | append_singleton before m ih =>
    have later : moves = before ++ m :: after := by simp [whole]
    have serial := ih (m :: after) later
    by_cases other : ∀ i ∈ toggles, m ≠ .answer i
    · exact serial_other serial other
    · simp only [ne_eq, not_forall, not_not] at other
      obtain ⟨i, member, rfl⟩ := other
      refine serial_answer serial member (apart before i after later member) ?_
      have all := twice i member
      have split : answers i moves = answers i (before ++ [.answer i]) + answers i after := by
        rw [whole]
        exact List.countP_append
      rw [answers_append_same] at split
      omega

/-- Toggles that do not overlap each read what the one before them has written. -/
theorem chain_of_none_overlap (apart : NoneOverlap toggles moves)
    (twice : ∀ i ∈ toggles, answers i moves = 2) :
    (chain toggles moves).flag = toggles.card := by
  rw [(serial_before apart twice [] (by simp)).written]
  congr 1
  exact Finset.filter_true_of_mem fun i member => by rw [twice i member]

end Orders

section Steps
variable {parse : String → Option AutoPlayController.TimeOfDay} {d : DeviceId} {first : Bool}
    {toggles : Finset Nat} {s s' : System} {m : Move Operation String}
    {before : List (Move Operation String)}

def Phases (d : DeviceId) (first : Bool) (toggles : Finset Nat)
    (before : List (Move Operation String)) (clients : List Client) : Prop :=
  ∀ i ∈ toggles, ∀ q, clients[i]? = some q →
    Phase d first ((chain toggles before).read i) (answers i before) q

structure Inv (d : DeviceId) (first : Bool) (toggles : Finset Nat)
    (before : List (Move Operation String)) (s : System) : Prop where
  phases : Phases d first toggles before s.clients
  waiting : ∀ i ∈ toggles, s.clients.length ≤ i →
    (chain toggles before).read i = none ∧ answers i before = 0
  calls : ∀ q ∈ s.clients, Issues DeviceCall q
  flag : ∃ stored, asBool? ((deviceNode s.store d.1).child "shutterIconStatus") = .ok stored
  icon : iconStatus d.1 s.store = not^[(chain toggles before).flag] first

theorem appended {clients : List Client} {new q : Client} {i : Nat}
    (at_i : (clients ++ [new])[i]? = some q) :
    clients[i]? = some q ∨ i = clients.length ∧ q = new := by
  by_cases old : i < clients.length
  · rw [List.getElem?_append_left old] at at_i
    exact Or.inl at_i
  · have last : i = clients.length := by
      have in_range := (List.getElem?_eq_some_iff.mp at_i).1
      simp only [List.length_append, List.length_singleton] at in_range
      omega
    subst last
    rw [List.getElem?_concat_length, Option.some.injEq] at at_i
    exact Or.inr ⟨rfl, at_i.symm⟩

/-- A step that answers no toggle leaves the chain and the flag. -/
theorem inv_other (inv : Inv d first toggles before s) (other : ∀ i ∈ toggles, m ≠ .answer i)
    (phases : ∀ i ∈ toggles, ∀ q, s'.clients[i]? = some q →
      s.clients[i]? = some q ∨ s.clients.length ≤ i ∧ q = toggleDeviceStatus d.1)
    (more : s.clients.length ≤ s'.clients.length)
    (calls : ∀ q ∈ s'.clients, Issues DeviceCall q)
    (icon : (deviceNode s'.store d.1).child "shutterIconStatus" =
      (deviceNode s.store d.1).child "shutterIconStatus") :
    Inv d first toggles (before ++ [m]) s' := by
  have same : chain toggles (before ++ [m]) = chain toggles before := by
    rw [chain_append, chain_other other]
  have answered : ∀ j ∈ toggles, answers j (before ++ [m]) = answers j before :=
    fun j member => answers_append_ne (other j member)
  refine ⟨fun i member q at_i => ?_, fun i member beyond => ?_, calls, ?_, ?_⟩
  · rw [same, answered i member]
    rcases phases i member q at_i with old | ⟨beyond, rfl⟩
    · exact inv.phases i member q old
    · obtain ⟨unread, unanswered⟩ := inv.waiting i member beyond
      rw [unread, unanswered]
      exact Phase.reading
  · rw [same, answered i member]
    exact inv.waiting i member (Nat.le_trans more beyond)
  · rw [icon]
    exact inv.flag
  · rw [same, ← inv.icon]
    simp only [iconStatus, icon]

/-- What an answer leaves of the other toggles. -/
theorem phases_answer {i : Nat} {q : Client} {clients : List Client} (read : Option Nat)
    (phases : Phases d first toggles before clients)
    (others : ∀ j, j ≠ i → (chain toggles (before ++ [.answer i])).read j =
      (chain toggles before).read j)
    (own : (chain toggles (before ++ [.answer i])).read i = read)
    (next : Phase d first read (answers i before + 1) q) :
    Phases d first toggles (before ++ [.answer i]) (clients.set i q) := by
  intro j member q' at_j
  by_cases same : j = i
  · subst same
    obtain ⟨in_range, here⟩ := List.getElem?_eq_some_iff.mp at_j
    rw [List.getElem_set_self] at here
    rw [own, answers_append_same]
    exact here ▸ next
  · rw [List.getElem?_set_ne (Ne.symm same)] at at_j
    rw [others j same, answers_append_ne fun eq => same (Move.answer.inj eq).symm]
    exact phases j member q' at_j

theorem waiting_answer {i : Nat} {read : Nat → Option Nat} (inv : Inv d first toggles before s)
    (here : i < s.clients.length) (others : ∀ j, j ≠ i → read j = (chain toggles before).read j)
    {j : Nat} {q : Client} (member : j ∈ toggles) (beyond : (s.clients.set i q).length ≤ j) :
    read j = none ∧ answers j (before ++ [.answer i]) = 0 := by
  rw [List.length_set] at beyond
  have ne : j ≠ i := by omega
  rw [others j ne, answers_other ne]
  exact inv.waiting j member beyond

/-- A toggle is answered its read, and goes on to write. -/
theorem inv_read (inv : Inv d first toggles before s) {i : Nat} (here : i < s.clients.length)
    (member : i ∈ toggles) (unread : (chain toggles before).read i = none)
    (count : answers i before = 0)
    (calls : ∀ q ∈ s.clients.set i (writing d (!iconStatus d.1 s.store)), Issues DeviceCall q) :
    Inv d first toggles (before ++ [.answer i])
      ⟨s.store, s.clients.set i (writing d (!iconStatus d.1 s.store))⟩ := by
  have next := chain_read member unread
  refine ⟨?_, fun j there beyond => ?_, calls, inv.flag, ?_⟩
  · refine phases_answer (some (chain toggles before).flag) inv.phases (fun j ne => ?_) ?_ ?_
    · simp [next, ne]
    · simp [next]
    · rw [count, inv.icon]
      exact Phase.writing _
  · refine waiting_answer inv here (fun k ne => ?_) there beyond
    simp [next, ne]
  · rw [next]
    exact inv.icon

/-- A toggle is answered its write, and ends. -/
theorem inv_written (inv : Inv d first toggles before s) {i n : Nat} {q : Client}
    (here : i < s.clients.length) (member : i ∈ toggles)
    (read : (chain toggles before).read i = some n) (count : answers i before = 1)
    (ended : awaiting q = none) (calls : ∀ q' ∈ s.clients.set i q, Issues DeviceCall q') :
    Inv d first toggles (before ++ [.answer i])
      ⟨s.store.update ["ShutterDevices", d.1] [("shutterIconStatus", Json.bool (!not^[n] first))],
        s.clients.set i q⟩ := by
  have next := chain_write member read
  have flag := icon_written s.store d.1 (!not^[n] first)
  refine ⟨?_, fun j there beyond => ?_, calls, ⟨some (!not^[n] first), ?_⟩, ?_⟩
  · refine phases_answer (some n) inv.phases (fun j _ => ?_) ?_ ?_
    · rw [next]
    · rw [next]
      exact read
    · rw [count]
      exact Phase.finished ended
  · refine waiting_answer inv here (fun k _ => ?_) there beyond
    rw [next]
  · rw [flag]
    rfl
  · rw [next, Function.iterate_succ_apply']
    simp only [iconStatus, flag]
    rfl

theorem inv_answered (inv : Inv d first toggles before s) {i : Nat}
    (calm : Undisturbed d toggles s (.answer i))
    {c : DbCall} {k : Except String Json → Client} {db reply : Json} (waits : s.Awaits i c k)
    (served : respond c s.store = .ok (db, reply)) (member : i ∈ toggles)
    (calls : ∀ q ∈ s.clients.set i (k (.ok reply)), Issues DeviceCall q) :
    Inv d first toggles (before ++ [.answer i]) ⟨db, s.clients.set i (k (.ok reply))⟩ := by
  have here := awaits_lt waits
  obtain ⟨q, at_i, next⟩ := waits
  have phase := inv.phases i member q at_i
  generalize now : (chain toggles before).read i = read at phase
  generalize count : answers i before = n at phase
  cases phase with
  | reading =>
    obtain ⟨k', reads, goes_on⟩ := awaiting_toggle d
    rw [reads, Option.some.injEq, Prod.mk.injEq] at next
    obtain ⟨rfl, rfl⟩ := next
    simp only [respond, serve, Except.ok.injEq, Prod.mk.injEq] at served
    obtain ⟨rfl, rfl⟩ := served
    obtain ⟨stored, flag⟩ := inv.flag
    have shown : iconStatus d.1 s.store = stored.getD false := by
      simp only [iconStatus, flag]
    have written : k' (.ok (s.store.get ["ShutterDevices", d.1])) =
        writing d (!iconStatus d.1 s.store) := shown ▸ goes_on _ stored calm.there flag
    rw [written] at calls ⊢
    exact inv_read inv here member now count calls
  | writing n =>
    obtain ⟨k', writes, ends⟩ := awaiting_writing (d := d) (!not^[n] first)
    rw [writes, Option.some.injEq, Prod.mk.injEq] at next
    obtain ⟨rfl, rfl⟩ := next
    simp only [respond, serve, Except.ok.injEq, Prod.mk.injEq] at served
    obtain ⟨rfl, rfl⟩ := served
    exact inv_written inv here member now count (ends _) calls
  | finished none_left =>
    rw [none_left] at next
    simp at next

theorem inv_step (inv : Inv d first toggles before s) (calm : Undisturbed d toggles s m)
    (h : step parse s m = some s') : Inv d first toggles (before ++ [m]) s' := by
  have calls := issues_step inv.calls h
  cases step_cases h with
  | started op =>
    refine inv_other inv (by simp) (fun i member q at_i => ?_) (by simp) calls rfl
    rcases appended at_i with old | ⟨rfl, rfl⟩
    · exact Or.inl old
    · rw [calm.tapped op rfl member]
      exact Or.inr ⟨Nat.le_refl _, rfl⟩
  | @refused i c k e m waits why =>
    rcases why with failed | ⟨-, refused⟩
    · have other : ∀ j ∈ toggles, j ≠ i := by
        rintro j member rfl
        exact calm.succeeds j member e failed
      subst failed
      refine inv_other inv (by simp) (fun j member q at_j => Or.inl ?_) (by simp) calls rfl
      rwa [List.getElem?_set_ne (Ne.symm (other j member))] at at_j
    · obtain ⟨db, reply, served⟩ := respond_ok c s.store
      rw [served] at refused
      cases refused
  | @answered i c k db reply waits served =>
    by_cases member : i ∈ toggles
    · exact inv_answered inv calm waits served member calls
    · have spares : ¬ Touches d.1 c := fun touches => member (calm.only i c k rfl waits touches)
      have kept := icon_served (awaits_issues inv.calls waits).1 spares served
      have other : ∀ j ∈ toggles, j ≠ i := by
        rintro j there rfl
        exact member there
      refine inv_other inv (fun j there same => other j there (Move.answer.inj same).symm)
        (fun j there q at_j => Or.inl ?_) (by simp) calls kept
      rwa [List.getElem?_set_ne (Ne.symm (other j there))] at at_j

end Steps

section Runs
variable {parse : String → Option AutoPlayController.TimeOfDay} {d : DeviceId} {first : Bool}
    {toggles : Finset Nat} {s s' : System} {before moves : List (Move Operation String)}

theorem inv_run (inv : Inv d first toggles before s)
    (calm : Along (step parse) (Undisturbed d toggles) s moves)
    (ran : run (step parse) s moves = some s') : Inv d first toggles (before ++ moves) s' := by
  induction moves generalizing s before with
  | nil =>
    simp only [run_nil, Option.some.injEq] at ran
    rw [List.append_nil]
    exact ran ▸ inv
  | cons m ms ih =>
    obtain ⟨q, here, rest⟩ := run_cons ran
    have later := ih (inv_step inv calm.1 here) (calm.2 q here) rest
    rwa [List.append_assoc] at later

theorem iterate_not_eq (n : Nat) (b : Bool) : not^[n] b = if Even n then b else !b := by
  split
  · rename_i even
    rw [Bool.involutive_not.iterate_even even, id]
  · rename_i odd
    rw [Bool.involutive_not.iterate_odd (Nat.not_even_iff_odd.mp odd)]

theorem iterate_not_eq_iff (m n : Nat) (b : Bool) :
    not^[m] b = not^[n] b ↔ (Even n ↔ Even m) := by
  rw [iterate_not_eq, iterate_not_eq]
  by_cases even : Even m <;> by_cases even' : Even n <;> simp [even, even']

/-- Once the toggles are through, they have all counted exactly when as many of them, up to an
    even number, build on each other; so they have where no two overlap. -/
theorem toggles_count_iff_chain {db : Json}
    (typed : ∃ stored, asBool? ((deviceNode db d.1).child "shutterIconStatus") = .ok stored)
    (calm : Along (step parse) (Undisturbed d toggles) ⟨db, []⟩ moves)
    (ran : run (step parse) ⟨db, []⟩ moves = some s) (through : ∀ i ∈ toggles, s.ended i = true) :
    (iconStatus d.1 s.store = not^[toggles.card] (iconStatus d.1 db) ↔
      (Even toggles.card ↔ Even (chain toggles moves).flag)) ∧
    (NoneOverlap toggles moves → (chain toggles moves).flag = toggles.card) := by
  have start : Inv d (iconStatus d.1 db) toggles [] ⟨db, []⟩ :=
    ⟨by intro i _ q at_i; simp at at_i, fun _ _ _ => ⟨rfl, rfl⟩, by simp, typed, rfl⟩
  have inv := inv_run start calm ran
  rw [List.nil_append] at inv
  refine ⟨?_, fun apart => chain_of_none_overlap apart fun i member => ?_⟩
  · rw [inv.icon]
    exact iterate_not_eq_iff _ _ _
  · have ended := through i member
    cases at_i : s.clients[i]? with
    | none => simp [Pool.ended, at_i] at ended
    | some q =>
      have phase := inv.phases i member q at_i
      simp only [Pool.ended, at_i, Option.any_some, Option.isNone_iff_eq_none] at ended
      generalize (chain toggles moves).read i = read at phase
      generalize answers i moves = n at phase
      cases phase with
      | reading =>
        obtain ⟨k, reads, -⟩ := awaiting_toggle d
        simp [reads] at ended
      | writing n =>
        obtain ⟨k, writes, -⟩ := awaiting_writing (d := d) (!not^[n] (iconStatus d.1 db))
        simp [writes] at ended
      | finished _ => rfl

end Runs

section Taps

/-- Two taps on one card: both toggles read before the first one writes. -/
def twoTaps : List (Move Operation String) :=
  [.start (.toggleDeviceStatus salonId), .start (.toggleDeviceStatus salonId),
    .answer 0, .answer 1, .answer 0, .answer 1]

/-- All three read before one of them writes, so two of them are lost. -/
def threeTaps : List (Move Operation String) :=
  [.start (.toggleDeviceStatus salonId), .start (.toggleDeviceStatus salonId),
    .start (.toggleDeviceStatus salonId), .answer 0, .answer 1, .answer 2,
    .answer 1, .answer 0, .answer 2]

variable {toggles : Finset Nat} {s : System}

theorem undisturbed_tap (there : ∃ deviceData, asMap (deviceNode s.store salonId.1) = .ok deviceData) :
    Undisturbed salonId toggles s (.start (.toggleDeviceStatus salonId)) := by
  refine ⟨there, ?_, by simp, by simp⟩
  intro op same _
  exact (Move.start.inj same).symm

theorem undisturbed_answer {i : Nat} (member : i ∈ toggles)
    (there : ∃ deviceData, asMap (deviceNode s.store salonId.1) = .ok deviceData) :
    Undisturbed salonId toggles s (.answer i) := by
  refine ⟨there, by simp, ?_, by simp⟩
  intro j c k same _ _
  exact Move.answer.inj same ▸ member

theorem three_taps_count : ∃ s, run (step noParse) ⟨oneDevice, []⟩ threeTaps = some s ∧
    (iconStatus salonId.1 s.store =
        not^[({0, 1, 2} : Finset Nat).card] (iconStatus salonId.1 oneDevice) ↔
      (Even ({0, 1, 2} : Finset Nat).card ↔ Even (chain {0, 1, 2} threeTaps).flag)) ∧
    (NoneOverlap {0, 1, 2} threeTaps →
      (chain {0, 1, 2} threeTaps).flag = ({0, 1, 2} : Finset Nat).card) := by
  refine ⟨_, rfl, toggles_count_iff_chain ⟨some false, rfl⟩ ?_ rfl ?_⟩
  · apply along_next (undisturbed_tap ⟨_, rfl⟩) rfl
    apply along_next (undisturbed_tap ⟨_, rfl⟩) rfl
    apply along_next (undisturbed_tap ⟨_, rfl⟩) rfl
    apply along_next (undisturbed_answer (by simp) ⟨_, rfl⟩) rfl
    apply along_next (undisturbed_answer (by simp) ⟨_, rfl⟩) rfl
    apply along_next (undisturbed_answer (by simp) ⟨_, rfl⟩) rfl
    apply along_next (undisturbed_answer (by simp) ⟨_, rfl⟩) rfl
    apply along_next (undisturbed_answer (by simp) ⟨_, rfl⟩) rfl
    apply along_next (undisturbed_answer (by simp) ⟨_, rfl⟩) rfl
    trivial
  · simp
    exact ⟨rfl, rfl, rfl⟩

theorem second_tap_lost : ∃ s,
    Along (step noParse) (Undisturbed salonId {0, 1}) ⟨oneDevice, []⟩ twoTaps ∧
    run (step noParse) ⟨oneDevice, []⟩ twoTaps = some s ∧
    (∀ i ∈ ({0, 1} : Finset Nat), s.ended i = true) ∧
    iconStatus salonId.1 s.store ≠
      not^[({0, 1} : Finset Nat).card] (iconStatus salonId.1 oneDevice) := by
  refine ⟨_, ?_, rfl, ?_, ?_⟩
  · apply along_next (undisturbed_tap ⟨_, rfl⟩) rfl
    apply along_next (undisturbed_tap ⟨_, rfl⟩) rfl
    apply along_next (undisturbed_answer (by simp) ⟨_, rfl⟩) rfl
    apply along_next (undisturbed_answer (by simp) ⟨_, rfl⟩) rfl
    apply along_next (undisturbed_answer (by simp) ⟨_, rfl⟩) rfl
    apply along_next (undisturbed_answer (by simp) ⟨_, rfl⟩) rfl
    trivial
  · simp
    exact ⟨rfl, rfl⟩
  · decide

end Taps
end Toggles
