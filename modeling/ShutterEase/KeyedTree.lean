import Mathlib.Data.List.Dedup

/-!
Keyed trees read and written by path. An absent place is the empty branch, writing the
empty branch removes, and a value written below a leaf replaces the leaf. Children are
observed through `child` and `keys` only, so a shadowed or empty entry is never seen.
-/
namespace KeyedTree
variable {κ ν : Type}

inductive Node (κ ν : Type) where
  | leaf (value : ν)
  | branch (children : List (κ × Node κ ν))

/-- Two paths that part at some segment. -/
def Apart (p q : List κ) : Prop :=
  ∃ r j k p' q', j ≠ k ∧ p = r ++ j :: p' ∧ q = r ++ k :: q'

theorem apart_here {j k : κ} (ne : j ≠ k) (p q : List κ) : Apart (j :: p) (k :: q) :=
  ⟨[], j, k, p, q, ne, rfl, rfl⟩

theorem apart_below {p q : List κ} (k : κ) (h : Apart p q) : Apart (k :: p) (k :: q) := by
  obtain ⟨r, i, j, p', q', ne, hp, hq⟩ := h
  exact ⟨k :: r, i, j, p', q', ne, by simp [hp], by simp [hq]⟩

theorem apart_append {p q : List κ} (h : Apart p q) (r : List κ) : Apart (p ++ r) q := by
  obtain ⟨s, i, j, p', q', ne, hp, hq⟩ := h
  exact ⟨s, i, j, p' ++ r, q', ne, by simp [hp], hq⟩

theorem apart_symm {p q : List κ} (h : Apart p q) : Apart q p := by
  obtain ⟨r, j, k, p', q', ne, hp, hq⟩ := h
  exact ⟨r, k, j, q', p', ne.symm, hq, hp⟩

/-- Where a new key goes among the stored ones. No law is needed of it. -/
class KeyOrder (κ : Type) where
  precedes : κ → κ → Bool

/-- What the order of the keys must satisfy for the children to stay in it. -/
class LawfulKeyOrder (κ : Type) [KeyOrder κ] : Prop where
  irrefl : ∀ a : κ, KeyOrder.precedes a a = false
  trans : ∀ a b c : κ, KeyOrder.precedes a b = true → KeyOrder.precedes b c = true →
    KeyOrder.precedes a c = true

namespace Node

def null : Node κ ν := .branch []

def isNull : Node κ ν → Bool
  | .branch [] => true
  | _ => false

def value? : Node κ ν → Option ν
  | .leaf v => some v
  | .branch _ => none

@[simp] theorem isNull_iff {t : Node κ ν} : t.isNull = true ↔ t = null := by
  cases t with
  | leaf v => simp [isNull, null]
  | branch cs => cases cs <;> simp [isNull, null]

@[simp] theorem leaf_ne_null (v : ν) : (Node.leaf v : Node κ ν) ≠ null := by
  simp [null]

@[simp] theorem value?_null : (null : Node κ ν).value? = none := rfl

section Children
variable [DecidableEq κ]

def childOf (k : κ) : List (κ × Node κ ν) → Node κ ν
  | [] => null
  | (j, t) :: rest => if j = k then t else childOf k rest

def child : Node κ ν → κ → Node κ ν
  | .leaf _, _ => null
  | .branch cs, k => childOf k cs

def drop (k : κ) (cs : List (κ × Node κ ν)) : List (κ × Node κ ν) :=
  cs.filter fun e => decide (e.1 ≠ k)

/-- The keys a reader enumerates, in stored order. -/
def keys : Node κ ν → List κ
  | .leaf _ => []
  | .branch cs => (cs.map Prod.fst).dedup.filter fun k => !(childOf k cs).isNull

theorem childOf_absent {k : κ} {cs : List (κ × Node κ ν)} (absent : k ∉ cs.map Prod.fst) :
    childOf k cs = null := by
  induction cs with
  | nil => rfl
  | cons e rest ih =>
    obtain ⟨j, t⟩ := e
    simp only [List.map_cons, List.mem_cons, not_or] at absent
    simp only [childOf, Ne.symm absent.1, ↓reduceIte]
    exact ih absent.2

theorem childOf_of_mem {k : κ} {t : Node κ ν} {cs : List (κ × Node κ ν)}
    (distinct : (cs.map Prod.fst).Nodup) (member : (k, t) ∈ cs) : childOf k cs = t := by
  induction cs with
  | nil => simp at member
  | cons e rest ih =>
    obtain ⟨j, u⟩ := e
    simp only [List.map_cons, List.nodup_cons] at distinct
    rcases List.mem_cons.mp member with here | later
    · simp only [Prod.mk.injEq] at here
      simp [childOf, here.1, here.2]
    · have other : j ≠ k := by
        rintro rfl
        exact distinct.1 (List.mem_map.mpr ⟨_, later, rfl⟩)
      simp only [childOf, other, ↓reduceIte]
      exact ih distinct.2 later

theorem childOf_drop_same (k : κ) (cs : List (κ × Node κ ν)) :
    childOf k (drop k cs) = null := by
  apply childOf_absent
  simp [drop]

theorem childOf_drop_ne {j k : κ} (ne : j ≠ k) (cs : List (κ × Node κ ν)) :
    childOf j (drop k cs) = childOf j cs := by
  induction cs with
  | nil => rfl
  | cons e rest ih =>
    obtain ⟨i, t⟩ := e
    by_cases same : i = k
    · subst i
      simp only [drop, ne_eq, not_true_eq_false, decide_false, Bool.false_eq_true,
        not_false_eq_true, List.filter_cons_of_neg, childOf, Ne.symm ne, ↓reduceIte]
      exact ih
    · by_cases hit : i = j
      · simp [drop, childOf, hit, ne]
      · have step : drop k ((i, t) :: rest) = (i, t) :: drop k rest := by simp [drop, same]
        simp only [step, childOf, hit, ↓reduceIte]
        exact ih

theorem mem_keys {t : Node κ ν} {k : κ} : k ∈ t.keys ↔ t.child k ≠ null := by
  cases t with
  | leaf v => simp [keys, child]
  | branch cs =>
    simp only [keys, child, List.mem_filter, List.mem_dedup, Bool.not_eq_true', ne_eq]
    constructor
    · rintro ⟨-, full⟩ empty
      simp [empty, isNull, null] at full
    · intro full
      constructor
      · by_contra absent
        exact full (childOf_absent absent)
      · cases h : (childOf k cs).isNull with
        | false => rfl
        | true => exact absurd (isNull_iff.mp h) full

theorem keys_nodup (t : Node κ ν) : t.keys.Nodup := by
  cases t with
  | leaf v => exact List.nodup_nil
  | branch cs => exact (List.nodup_dedup _).filter _

@[simp] theorem child_null (k : κ) : (null : Node κ ν).child k = null := rfl

@[simp] theorem child_leaf (v : ν) (k : κ) : (Node.leaf v : Node κ ν).child k = null := rfl

def get : Node κ ν → List κ → Node κ ν
  | t, [] => t
  | t, k :: p => (t.child k).get p

@[simp] theorem get_nil (t : Node κ ν) : t.get [] = t := by cases t <;> rfl

@[simp] theorem get_cons (t : Node κ ν) (k : κ) (p : List κ) :
    t.get (k :: p) = (t.child k).get p := by cases t <;> rfl

theorem get_append (t : Node κ ν) (p q : List κ) : t.get (p ++ q) = (t.get p).get q := by
  induction p generalizing t with
  | nil => simp
  | cons k p ih => simp [ih]

end Children

section Writes
variable [DecidableEq κ] [KeyOrder κ]

def put (k : κ) (t : Node κ ν) : List (κ × Node κ ν) → List (κ × Node κ ν)
  | [] => [(k, t)]
  | (j, u) :: rest =>
    if j = k then (k, t) :: rest
    else if KeyOrder.precedes k j then (k, t) :: (j, u) :: rest
    else (j, u) :: put k t rest

def setChild (t : Node κ ν) (k : κ) (u : Node κ ν) : Node κ ν :=
  match t with
  | .leaf v => if u.isNull then .leaf v else .branch [(k, u)]
  | .branch cs => if u.isNull then .branch (drop k cs) else .branch (put k u cs)

theorem childOf_put_same (k : κ) (t : Node κ ν) (cs : List (κ × Node κ ν)) :
    childOf k (put k t cs) = t := by
  induction cs with
  | nil => simp [put, childOf]
  | cons e rest ih =>
    obtain ⟨j, u⟩ := e
    simp only [put]
    split
    · simp [childOf]
    · rename_i ne
      split
      · simp [childOf]
      · simp only [childOf, ne, ↓reduceIte]
        exact ih

theorem childOf_put_ne {j k : κ} (ne : j ≠ k) (t : Node κ ν) (cs : List (κ × Node κ ν)) :
    childOf j (put k t cs) = childOf j cs := by
  induction cs with
  | nil => simp [put, childOf, Ne.symm ne]
  | cons e rest ih =>
    obtain ⟨i, u⟩ := e
    simp only [put]
    split
    · rename_i same
      subst i
      simp [childOf, Ne.symm ne]
    · split
      · simp [childOf, Ne.symm ne]
      · simp only [childOf]
        split
        · rfl
        · exact ih

@[simp] theorem child_setChild_same (t : Node κ ν) (k : κ) (u : Node κ ν) :
    (t.setChild k u).child k = u := by
  by_cases empty : u.isNull = true
  · have gone := isNull_iff.mp empty
    cases t with
    | leaf v => simp [setChild, gone]
    | branch cs => simp [setChild, child, childOf_drop_same, gone]
  · cases t with
    | leaf v => simp [setChild, empty, child, childOf]
    | branch cs => simp [setChild, empty, child, childOf_put_same]

theorem child_setChild_ne {j k : κ} (ne : j ≠ k) (t u : Node κ ν) :
    (t.setChild k u).child j = t.child j := by
  cases t with
  | leaf v =>
    simp only [setChild]
    split
    · rfl
    · simp [child, childOf, Ne.symm ne]
  | branch cs =>
    simp only [setChild]
    split
    · exact childOf_drop_ne ne cs
    · exact childOf_put_ne ne u cs

def set : Node κ ν → List κ → Node κ ν → Node κ ν
  | _, [], u => u
  | t, k :: p, u => t.setChild k ((t.child k).set p u)

@[simp] theorem set_nil (t u : Node κ ν) : t.set [] u = u := by cases t <;> rfl

@[simp] theorem set_cons (t : Node κ ν) (k : κ) (p : List κ) (u : Node κ ν) :
    t.set (k :: p) u = t.setChild k ((t.child k).set p u) := by cases t <;> rfl

/-- What is read at or above the written place. -/
theorem get_set_above (t : Node κ ν) (p q : List κ) (u : Node κ ν) :
    (t.set (p ++ q) u).get p = (t.get p).set q u := by
  induction p generalizing t with
  | nil => simp
  | cons k p ih => simp [ih]

@[simp] theorem get_set_same (t : Node κ ν) (p : List κ) (u : Node κ ν) :
    (t.set p u).get p = u := by
  simpa using get_set_above t p [] u

/-- A write changes nothing on a path that parts from the written one. -/
theorem get_set_apart {p q : List κ} (h : Apart p q) (t u : Node κ ν) :
    (t.set p u).get q = t.get q := by
  obtain ⟨r, j, k, p', q', ne, rfl, rfl⟩ := h
  rw [get_append, get_append, get_set_above]
  simp [child_setChild_ne (Ne.symm ne)]

/-- Children written one after the other onto a node. -/
def merge (t : Node κ ν) (fields : List (κ × Node κ ν)) : Node κ ν :=
  fields.foldl (fun t e => t.setChild e.1 e.2) t

@[simp] theorem merge_nil (t : Node κ ν) : t.merge [] = t := rfl

@[simp] theorem merge_cons (t : Node κ ν) (e : κ × Node κ ν) (fields : List (κ × Node κ ν)) :
    t.merge (e :: fields) = (t.setChild e.1 e.2).merge fields := rfl

theorem child_merge_other {k : κ} {fields : List (κ × Node κ ν)}
    (absent : k ∉ fields.map Prod.fst) (t : Node κ ν) :
    (t.merge fields).child k = t.child k := by
  induction fields generalizing t with
  | nil => rfl
  | cons e rest ih =>
    simp only [List.map_cons, List.mem_cons, not_or] at absent
    rw [merge_cons, ih absent.2, child_setChild_ne absent.1]

theorem child_merge_written {k : κ} {u : Node κ ν} {fields : List (κ × Node κ ν)}
    (distinct : (fields.map Prod.fst).Nodup) (written : (k, u) ∈ fields) (t : Node κ ν) :
    (t.merge fields).child k = u := by
  induction fields generalizing t with
  | nil => simp at written
  | cons e rest ih =>
    simp only [List.map_cons, List.nodup_cons] at distinct
    rcases List.mem_cons.mp written with first | later
    · subst e
      rw [merge_cons, child_merge_other distinct.1, child_setChild_same]
    · exact ih distinct.2 later _

/-- A child after the writes is one that was written, or is as it was. -/
theorem child_merge_cases (t : Node κ ν) (fields : List (κ × Node κ ν)) (k : κ) :
    (∃ e ∈ fields, e.1 = k ∧ (t.merge fields).child k = e.2) ∨
      k ∉ fields.map Prod.fst ∧ (t.merge fields).child k = t.child k := by
  by_cases named : k ∈ fields.map Prod.fst
  · left
    induction fields generalizing t with
    | nil => simp at named
    | cons e rest ih =>
      by_cases later : k ∈ rest.map Prod.fst
      · obtain ⟨e', member, name, value⟩ := ih (t.setChild e.1 e.2) later
        exact ⟨e', by simp [member], name, value⟩
      · have here : e.1 = k := by simpa [later, eq_comm] using named
        refine ⟨e, by simp, here, ?_⟩
        rw [merge_cons, child_merge_other later, ← here, child_setChild_same]
  · exact Or.inr ⟨named, child_merge_other named t⟩

theorem branch_setChild (cs : List (κ × Node κ ν)) (k : κ) (u : Node κ ν) :
    ∃ children, (Node.branch cs).setChild k u = .branch children := by
  simp only [setChild]
  split <;> exact ⟨_, rfl⟩

theorem branch_merge (cs fields : List (κ × Node κ ν)) :
    ∃ children, (Node.branch cs).merge fields = .branch children := by
  induction fields generalizing cs with
  | nil => exact ⟨cs, rfl⟩
  | cons e rest ih =>
    obtain ⟨children, written⟩ := branch_setChild cs e.1 e.2
    rw [merge_cons, written]
    exact ih children

/-- Multi-field update: the named children are written, the others stay. -/
def update (t : Node κ ν) (p : List κ) (fields : List (κ × Node κ ν)) : Node κ ν :=
  t.set p ((t.get p).merge fields)

@[simp] theorem get_update_same (t : Node κ ν) (p : List κ) (fields : List (κ × Node κ ν)) :
    (t.update p fields).get p = (t.get p).merge fields := by
  simp [update]

theorem get_update_apart {p q : List κ} (h : Apart p q) (t : Node κ ν)
    (fields : List (κ × Node κ ν)) : (t.update p fields).get q = t.get q :=
  get_set_apart h t _

theorem get_update_above (t : Node κ ν) (p q : List κ) (fields : List (κ × Node κ ν)) :
    (t.update (p ++ q) fields).get p = (t.get p).update q fields := by
  simp [update, get_set_above, get_append]

/-- Updates applied one after the other, each with the place it is made at. -/
def updateAll (t : Node κ ν) (updates : List (List κ × List (κ × Node κ ν))) : Node κ ν :=
  updates.foldl (fun t u => t.update u.1 u.2) t

theorem get_updateAll_apart {q : List κ} {updates : List (List κ × List (κ × Node κ ν))}
    (apart : ∀ u ∈ updates, Apart u.1 q) (t : Node κ ν) :
    (t.updateAll updates).get q = t.get q := by
  induction updates generalizing t with
  | nil => rfl
  | cons u rest ih =>
    have later := ih (fun v hv => apart v (by simp [hv])) (t.update u.1 u.2)
    exact later.trans (get_update_apart (apart u (by simp)) t u.2)

/-- Updates at places that part from each other all take effect. -/
theorem get_updateAll_member {updates : List (List κ × List (κ × Node κ ν))}
    (parted : updates.Pairwise fun u v => Apart u.1 v.1) {u : List κ × List (κ × Node κ ν)}
    (member : u ∈ updates) (t : Node κ ν) :
    (t.updateAll updates).get u.1 = (t.get u.1).merge u.2 := by
  induction updates generalizing t with
  | nil => simp at member
  | cons first rest ih =>
    obtain ⟨away, parted'⟩ := List.pairwise_cons.mp parted
    rcases List.mem_cons.mp member with here | later
    · subst u
      have kept := get_updateAll_apart (fun v hv => apart_symm (away v hv))
        (t.update first.1 first.2)
      exact kept.trans (get_update_same t first.1 first.2)
    · have written := ih parted' later (t.update first.1 first.2)
      rw [get_update_apart (away u later)] at written
      exact written

def remove (t : Node κ ν) (p : List κ) : Node κ ν := t.set p null

end Writes
section Equality
variable [DecidableEq κ] [DecidableEq ν]

mutual

/-- Equality of stored trees, entry by entry. -/
def same : Node κ ν → Node κ ν → Bool
  | .leaf v, .leaf w => decide (v = w)
  | .branch xs, .branch ys => sameEntries xs ys
  | _, _ => false

def sameEntries : List (κ × Node κ ν) → List (κ × Node κ ν) → Bool
  | [], [] => true
  | (j, x) :: xs, (k, y) :: ys => decide (j = k) && same x y && sameEntries xs ys
  | _, _ => false

end

mutual

theorem same_iff : ∀ t u : Node κ ν, same t u = true ↔ t = u
  | .leaf v, .leaf w => by simp [same]
  | .leaf v, .branch ys => by simp [same]
  | .branch xs, .leaf w => by simp [same]
  | .branch xs, .branch ys => by simp [same, sameEntries_iff xs ys]

theorem sameEntries_iff :
    ∀ xs ys : List (κ × Node κ ν), sameEntries xs ys = true ↔ xs = ys
  | [], [] => by simp [sameEntries]
  | [], y :: ys => by simp [sameEntries]
  | x :: xs, [] => by simp [sameEntries]
  | (j, x) :: xs, (k, y) :: ys => by
    simp [sameEntries, same_iff x y, sameEntries_iff xs ys, and_assoc]

end

instance : DecidableEq (Node κ ν) := fun t u => decidable_of_iff _ (same_iff t u)

end Equality

section Order
variable [KeyOrder κ]

/-- No child is followed by one whose key precedes its own. -/
def Ordered : Node κ ν → Prop
  | .leaf _ => True
  | .branch cs => (cs.map Prod.fst).Pairwise fun a b => KeyOrder.precedes b a = false

theorem ordered_null : Ordered (null : Node κ ν) := List.Pairwise.nil

variable [DecidableEq κ]

theorem ordered_keys {t : Node κ ν} (ordered : t.Ordered) :
    t.keys.Pairwise fun a b => KeyOrder.precedes b a = false := by
  cases t with
  | leaf v => exact List.Pairwise.nil
  | branch cs => exact ordered.sublist (List.filter_sublist.trans (List.dedup_sublist _))

theorem key_of_mem_put {k j : κ} {u : Node κ ν} {cs : List (κ × Node κ ν)}
    (member : j ∈ (put k u cs).map Prod.fst) : j = k ∨ j ∈ cs.map Prod.fst := by
  induction cs with
  | nil => exact Or.inl (by simpa [put] using member)
  | cons e rest ih =>
    obtain ⟨i, v⟩ := e
    simp only [put] at member
    split at member
    · rcases List.mem_cons.mp member with here | later
      · exact Or.inl here
      · exact Or.inr (List.mem_cons_of_mem _ later)
    · split at member
      · exact List.mem_cons.mp member
      · rcases List.mem_cons.mp member with here | later
        · exact Or.inr (List.mem_cons.mpr (Or.inl here))
        · exact (ih later).imp_right (List.mem_cons_of_mem _)

variable [LawfulKeyOrder κ]

theorem ordered_put (k : κ) (u : Node κ ν) {cs : List (κ × Node κ ν)}
    (ordered : (cs.map Prod.fst).Pairwise fun a b => KeyOrder.precedes b a = false) :
    ((put k u cs).map Prod.fst).Pairwise fun a b => KeyOrder.precedes b a = false := by
  induction cs with
  | nil => exact List.pairwise_singleton _ _
  | cons e rest ih =>
    obtain ⟨j, v⟩ := e
    obtain ⟨first, later⟩ := List.pairwise_cons.mp ordered
    simp only [put]
    split
    · rename_i same
      subst same
      exact ordered
    · split
      · rename_i before
        refine List.pairwise_cons.mpr ⟨?_, ordered⟩
        intro i member
        -- what precedes `k` precedes `j`, which nothing later does
        rw [Bool.eq_false_iff]
        intro precedes
        have passed := LawfulKeyOrder.trans i k j precedes before
        rcases List.mem_cons.mp member with here | member
        · subst here
          exact absurd passed (Bool.eq_false_iff.mp (LawfulKeyOrder.irrefl _))
        · exact absurd passed (Bool.eq_false_iff.mp (first i member))
      · rename_i ne after
        refine List.pairwise_cons.mpr ⟨?_, ih later⟩
        intro i member
        rcases key_of_mem_put member with rfl | member
        · exact Bool.eq_false_iff.mpr after
        · exact first i member

theorem ordered_setChild {t : Node κ ν} (ordered : t.Ordered) (k : κ) (u : Node κ ν) :
    (t.setChild k u).Ordered := by
  cases t with
  | leaf v =>
    simp only [setChild]
    split
    · trivial
    · exact List.pairwise_singleton _ _
  | branch cs =>
    simp only [setChild]
    split
    · exact ordered.sublist (List.filter_sublist.map Prod.fst)
    · exact ordered_put k u ordered

end Order

end Node

/-- The requests a client sends to a served tree. -/
inductive Call (κ ν : Type) where
  | get (path : List κ)
  | set (path : List κ) (value : Node κ ν)
  | update (path : List κ) (fields : List (κ × Node κ ν))
  | remove (path : List κ)

section Serving
variable [DecidableEq κ] [KeyOrder κ]

/-- The tree after the request, and the snapshot the client is sent. -/
def serve {ε : Type} : Call κ ν → Node κ ν → Except ε (Node κ ν × Node κ ν)
  | .get p, t => .ok (t, t.get p)
  | .set p u, t => .ok (t.set p u, .null)
  | .update p fields, t => .ok (t.update p fields, .null)
  | .remove p, t => .ok (t.remove p, .null)

end Serving
end KeyedTree
