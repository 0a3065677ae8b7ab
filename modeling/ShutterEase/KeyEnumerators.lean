import ShutterEase.DictionaryRuns

/-!
The enumerators over a dictionary's keys: a position in the array, a stack of nodes of the tree.
From a start key both list the keys on from it, in the order or against it. Without one the tree's
enumerator against the order takes its first step away from every key, and lists nothing.
-/
namespace NSEnumerator
variable {σ κ : Type} {nextObject : σ → Option κ × σ} {remaining : σ → List κ}

/-- The answer to the call that follows `n` others. -/
def answer (nextObject : σ → Option κ × σ) : Nat → σ → Option κ
  | 0, state => (nextObject state).1
  | n + 1, state => answer nextObject n (nextObject state).2

/-- Each call answers the first of what remains, and the rest remains. -/
structure Enumerates (nextObject : σ → Option κ × σ) (remaining : σ → List κ) : Prop where
  head : ∀ state, (nextObject state).1 = (remaining state).head?
  tail : ∀ state, remaining (nextObject state).2 = (remaining state).tail

theorem answer_eq (enumerates : Enumerates nextObject remaining) (n : Nat) (state : σ) :
    answer nextObject n state = (remaining state)[n]? := by
  induction n generalizing state with
  | zero => rw [answer, enumerates.head, List.head?_eq_getElem?]
  | succ n ih => rw [answer, ih, enumerates.tail, List.getElem?_tail]

end NSEnumerator

namespace FArraySortedDictionaryEnumerator
open NSEnumerator
variable {κ : Type}

structure State (κ : Type) where
  keys : List κ
  pos : Int
  reverse : Bool

def nextObject (self : State κ) : Option κ × State κ :=
  if 0 ≤ self.pos ∧ self.pos < self.keys.length then
    (self.keys[self.pos.toNat]?,
      { self with pos := if self.reverse then self.pos - 1 else self.pos + 1 })
  else (none, self)

def remaining (self : State κ) : List κ :=
  if 0 ≤ self.pos ∧ self.pos < self.keys.length then
    if self.reverse then (self.keys.take (self.pos.toNat + 1)).reverse
    else self.keys.drop self.pos.toNat
  else []

theorem remaining_forward (keys : List κ) (pos : Nat) :
    remaining ⟨keys, pos, false⟩ = keys.drop pos := by
  by_cases inside : pos < keys.length
  · simp [remaining, inside]
  · simp [remaining, inside, List.drop_eq_nil_of_le (Nat.le_of_not_lt inside)]

/-- Against the order, the keys before a position remain: none before the first. -/
theorem remaining_reverse (keys : List κ) {pos : Nat} (inside : pos ≤ keys.length) :
    remaining ⟨keys, pos - 1, true⟩ = (keys.take pos).reverse := by
  cases pos with
  | zero => simp [remaining]
  | succ pos =>
    have there : (pos : Int) < keys.length := by omega
    simp [remaining, there]

theorem nextObject_inside (keys : List κ) {pos : Nat} (inside : pos < keys.length)
    (reverse : Bool) : nextObject ⟨keys, pos, reverse⟩ =
      (keys[pos]?, ⟨keys, if reverse then (pos : Int) - 1 else pos + 1, reverse⟩) := by
  have there : (pos : Int) < keys.length := by omega
  simp [nextObject, there]

theorem remaining_inside (keys : List κ) {pos : Nat} (inside : pos < keys.length) :
    remaining ⟨keys, pos, true⟩ = keys[pos] :: (keys.take pos).reverse := by
  have there : (pos : Int) < keys.length := by omega
  have whole : remaining ⟨keys, pos, true⟩ = (keys.take (pos + 1)).reverse := by
    simp [remaining, there]
  rw [whole, List.take_succ_eq_append_getElem inside, List.reverse_append]
  rfl

theorem nextObject_spec (self : State κ) : (nextObject self).1 = (remaining self).head? ∧
    remaining (nextObject self).2 = (remaining self).tail := by
  obtain ⟨keys, pos, reverse⟩ := self
  by_cases inside : 0 ≤ pos ∧ pos < keys.length
  · obtain ⟨pos, rfl⟩ := Int.eq_ofNat_of_zero_le inside.1
    have there : pos < keys.length := by omega
    rw [nextObject_inside keys there]
    cases reverse with
    | false =>
      have next := remaining_forward keys (pos + 1)
      rw [remaining_forward, List.head?_drop, List.tail_drop]
      exact ⟨rfl, next⟩
    | true =>
      have next := remaining_reverse keys (Nat.le_of_lt there)
      rw [remaining_inside keys there]
      exact ⟨List.getElem?_eq_getElem there, next⟩
  · have same : nextObject ⟨keys, pos, reverse⟩ = (none, ⟨keys, pos, reverse⟩) := if_neg inside
    have empty : remaining ⟨keys, pos, reverse⟩ = [] := if_neg inside
    rw [same, empty]
    exact ⟨rfl, rfl⟩

theorem enumerates :
    Enumerates (nextObject : State κ → Option κ × State κ) remaining where
  head self := (nextObject_spec self).1
  tail self := (nextObject_spec self).2

end FArraySortedDictionaryEnumerator

namespace FTreeSortedDictionaryEnumerator
open NSEnumerator LLRBNode Node SortedEntries
variable {κ ν : Type} (cmp : κ → κ → Ordering)

/-- A node with a key; the loops stop before they would push another. -/
def Stacked (κ ν : Type) : Type := { node : Node κ ν // node.isEmpty = false }

def Stacked.key : Stacked κ ν → κ
  | ⟨valueNode key _ _ _ _, _⟩ => key

/-- A missing start key counts as one before the node's, and then the sign is flipped. -/
def order (isReverse : Bool) (startKey : Option κ) (key : κ) : Ordering :=
  let result := match startKey with
    | some startKey => cmp key startKey
    | none => .gt
  if isReverse then result.swap else result

/-- The loop of the initializer. The first on the list is the last object of the stack. -/
def start (isReverse : Bool) (startKey : Option κ) :
    Node κ ν → List (Stacked κ ν) → List (Stacked κ ν)
  | emptyNode, stack => stack
  | valueNode key value color left right, stack =>
    match order cmp isReverse startKey key with
    | .lt =>
      if isReverse then start isReverse startKey left stack
      else start isReverse startKey right stack
    | .eq => ⟨valueNode key value color left right, rfl⟩ :: stack
    | .gt =>
      let stack := ⟨valueNode key value color left right, rfl⟩ :: stack
      if isReverse then start isReverse startKey right stack
      else start isReverse startKey left stack

def descend (isReverse : Bool) : Node κ ν → List (Stacked κ ν) → List (Stacked κ ν)
  | emptyNode, stack => stack
  | valueNode key value color left right, stack =>
    let stack := ⟨valueNode key value color left right, rfl⟩ :: stack
    if isReverse then descend isReverse right stack else descend isReverse left stack

def nextObject (isReverse : Bool) : List (Stacked κ ν) → Option κ × List (Stacked κ ν)
  | [] => (none, [])
  | node :: stack =>
    (some node.key,
      if isReverse then descend isReverse node.1.left stack
      else descend isReverse node.1.right stack)

/-- The keys of some entries in the direction of the enumeration. -/
def directed (isReverse : Bool) (entries : List (κ × ν)) : List κ :=
  if isReverse then (entries.map Prod.fst).reverse else entries.map Prod.fst

def keysOf (isReverse : Bool) (node : Node κ ν) : List κ := directed isReverse node.entries

def behind (isReverse : Bool) (node : Node κ ν) : Node κ ν :=
  if isReverse then node.right else node.left

def ahead (isReverse : Bool) (node : Node κ ν) : Node κ ν :=
  if isReverse then node.left else node.right

def remaining (isReverse : Bool) (stack : List (Stacked κ ν)) : List κ :=
  stack.flatMap fun node => node.key :: keysOf isReverse (ahead isReverse node.1)

section Stack
variable {isReverse : Bool} {key : κ} {value : ν} {color : Color} {left right : Node κ ν}

theorem keysOf_emptyNode : keysOf isReverse (emptyNode : Node κ ν) = [] := by
  cases isReverse <;> rfl

theorem keysOf_valueNode : keysOf isReverse (valueNode key value color left right) =
    keysOf isReverse (behind isReverse (valueNode key value color left right)) ++
      key :: keysOf isReverse (ahead isReverse (valueNode key value color left right)) := by
  cases isReverse <;> simp [keysOf, directed, behind, ahead, entries]

theorem remaining_descend (isReverse : Bool) (node : Node κ ν) (stack : List (Stacked κ ν)) :
    remaining isReverse (descend isReverse node stack) =
      keysOf isReverse node ++ remaining isReverse stack := by
  induction node generalizing stack with
  | emptyNode => rw [descend, keysOf_emptyNode, List.nil_append]
  | valueNode key value color left right ihl ihr =>
    rw [keysOf_valueNode, List.append_assoc]
    cases isReverse with
    | false => exact ihl _
    | true => exact ihr _

theorem enumerates (isReverse : Bool) : Enumerates
    (nextObject isReverse : List (Stacked κ ν) → Option κ × List (Stacked κ ν))
    (remaining isReverse) where
  head stack := by
    cases stack with
    | nil => rfl
    | cons node stack => rfl
  tail stack := by
    cases stack with
    | nil => rfl
    | cons node stack =>
      simp only [nextObject, remaining, List.flatMap_cons, List.cons_append, List.tail_cons]
      cases isReverse with
      | false => exact remaining_descend _ _ _
      | true => exact remaining_descend _ _ _

/-- Without a start key the descent goes straight to the first key, or away from all of them. -/
theorem start_none (root : Node κ ν) (stack : List (Stacked κ ν)) :
    start cmp isReverse none root stack =
      if isReverse then stack else descend false root stack := by
  induction root generalizing stack with
  | emptyNode => cases isReverse <;> rfl
  | valueNode key value color left right ihl ihr =>
    cases isReverse with
    | false => exact ihl _
    | true => exact ihl _

end Stack

section Onward
variable {cmp} {isReverse : Bool} {startKey : κ} {keys : List κ}

/-- The keys from the start key on, in the direction of the enumeration. -/
def onward (cmp : κ → κ → Ordering) (isReverse : Bool) (startKey : κ) (keys : List κ) :
    List κ :=
  keys.filter fun k => decide (order cmp isReverse (some startKey) k ≠ .lt)

theorem onward_eq_nil
    (before : ∀ k ∈ keys, order cmp isReverse (some startKey) k = .lt) :
    onward cmp isReverse startKey keys = [] := by
  simpa [onward, List.filter_eq_nil_iff] using before

theorem onward_eq_self
    (after : ∀ k ∈ keys, order cmp isReverse (some startKey) k ≠ .lt) :
    onward cmp isReverse startKey keys = keys := by
  simpa [onward, List.filter_eq_self] using after

theorem onward_append (l r : List κ) : onward cmp isReverse startKey (l ++ r) =
    onward cmp isReverse startKey l ++ onward cmp isReverse startKey r := List.filter_append l r

theorem onward_append_cons (l r : List κ) (key : κ) :
    onward cmp isReverse startKey (l ++ key :: r) = onward cmp isReverse startKey l ++
      match order cmp isReverse (some startKey) key with
      | .lt => onward cmp isReverse startKey r
      | _ => key :: onward cmp isReverse startKey r := by
  rw [onward_append]
  simp only [onward, List.filter_cons]
  cases order cmp isReverse (some startKey) key <;> rfl

end Onward

section StartKey
variable {cmp} [Std.TransCmp cmp] {isReverse : Bool} {startKey key : κ} {value : ν}
variable {color : Color} {left right : Node κ ν}

theorem order_eq : order cmp isReverse (some startKey) key =
    if isReverse then cmp startKey key else cmp key startKey := by
  cases isReverse with
  | false => rfl
  | true => exact (Std.OrientedCmp.eq_swap (a := startKey) (b := key)).symm

theorem behind_before (isReverse : Bool) (startKey : κ)
    (sorted : Sorted cmp (valueNode key value color left right).entries)
    (past : order cmp isReverse (some startKey) key ≠ .gt) :
    ∀ k ∈ keysOf isReverse (behind isReverse (valueNode key value color left right)),
      order cmp isReverse (some startKey) k = .lt := by
  intro k member
  rw [order_eq] at past ⊢
  cases isReverse with
  | false =>
    simp only [Bool.false_eq_true, ↓reduceIte] at past ⊢
    obtain ⟨e, listed, rfl⟩ := List.mem_map.mp member
    have ge : cmp startKey key ≠ .lt := fun lt => past (Std.OrientedCmp.gt_of_lt lt)
    exact Std.OrientedCmp.lt_of_gt (left_greater sorted ge e listed)
  | true =>
    obtain ⟨e, listed, rfl⟩ := List.mem_map.mp (List.mem_reverse.mp member)
    exact right_less sorted past e listed

theorem ahead_not_before (isReverse : Bool) (startKey : κ)
    (sorted : Sorted cmp (valueNode key value color left right).entries)
    (reached : order cmp isReverse (some startKey) key ≠ .lt) :
    ∀ k ∈ keysOf isReverse (ahead isReverse (valueNode key value color left right)),
      order cmp isReverse (some startKey) k ≠ .lt := by
  intro k member
  rw [order_eq] at reached ⊢
  cases isReverse with
  | false =>
    simp only [Bool.false_eq_true, ↓reduceIte] at reached ⊢
    obtain ⟨e, listed, rfl⟩ := List.mem_map.mp member
    have le : cmp startKey key ≠ .gt := fun gt => reached (Std.OrientedCmp.lt_of_gt gt)
    simp [Std.OrientedCmp.gt_of_lt (right_less sorted le e listed)]
  | true =>
    obtain ⟨e, listed, rfl⟩ := List.mem_map.mp (List.mem_reverse.mp member)
    simp [left_greater sorted reached e listed]

theorem onward_keysOf (sorted : Sorted cmp (valueNode key value color left right).entries) :
    onward cmp isReverse startKey (keysOf isReverse (valueNode key value color left right)) =
      match order cmp isReverse (some startKey) key with
      | .lt => onward cmp isReverse startKey
          (keysOf isReverse (ahead isReverse (valueNode key value color left right)))
      | .eq => key :: keysOf isReverse (ahead isReverse (valueNode key value color left right))
      | .gt => onward cmp isReverse startKey
          (keysOf isReverse (behind isReverse (valueNode key value color left right))) ++
          key :: keysOf isReverse (ahead isReverse (valueNode key value color left right)) := by
  have early := behind_before isReverse startKey sorted
  have late := ahead_not_before isReverse startKey sorted
  rw [keysOf_valueNode, onward_append_cons]
  cases side : order cmp isReverse (some startKey) key with
  | lt =>
    rw [onward_eq_nil (early (by simp [side]))]
    rfl
  | eq =>
    rw [onward_eq_nil (early (by simp [side])), onward_eq_self (late (by simp [side]))]
    rfl
  | gt => rw [onward_eq_self (late (by simp [side]))]

theorem remaining_start {root : Node κ ν} (sorted : Sorted cmp root.entries)
    (stack : List (Stacked κ ν)) :
    remaining isReverse (start cmp isReverse (some startKey) root stack) =
      onward cmp isReverse startKey (keysOf isReverse root) ++ remaining isReverse stack := by
  induction root generalizing stack with
  | emptyNode =>
    rw [start, keysOf_emptyNode]
    rfl
  | valueNode key value color left right ihl ihr =>
    obtain ⟨sl, sr, -, -⟩ := sorted_split sorted
    rw [onward_keysOf sorted, start]
    cases order cmp isReverse (some startKey) key with
    | lt =>
      cases isReverse with
      | false => exact ihr sr stack
      | true => exact ihl sl stack
    | eq => rfl
    | gt =>
      -- The node waits on the stack until the keys behind it are listed.
      simp only [List.append_assoc]
      cases isReverse with
      | false => exact ihl sl _
      | true => exact ihr sr _

end StartKey
end FTreeSortedDictionaryEnumerator

namespace FArraySortedDictionary
open SortedEntries FArraySortedDictionaryEnumerator FTreeSortedDictionaryEnumerator
variable {κ ν : Type} (cmp : κ → κ → Ordering)

def keyEnumeratorFrom (startKey : κ) (entries : List (κ × ν)) : State κ :=
  ⟨entries.map Prod.fst, findInsertPositionForKey cmp startKey entries, false⟩

def reverseKeyEnumeratorFrom (startKey : κ) (entries : List (κ × ν)) : State κ :=
  let startPos := findInsertPositionForKey cmp startKey entries
  let inexact : Bool := match entries[startPos]? with
    | none => true
    | some e => decide (cmp e.1 startKey ≠ .eq)
  ⟨entries.map Prod.fst, if inexact then (startPos : Int) - 1 else startPos, true⟩

section Search
variable {cmp} [Std.TransCmp cmp] {startKey : κ} {entries : List (κ × ν)}

/-- The insert position parts the keys before another from those that are not. -/
theorem position_split (startKey : κ) (sorted : Sorted cmp entries) : ∃ l r, entries = l ++ r ∧
    findInsertPositionForKey cmp startKey entries = l.length ∧
    (∀ e ∈ l, cmp e.1 startKey = .lt) ∧ ∀ e ∈ r, cmp e.1 startKey ≠ .lt := by
  induction entries with
  | nil => exact ⟨[], [], rfl, rfl, by simp, by simp⟩
  | cons e rest ih =>
    by_cases before : cmp e.1 startKey = .lt
    · obtain ⟨l, r, rfl, place, early, late⟩ := ih (sorted_tail sorted)
      refine ⟨e :: l, r, rfl, ?_, ?_, late⟩
      · rw [findInsertPositionForKey, if_pos before, place, List.length_cons]
      · intro f member
        rcases List.mem_cons.mp member with rfl | member
        · exact before
        · exact early f member
    · refine ⟨[], e :: rest, rfl, if_neg before, by simp, ?_⟩
      intro f member lt
      rcases List.mem_cons.mp member with rfl | member
      · exact before lt
      · exact before (Std.TransCmp.lt_trans ((List.pairwise_cons.mp sorted).1 f member) lt)

theorem remaining_keyEnumeratorFrom (sorted : Sorted cmp entries) :
    remaining (keyEnumeratorFrom cmp startKey entries) =
      onward cmp false startKey (directed false entries) := by
  obtain ⟨l, r, rfl, place, early, late⟩ := position_split startKey sorted
  have first : onward cmp false startKey (l.map Prod.fst) = [] :=
    onward_eq_nil (by simpa [order] using early)
  have rest : onward cmp false startKey (r.map Prod.fst) = r.map Prod.fst :=
    onward_eq_self (by simpa [order] using late)
  have size : (l.map Prod.fst).length = l.length := List.length_map _
  have parted : (l ++ r).map Prod.fst = l.map Prod.fst ++ r.map Prod.fst := List.map_append
  rw [keyEnumeratorFrom, remaining_forward, place, directed, if_neg Bool.false_ne_true, parted,
    onward_append, first, rest, List.nil_append, ← size, List.drop_left]

theorem remaining_reverseKeyEnumeratorFrom (sorted : Sorted cmp entries) :
    remaining (reverseKeyEnumeratorFrom cmp startKey entries) =
      onward cmp true startKey (directed true entries) := by
  obtain ⟨l, r, rfl, place, early, late⟩ := position_split startKey sorted
  have past : ∀ k ∈ (l.map Prod.fst).reverse, order cmp true (some startKey) k ≠ .lt := by
    intro k member
    obtain ⟨e, listed, rfl⟩ := List.mem_map.mp (List.mem_reverse.mp member)
    simp [order, early e listed]
  have short : l.length ≤ ((l ++ r).map Prod.fst).length := by simp
  have before := remaining_reverse ((l ++ r).map Prod.fst) short
  have size : (l.map Prod.fst).length = l.length := List.length_map _
  have taken : ((l ++ r).map Prod.fst).take l.length = l.map Prod.fst := by
    rw [List.map_append, ← size, List.take_left]
  rw [taken] at before
  simp only [reverseKeyEnumeratorFrom, place]
  cases r with
  | nil =>
    have inexact : (l ++ [])[l.length]? = none := by simp
    have whole : directed true (l ++ []) = (l.map Prod.fst).reverse := by simp [directed]
    rw [whole, onward_eq_self past, inexact]
    exact before
  | cons e r =>
    have after : ∀ k ∈ (r.map Prod.fst).reverse, order cmp true (some startKey) k = .lt := by
      intro k member
      obtain ⟨f, listed, rfl⟩ := List.mem_map.mp (List.mem_reverse.mp member)
      rw [order_eq]
      refine right_less sorted (fun gt => ?_) f listed
      exact late e List.mem_cons_self (Std.OrientedCmp.lt_of_gt gt)
    have whole : directed true (l ++ e :: r) =
        (r.map Prod.fst).reverse ++ e.1 :: (l.map Prod.fst).reverse := by simp [directed]
    rw [whole, onward_append_cons, onward_eq_nil after, onward_eq_self past]
    have found : (l ++ e :: r)[l.length]? = some e := by simp
    have inside : l.length < ((l ++ e :: r).map Prod.fst).length := by simp
    rw [found]
    by_cases here : cmp e.1 startKey = .eq
    · have exactly := remaining_inside ((l ++ e :: r).map Prod.fst) inside
      rw [taken] at exactly
      simpa [order, here] using exactly
    · have gt : cmp e.1 startKey = .gt := by
        have ge := late e List.mem_cons_self
        cases side : cmp e.1 startKey <;> simp_all
      simpa [order, gt, onward] using before

end Search
end FArraySortedDictionary

namespace FImmutableSortedDictionary
open NSEnumerator LLRBNode Node SortedEntries FTreeSortedDictionaryEnumerator
variable {κ ν : Type}

/-- The arrays' own enumerators answer their objects from the front. -/
inductive Enumerator (κ ν : Type) where
  | objects (rest : List κ)
  | array (state : FArraySortedDictionaryEnumerator.State κ)
  | tree (isReverse : Bool) (stack : List (Stacked κ ν))

namespace Enumerator

def nextObject : Enumerator κ ν → Option κ × Enumerator κ ν
  | objects [] => (none, objects [])
  | objects (key :: rest) => (some key, objects rest)
  | array state => (FArraySortedDictionaryEnumerator.nextObject state).map id array
  | tree isReverse stack =>
    (FTreeSortedDictionaryEnumerator.nextObject isReverse stack).map id (tree isReverse)

def remaining : Enumerator κ ν → List κ
  | objects rest => rest
  | array state => FArraySortedDictionaryEnumerator.remaining state
  | tree isReverse stack => FTreeSortedDictionaryEnumerator.remaining isReverse stack

theorem enumerates :
    Enumerates (nextObject : Enumerator κ ν → Option κ × Enumerator κ ν) remaining where
  head self := by
    cases self with
    | objects rest => cases rest <;> rfl
    | array state => exact FArraySortedDictionaryEnumerator.enumerates.head state
    | tree isReverse stack =>
      exact (FTreeSortedDictionaryEnumerator.enumerates isReverse).head stack
  tail self := by
    cases self with
    | objects rest => cases rest <;> rfl
    | array state => exact FArraySortedDictionaryEnumerator.enumerates.tail state
    | tree isReverse stack =>
      exact (FTreeSortedDictionaryEnumerator.enumerates isReverse).tail stack

end Enumerator

namespace Dictionary

section Enumerators
variable (cmp : κ → κ → Ordering)

def keyEnumerator : Dictionary κ ν → Enumerator κ ν
  | array entries => .objects (entries.map Prod.fst)
  | tree root => .tree false (start cmp false none root [])

def keyEnumeratorFrom (startKey : κ) : Dictionary κ ν → Enumerator κ ν
  | array entries => .array (FArraySortedDictionary.keyEnumeratorFrom cmp startKey entries)
  | tree root => .tree false (start cmp false (some startKey) root [])

def reverseKeyEnumerator : Dictionary κ ν → Enumerator κ ν
  | array entries => .objects (entries.map Prod.fst).reverse
  | tree root => .tree true (start cmp true none root [])

def reverseKeyEnumeratorFrom (startKey : κ) : Dictionary κ ν → Enumerator κ ν
  | array entries => .array (FArraySortedDictionary.reverseKeyEnumeratorFrom cmp startKey entries)
  | tree root => .tree true (start cmp true (some startKey) root [])

/-- What the calls answer one after the other are the keys of a map that meet a condition, each
    once and in the direction's order, and nothing after the last of them. -/
def Lists (isReverse : Bool) (enumerator : Enumerator κ ν) (holds : κ → Prop) : Prop :=
  ∃ keys : List κ, (∀ n, answer Enumerator.nextObject n enumerator = keys[n]?) ∧
    keys.Pairwise (fun j k => (if isReverse then cmp k j else cmp j k) = .lt) ∧
    ∀ j, (∃ k ∈ keys, cmp j k = .eq) ↔ holds j

end Enumerators

section Remaining
variable {cmp : κ → κ → Ordering} {d : Dictionary κ ν}

theorem remaining_keyEnumerator (d : Dictionary κ ν) :
    (d.keyEnumerator cmp).remaining = directed false d.entries := by
  cases d with
  | array entries => rfl
  | tree root =>
    have whole := remaining_descend false root []
    rw [keyEnumerator, start_none]
    exact whole.trans (List.append_nil _)

/-- The first comparison without a start key is flipped as well, so the loop turns away from
    every node and the stack stays empty. -/
theorem remaining_reverse_tree (root : Node κ ν) :
    ((tree root).reverseKeyEnumerator cmp).remaining = [] := by
  rw [reverseKeyEnumerator, start_none]
  rfl

theorem directed_pairwise (valid : Valid cmp d) (isReverse : Bool) :
    (directed isReverse d.entries).Pairwise
      fun j k => (if isReverse then cmp k j else cmp j k) = .lt := by
  have keys : (d.entries.map Prod.fst).Pairwise fun j k => cmp j k = .lt :=
    List.pairwise_map.mpr (sorted_of_valid valid)
  cases isReverse with
  | false => exact keys
  | true => exact List.pairwise_reverse.mpr keys

theorem mem_directed {isReverse : Bool} {key : κ} :
    key ∈ directed isReverse d.entries ↔ ∃ e ∈ d.entries, e.1 = key := by
  cases isReverse <;> simp [directed]

theorem Lists.congr {isReverse : Bool} {enumerator : Enumerator κ ν} {holds holds' : κ → Prop}
    (lists : Lists cmp isReverse enumerator holds) (same : ∀ j, holds j ↔ holds' j) :
    Lists cmp isReverse enumerator holds' := by
  obtain ⟨keys, answers, ordered, members⟩ := lists
  exact ⟨keys, answers, ordered, fun j => (members j).trans (same j)⟩

/-- An enumerator at its end lists the keys of an empty map. -/
theorem lists_of_none {isReverse : Bool} {enumerator : Enumerator κ ν} {holds : κ → Prop}
    (ended : enumerator.remaining = []) :
    Lists cmp isReverse enumerator holds ↔ ∀ j, ¬ holds j := by
  have answers : ∀ n, answer Enumerator.nextObject n enumerator = ([] : List κ)[n]? := by
    intro n
    rw [answer_eq Enumerator.enumerates, ended]
  constructor
  · rintro ⟨keys, listed, -, members⟩ j held
    have empty : keys = [] := by
      cases keys with
      | nil => rfl
      | cons k rest => simpa [answers] using listed 0
    obtain ⟨k, member, -⟩ := (members j).mpr held
    simp [empty] at member
  · intro none
    exact ⟨[], answers, List.Pairwise.nil, fun j => by simpa using none j⟩

variable [Std.TransCmp cmp]

theorem remaining_keyEnumeratorFrom (valid : Valid cmp d) (startKey : κ) :
    (d.keyEnumeratorFrom cmp startKey).remaining =
      onward cmp false startKey (directed false d.entries) := by
  cases d with
  | array entries => exact FArraySortedDictionary.remaining_keyEnumeratorFrom valid.1
  | tree root => exact (remaining_start valid.1 []).trans (List.append_nil _)

theorem remaining_reverseKeyEnumeratorFrom (valid : Valid cmp d) (startKey : κ) :
    (d.reverseKeyEnumeratorFrom cmp startKey).remaining =
      onward cmp true startKey (directed true d.entries) := by
  cases d with
  | array entries => exact FArraySortedDictionary.remaining_reverseKeyEnumeratorFrom valid.1
  | tree root => exact (remaining_start valid.1 []).trans (List.append_nil _)

/-- What remains decides what is listed, where the condition is one on keys alike. -/
theorem lists_of_remaining (valid : Valid cmp d) {isReverse : Bool} {enumerator : Enumerator κ ν}
    (holds : κ → Prop) [DecidablePred holds]
    (alike : ∀ j k, cmp j k = .eq → (holds j ↔ holds k))
    (left : enumerator.remaining = (directed isReverse d.entries).filter fun k => holds k) :
    Lists cmp isReverse enumerator fun j => (d.get cmp j).isSome ∧ holds j := by
  refine ⟨enumerator.remaining, (answer_eq Enumerator.enumerates · enumerator), ?_, fun j => ?_⟩
  · rw [left]
    exact (directed_pairwise valid isReverse).filter _
  · simp only [left, List.mem_filter, mem_directed, decide_eq_true_eq,
      DictionaryRuns.stored_iff valid]
    constructor
    · rintro ⟨k, ⟨⟨e, member, rfl⟩, held⟩, same⟩
      exact ⟨⟨e, member, same⟩, (alike j e.1 same).mpr held⟩
    · rintro ⟨⟨e, member, same⟩, held⟩
      exact ⟨e.1, ⟨⟨e, member, rfl⟩, (alike j e.1 same).mp held⟩, same⟩

end Remaining
end Dictionary
end FImmutableSortedDictionary

namespace KeyEnumerators
open NSEnumerator LLRBNode Node SortedEntries FImmutableSortedDictionary Dictionary DictionaryRuns
open FTreeSortedDictionaryEnumerator KeyComparator
variable {ν : Type}

theorem order_alike {κ : Type} {cmp : κ → κ → Ordering} [Std.TransCmp cmp] (isReverse : Bool)
    (startKey : κ) {j k : κ} (same : cmp j k = .eq) :
    order cmp isReverse (some startKey) j ≠ .lt ↔ order cmp isReverse (some startKey) k ≠ .lt := by
  simp only [order, Std.TransCmp.congr_left same]

theorem children_keys_from (commands : List (Command String ν)) (startKey : String) :
    ∃ d, run keyComparator commands dictionaryWithComparator = .ok d ∧
      Lists keyComparator false (d.keyEnumeratorFrom keyComparator startKey) (fun j =>
        (mapAfter keyComparator commands j).isSome ∧ keyComparator j startKey ≠ .lt) ∧
      Lists keyComparator true (d.reverseKeyEnumeratorFrom keyComparator startKey) (fun j =>
        (mapAfter keyComparator commands j).isSome ∧ keyComparator j startKey ≠ .gt) := by
  obtain ⟨d, ran, valid, same⟩ := run_from_empty keyComparator commands
  have forward := lists_of_remaining valid _ (fun j k => order_alike false startKey)
    (remaining_keyEnumeratorFrom valid startKey)
  have back := lists_of_remaining valid _ (fun j k => order_alike true startKey)
    (remaining_reverseKeyEnumeratorFrom valid startKey)
  refine ⟨d, ran, forward.congr fun j => ?_, back.congr fun j => ?_⟩
  · rw [← same]
    rfl
  · rw [← same, order]
    cases keyComparator j startKey <;> simp

theorem children_keys_in_order (commands : List (Command String ν)) :
    ∃ d, run keyComparator commands dictionaryWithComparator = .ok d ∧
      Lists keyComparator false (d.keyEnumerator keyComparator) (fun j =>
        (mapAfter keyComparator commands j).isSome) ∧
      (Lists keyComparator true (d.reverseKeyEnumerator keyComparator) (fun j =>
          (mapAfter keyComparator commands j).isSome) ↔
        (∃ listed, d = .array listed) ∨ ∀ j, mapAfter keyComparator commands j = none) := by
  obtain ⟨d, ran, valid, same⟩ := run_from_empty keyComparator commands
  have listed : ∀ isReverse {enumerator : Enumerator String ν},
      enumerator.remaining = directed isReverse d.entries →
        Lists keyComparator isReverse enumerator fun j =>
          (mapAfter keyComparator commands j).isSome := by
    intro isReverse enumerator left
    have all : enumerator.remaining =
        (directed isReverse d.entries).filter fun _ => decide True := by simp [left]
    have every := lists_of_remaining valid (fun _ => True) (fun _ _ _ => Iff.rfl) all
    exact every.congr fun j => by rw [← same, and_true]
  refine ⟨d, ran, listed false (remaining_keyEnumerator d), ?_⟩
  cases d with
  | array entries => exact ⟨fun _ => Or.inl ⟨entries, rfl⟩, fun _ => listed true rfl⟩
  | tree root => simp [lists_of_none (remaining_reverse_tree root)]

end KeyEnumerators
