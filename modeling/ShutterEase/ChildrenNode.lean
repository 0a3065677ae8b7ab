import ShutterEase.DictionaryRuns

/-!
`FChildrenNode` keeps the children of a node in a sorted dictionary, and a priority beside them
that goes with the last child. Over any sequence of writes the node that the dictionary stands
for is the one that the keyed tree gives, as long as no key is a negative zero, which the
comparator would take for another zero.
-/
namespace ChildrenNode
open KeyedTree SortedEntries FImmutableSortedDictionary Dictionary KeyComparator Firebase

/-- A `priorityNode` that is nil and an empty one read alike. -/
structure FChildrenNode where
  children : Dictionary String Json
  priorityNode : Option Json

namespace FChildrenNode

def initWithPriority (aPriority : Option Json) (someChildren : Dictionary String Json) :
    Except String FChildrenNode :=
  if someChildren.isEmpty && aPriority.any fun p => !p.isNull then
    .error "Can't create empty node with priority!"
  else .ok ⟨someChildren, aPriority⟩

/-- `FEmptyNode` is one of these, the only one whose priority is nil. -/
def emptyNode : FChildrenNode := ⟨dictionaryWithComparator, none⟩

def getPriority (self : FChildrenNode) : Json := self.priorityNode.getD Node.null

def updatePriority (self : FChildrenNode) (aPriority : Json) : Except String FChildrenNode :=
  if self.children.isEmpty then .ok emptyNode
  else initWithPriority (some aPriority) self.children

def getImmediateChild (self : FChildrenNode) (childName : String) : Json :=
  if childName = ".priority" then self.getPriority
  else (self.children.get keyComparator childName).getD Node.null

/-- `newChildren` of `updateImmediateChild:withNewChild:`. -/
def newChildren (self : FChildrenNode) (childName : String) (newChildNode : Json) :
    Except String (Dictionary String Json) :=
  if newChildNode.isNull then .ok (self.children.removeKey keyComparator childName)
  else self.children.insertKey keyComparator childName newChildNode

def updateImmediateChild (self : FChildrenNode) (childName : String) (newChildNode : Json) :
    Except String FChildrenNode :=
  if childName = ".priority" then self.updatePriority newChildNode
  else do
    let newChildren ← self.newChildren childName newChildNode
    if newChildren.isEmpty then .ok emptyNode
    else initWithPriority (some self.getPriority) newChildren

end FChildrenNode
open FChildrenNode

def updateChildren (node : FChildrenNode) (writes : List (String × Json)) :
    Except String FChildrenNode :=
  writes.foldlM (fun n w => n.updateImmediateChild w.1 w.2) node

/-- A node of the keyed tree and its priority, which a node without children has not. -/
structure Prioritized where
  node : Json
  priority : Json
  bare : node.isNull = true → priority = Node.null

namespace Prioritized

def null : Prioritized := ⟨Node.null, Node.null, fun _ => rfl⟩

def write (self : Prioritized) (childName : String) (child : Json) : Prioritized :=
  if childName = ".priority" then
    if there : self.node.isNull = false then
      ⟨self.node, child, fun empty => absurd (there.symm.trans empty) Bool.false_ne_true⟩
    else self
  else
    if there : (self.node.setChild childName child).isNull = false then
      ⟨self.node.setChild childName child, self.priority,
        fun empty => absurd (there.symm.trans empty) Bool.false_ne_true⟩
    else null

def writeAll (self : Prioritized) (writes : List (String × Json)) : Prioritized :=
  writes.foldl (fun n w => n.write w.1 w.2) self

theorem node_write_priority (self : Prioritized) (child : Json) :
    (self.write ".priority" child).node = self.node := by
  unfold write
  rw [if_pos rfl]
  split <;> rfl

theorem node_write {self : Prioritized} {childName : String} (named : childName ≠ ".priority")
    (child : Json) :
    (self.write childName child).node = self.node.setChild childName child := by
  unfold write
  rw [if_neg named]
  split
  · rfl
  · rename_i empty
    exact (Node.isNull_iff.mp (Bool.eq_true_of_not_eq_false empty)).symm

/-- The priority's writes leave the children alone. -/
theorem node_writeAll (self : Prioritized) (writes : List (String × Json)) :
    (self.writeAll writes).node =
      self.node.merge (writes.filter fun w => w.1 ≠ ".priority") := by
  induction writes generalizing self with
  | nil => rfl
  | cons w rest ih =>
    obtain ⟨childName, child⟩ := w
    have step : self.writeAll ((childName, child) :: rest) =
        (self.write childName child).writeAll rest := rfl
    rw [step, ih]
    by_cases priority : childName = ".priority"
    · subst priority
      rw [node_write_priority]
      rfl
    · rw [node_write priority, List.filter_cons_of_pos (by simpa using priority)]
      rfl

end Prioritized

/-- Keys that the comparator tells apart from every other. -/
def Plain (entries : List (String × Json)) : Prop := ∀ e ∈ entries, ¬ NegativeZero e.1

/-- The node whose children and priority an `FChildrenNode` holds. -/
structure Represents (node : FChildrenNode) (tree : Prioritized) : Prop where
  valid : Valid keyComparator node.children
  plain : Plain node.children.entries
  same : tree.node = .branch node.children.entries
  priority : tree.priority = node.getPriority

section Lists
variable {entries : List (String × Json)} {key : String}

theorem eq_iff {j k : String} (plain : ¬ NegativeZero j) (plain' : ¬ NegativeZero k) :
    keyComparator j k = .eq ↔ j = k := by
  constructor
  · exact fun same => eq_of_keyComparator same plain plain'
  · rintro rfl
    exact Std.ReflCmp.compare_self

theorem put_eq (sorted : Sorted keyComparator entries) (plain : Plain entries)
    (named : ¬ NegativeZero key) (value : Json) :
    Node.put key value entries = putAs keyComparator key key value entries := by
  induction entries with
  | nil => rfl
  | cons e rest ih =>
    obtain ⟨j, u⟩ := e
    have plain_j : ¬ NegativeZero j := plain (j, u) List.mem_cons_self
    unfold Node.put
    split
    · rename_i same
      exact (putAs_here (l := []) sorted ((eq_iff named plain_j).mpr same.symm) key value).symm
    · rename_i other
      split
      · rename_i before
        exact (putAs_less (l := []) sorted (keyComparator_lt.mpr before) key value).symm
      · rename_i later
        have gt : keyComparator key j = .gt := by
          cases side : keyComparator key j with
          | lt => exact absurd (keyComparator_lt.mp side) later
          | eq => exact absurd ((eq_iff named plain_j).mp side).symm other
          | gt => rfl
        rw [ih (FArraySortedDictionary.sorted_tail sorted)
          fun e member => plain e (List.mem_cons_of_mem _ member)]
        exact (putAs_greater (l := []) sorted gt key value).symm

theorem drop_eq (plain : Plain entries) (named : ¬ NegativeZero key) :
    Node.drop key entries = erase keyComparator key entries := by
  apply List.filter_congr
  intro e member
  have same := eq_iff named (plain e member)
  simp [same, @eq_comm _ key]

theorem childOf_eq (sorted : Sorted keyComparator entries) (plain : Plain entries)
    (named : ¬ NegativeZero key) :
    Node.childOf key entries = (lookup keyComparator key entries).getD Node.null := by
  cases found : find keyComparator key entries with
  | none =>
    rw [lookup, found]
    apply Node.childOf_absent
    intro listed
    obtain ⟨e, member, rfl⟩ := List.mem_map.mp listed
    simp only [find, List.find?_eq_none, decide_eq_true_eq] at found
    exact found e member Std.ReflCmp.compare_self
  | some e =>
    obtain ⟨member, same⟩ := (find_eq_some_iff sorted).mp found
    obtain rfl : key = e.1 := (eq_iff named (plain e member)).mp same
    rw [lookup, found]
    have distinct : (entries.map Prod.fst).Nodup := by
      refine List.pairwise_map.mpr (sorted.imp ?_)
      intro e f lt alike
      simp [alike, Std.ReflCmp.compare_self] at lt
    exact Node.childOf_of_mem distinct member

end Lists

section Writes
variable {node : FChildrenNode} {tree : Prioritized} {key : String}

theorem represents_empty : Represents emptyNode Prioritized.null :=
  ⟨⟨List.Pairwise.nil, Nat.zero_le _⟩, fun _ member => absurd member List.not_mem_nil, rfl, rfl⟩

theorem isNull_eq (h : Represents node tree) : tree.node.isNull = node.children.isEmpty := by
  rw [Bool.eq_iff_iff, Node.isNull_iff, Dictionary.isEmpty_iff, h.same]
  simp [Node.null]

theorem newChildren_eq (h : Represents node tree) (named : ¬ NegativeZero key) (child : Json) :
    ∃ children', node.newChildren key child = .ok children' ∧
      Valid keyComparator children' ∧ Plain children'.entries ∧
      tree.node.setChild key child = .branch children'.entries := by
  obtain ⟨valid, plain, same, -⟩ := h
  have sorted := sorted_of_valid valid
  rw [same]
  unfold Node.setChild newChildren
  by_cases gone : child.isNull = true
  · obtain ⟨valid', left⟩ := removeKey_valid valid key
    simp only [gone, ↓reduceIte]
    refine ⟨_, rfl, valid', ?_, ?_⟩
    · rw [left]
      exact fun e member => plain e (List.mem_of_mem_filter member)
    · rw [left, drop_eq plain named]
  · obtain ⟨children', inserted, valid', name, given, left⟩ := insertKey_valid valid key child
    simp only [gone, Bool.false_eq_true, ↓reduceIte]
    have plain_name : ¬ NegativeZero name := by
      rcases given with rfl | rfl
      · exact named
      · unfold storedKey
        cases found : find keyComparator key node.children.entries with
        | none => exact named
        | some e => exact plain e (List.mem_of_find?_eq_some found)
    obtain rfl : name = key := (eq_iff plain_name named).mp (named_eq given)
    refine ⟨children', inserted, valid', ?_, ?_⟩
    · rw [left]
      intro e member
      rcases mem_putAs member with rfl | old
      · exact named
      · exact plain e old
    · rw [left, put_eq sorted plain named]

theorem represents_priority (h : Represents node tree) (aPriority : Json) :
    ∃ node', node.updatePriority aPriority = .ok node' ∧
      Represents node' (tree.write ".priority" aPriority) := by
  have empty := isNull_eq h
  unfold updatePriority Prioritized.write
  cases bare : node.children.isEmpty with
  | true =>
    rw [bare] at empty
    simp only [empty, ↓reduceIte, Bool.true_eq_false, ↓reduceDIte]
    have nothing : tree = Prioritized.null := by
      obtain ⟨t, p, blank⟩ := tree
      cases Node.isNull_iff.mp empty
      cases blank empty
      rfl
    exact ⟨_, rfl, nothing ▸ represents_empty⟩
  | false =>
    rw [bare] at empty
    simp only [empty, Bool.false_eq_true, ↓reduceIte, ↓reduceDIte, initWithPriority, bare,
      Bool.false_and]
    exact ⟨_, rfl, h.valid, h.plain, h.same, rfl⟩

theorem represents_update (h : Represents node tree) (named : ¬ NegativeZero key)
    (child : Json) : ∃ node', node.updateImmediateChild key child = .ok node' ∧
      Represents node' (tree.write key child) := by
  by_cases priority : key = ".priority"
  · subst priority
    exact represents_priority h child
  · obtain ⟨children', updated, valid', plain', same'⟩ := newChildren_eq h named child
    have empty : (tree.node.setChild key child).isNull = children'.isEmpty := by
      rw [Bool.eq_iff_iff, Node.isNull_iff, Dictionary.isEmpty_iff, same']
      simp [Node.null]
    unfold updateImmediateChild Prioritized.write
    rw [if_neg priority, if_neg priority, updated]
    cases bare : children'.isEmpty with
    | true =>
      rw [bare] at empty
      rw [dif_neg (by simp [empty])]
      exact ⟨emptyNode, if_pos bare, represents_empty⟩
    | false =>
      rw [bare] at empty
      rw [dif_pos empty]
      refine ⟨⟨children', some node.getPriority⟩, ?_, valid', plain', same', h.priority⟩
      change (if children'.isEmpty = true then _ else initWithPriority _ children') = _
      simp [bare, initWithPriority]

theorem represents_updates (h : Represents node tree) {writes : List (String × Json)}
    (plain : ∀ w ∈ writes, ¬ NegativeZero w.1) :
    ∃ node', updateChildren node writes = .ok node' ∧ Represents node' (tree.writeAll writes) := by
  induction writes generalizing node tree with
  | nil => exact ⟨node, rfl, h⟩
  | cons w rest ih =>
    obtain ⟨next, written, h'⟩ := represents_update h (plain w List.mem_cons_self) w.2
    obtain ⟨last, ran, whole⟩ := ih h' fun v member => plain v (List.mem_cons_of_mem _ member)
    refine ⟨last, ?_, whole⟩
    rw [updateChildren, List.foldlM_cons, written]
    exact ran

theorem child_eq (h : Represents node tree) (named : ¬ NegativeZero key)
    (child : key ≠ ".priority") : tree.node.child key = node.getImmediateChild key := by
  rw [getImmediateChild, if_neg child, get_eq h.valid,
    ← childOf_eq (sorted_of_valid h.valid) h.plain named, h.same]
  rfl

/-- The dictionary of a node's children and the keyed tree tell one story of any writes, and under
    the priority's own key the node reads what was written there since it last had a first child. -/
theorem children_refine_tree (writes : List (String × Json))
    (plain : ∀ w ∈ writes, ¬ NegativeZero w.1) :
    ∃ node, updateChildren emptyNode writes = .ok node ∧
      Node.null.merge (writes.filter fun w => w.1 ≠ ".priority") =
        .branch node.children.entries ∧
      (∀ key, ¬ NegativeZero key → key ≠ ".priority" →
        (Node.null.merge (writes.filter fun w => w.1 ≠ ".priority")).child key =
          node.getImmediateChild key) ∧
      node.getImmediateChild ".priority" = (Prioritized.null.writeAll writes).priority := by
  obtain ⟨node, ran, h⟩ := represents_updates represents_empty plain
  have children := Prioritized.node_writeAll Prioritized.null writes
  refine ⟨node, ran, children.symm.trans h.same, fun key named child => ?_, h.priority.symm⟩
  rw [← child_eq h named child, children]
  rfl

/-- A priority written before the first child, one that goes with the last child, and one after. -/
def prioritizedWrites : List (String × Json) :=
  [(".priority", Json.int 1), ("type", Json.str "Roller"), (".priority", Json.int 2),
    ("type", Node.null), ("10", Json.int 1), ("2", Json.int 2), (".priority", Json.int 3),
    ("10", Node.null)]

theorem mixed_keys_refine_tree :
    ∃ node, updateChildren emptyNode prioritizedWrites = .ok node ∧
      Node.null.merge (prioritizedWrites.filter fun w => w.1 ≠ ".priority") =
        .branch node.children.entries ∧
      (∀ key, ¬ NegativeZero key → key ≠ ".priority" →
        (Node.null.merge (prioritizedWrites.filter fun w => w.1 ≠ ".priority")).child key =
          node.getImmediateChild key) ∧
      node.getImmediateChild ".priority" =
        (Prioritized.null.writeAll prioritizedWrites).priority :=
  children_refine_tree _ (by decide)

end Writes
end ChildrenNode
