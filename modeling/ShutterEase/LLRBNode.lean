import Mathlib.Data.List.Basic
import ShutterEase.SortedEntries

/-!
The left-leaning red-black tree under `FTreeSortedDictionary`: the methods of `FLLRBValueNode`
and `FLLRBEmptyNode`. `remove` goes on down the right side for the key that it has just replaced,
so what it does there for a key that is not stored matters too.
-/
namespace LLRBNode
open SortedEntries

inductive Color where
  | RED
  | BLACK
  deriving DecidableEq

def Color.flip : Color → Color
  | .RED => .BLACK
  | .BLACK => .RED

@[simp] theorem Color.flip_RED : Color.RED.flip = .BLACK := rfl

@[simp] theorem Color.flip_BLACK : Color.BLACK.flip = .RED := rfl

@[simp] theorem Color.flip_flip (c : Color) : c.flip.flip = c := by cases c <;> rfl

inductive Node (κ ν : Type) where
  | emptyNode
  | valueNode (key : κ) (value : ν) (color : Color) (left right : Node κ ν)

namespace Node
variable {κ ν : Type}

def isEmpty : Node κ ν → Bool
  | emptyNode => true
  | valueNode .. => false

def isRed : Node κ ν → Bool
  | emptyNode => false
  | valueNode _ _ color _ _ => color = .RED

/-- The empty node has no children; what is asked of them is answered as the empty node does. -/
def left : Node κ ν → Node κ ν
  | emptyNode => emptyNode
  | valueNode _ _ _ left _ => left

def right : Node κ ν → Node κ ν
  | emptyNode => emptyNode
  | valueNode _ _ _ _ right => right

section Fields
variable (key : κ) (value : ν) (color : Color) (l r : Node κ ν)

@[simp] theorem isEmpty_valueNode : (valueNode key value color l r).isEmpty = false := rfl

@[simp] theorem isRed_valueNode :
    (valueNode key value color l r).isRed = decide (color = .RED) := rfl

@[simp] theorem left_valueNode : (valueNode key value color l r).left = l := rfl

@[simp] theorem right_valueNode : (valueNode key value color l r).right = r := rfl

end Fields

/-- An `int` in the source, the same number below `2 ^ 31` keys. -/
def count : Node κ ν → Nat
  | emptyNode => 0
  | valueNode _ _ _ left right => left.count + 1 + right.count

/-- `inorderTraversal`. -/
def entries : Node κ ν → List (κ × ν)
  | emptyNode => []
  | valueNode key value _ left right => left.entries ++ (key, value) :: right.entries

def min : Node κ ν → Node κ ν
  | emptyNode => emptyNode
  | valueNode key value color left right =>
    if left.isEmpty then valueNode key value color left right else left.min

/-- The `copyWith` methods: a copy of the empty node is the empty node. -/
def withLeft : Node κ ν → Node κ ν → Node κ ν
  | emptyNode, _ => emptyNode
  | valueNode key value color _ right, left => valueNode key value color left right

def withRight : Node κ ν → Node κ ν → Node κ ν
  | emptyNode, _ => emptyNode
  | valueNode key value color left _, right => valueNode key value color left right

def withColor : Node κ ν → Color → Node κ ν
  | emptyNode, _ => emptyNode
  | valueNode key value _ left right, color => valueNode key value color left right

def withEntryOf : Node κ ν → Node κ ν → Node κ ν
  | valueNode _ _ color left right, valueNode key value _ _ _ =>
    valueNode key value color left right
  | n, _ => n

def flip : Node κ ν → Node κ ν
  | emptyNode => emptyNode
  | valueNode key value color left right => valueNode key value color.flip left right

def rotateLeft : Node κ ν → Node κ ν
  | valueNode key value color left (valueNode rkey rvalue _ rleft rright) =>
    valueNode rkey rvalue color (valueNode key value .RED left rleft) rright
  | _ => emptyNode

def rotateRight : Node κ ν → Node κ ν
  | valueNode key value color (valueNode lkey lvalue _ lleft lright) right =>
    valueNode lkey lvalue color lleft (valueNode key value .RED lright right)
  | _ => emptyNode

def colorFlip : Node κ ν → Node κ ν
  | emptyNode => emptyNode
  | valueNode key value color left right => valueNode key value color.flip left.flip right.flip

def fixUp (self : Node κ ν) : Node κ ν :=
  let n := if self.right.isRed && !self.left.isRed then self.rotateLeft else self
  let n := if n.left.isRed && n.left.left.isRed then n.rotateRight else n
  if n.left.isRed && n.right.isRed then n.colorFlip else n

def moveRedLeft (self : Node κ ν) : Node κ ν :=
  let n := self.colorFlip
  if n.right.left.isRed then (n.withRight n.right.rotateRight).rotateLeft.colorFlip else n

def moveRedRight (self : Node κ ν) : Node κ ν :=
  let n := self.colorFlip
  if n.left.left.isRed then n.rotateRight.colorFlip else n

/-- How `removeMin` and `remove` make ready to go left. -/
def leanLeft (n : Node κ ν) : Node κ ν :=
  if !n.left.isRed && !n.left.left.isRed then n.moveRedLeft else n

/-- How `remove` makes ready to go right. -/
def leanRight (self : Node κ ν) : Node κ ν :=
  let n := if self.left.isRed then self.rotateRight else self
  if !n.right.isEmpty && !n.right.isRed && !n.right.left.isRed then n.moveRedRight else n

/-! No restructuring step changes what is enumerated. -/
section Entries

theorem count_eq_length (n : Node κ ν) : n.count = n.entries.length := by
  induction n with
  | emptyNode => rfl
  | valueNode key value color left right ihl ihr =>
    simp only [count, entries, List.length_append, List.length_cons, ihl, ihr]
    omega

theorem entries_flip (n : Node κ ν) : n.flip.entries = n.entries := by
  cases n <;> rfl

theorem entries_withColor (n : Node κ ν) (color : Color) :
    (n.withColor color).entries = n.entries := by
  cases n <;> rfl

theorem entries_rotateLeft {n : Node κ ν} (red : n.right.isRed = true) :
    n.rotateLeft.entries = n.entries := by
  cases n with
  | emptyNode => rfl
  | valueNode key value color left right =>
    cases right with
    | emptyNode => simp [Node.right, isRed] at red
    | valueNode rkey rvalue rcolor rleft rright => simp [rotateLeft, entries]

theorem entries_rotateRight {n : Node κ ν} (red : n.left.isRed = true) :
    n.rotateRight.entries = n.entries := by
  cases n with
  | emptyNode => rfl
  | valueNode key value color left right =>
    cases left with
    | emptyNode => simp [Node.left, isRed] at red
    | valueNode lkey lvalue lcolor lleft lright => simp [rotateRight, entries]

theorem entries_colorFlip (n : Node κ ν) : n.colorFlip.entries = n.entries := by
  cases n with
  | emptyNode => rfl
  | valueNode key value color left right => simp only [colorFlip, entries, entries_flip]

theorem entries_fixUp (n : Node κ ν) : n.fixUp.entries = n.entries := by
  have turned : ∀ m : Node κ ν,
      (if m.right.isRed && !m.left.isRed then m.rotateLeft else m).entries = m.entries := by
    intro m
    split
    · rename_i leaning
      exact entries_rotateLeft (by simp_all)
    · rfl
  have raised : ∀ m : Node κ ν,
      (if m.left.isRed && m.left.left.isRed then m.rotateRight else m).entries = m.entries := by
    intro m
    split
    · rename_i double
      exact entries_rotateRight (by simp_all)
    · rfl
  have flipped : ∀ m : Node κ ν,
      (if m.left.isRed && m.right.isRed then m.colorFlip else m).entries = m.entries := by
    intro m
    split
    · exact entries_colorFlip m
    · rfl
  exact (flipped _).trans ((raised _).trans (turned n))

theorem entries_moveRedLeft (n : Node κ ν) : n.moveRedLeft.entries = n.entries := by
  unfold moveRedLeft
  dsimp only
  split
  · rename_i red
    rw [entries_colorFlip, ← entries_colorFlip n]
    cases shape : n.colorFlip with
    | emptyNode => rfl
    | valueNode key value color l r =>
      rw [shape] at red
      cases r with
      | emptyNode => simp [Node.right, Node.left, isRed] at red
      | valueNode rkey rvalue rcolor rl rr =>
        cases rl with
        | emptyNode => simp [Node.right, Node.left, isRed] at red
        | valueNode k v c a b => simp [withRight, Node.right, rotateRight, rotateLeft, entries]
  · exact entries_colorFlip n

theorem entries_moveRedRight (n : Node κ ν) : n.moveRedRight.entries = n.entries := by
  unfold moveRedRight
  dsimp only
  split
  · rename_i red
    rw [entries_colorFlip, ← entries_colorFlip n]
    cases shape : n.colorFlip with
    | emptyNode => rfl
    | valueNode key value color l r =>
      rw [shape] at red
      cases l with
      | emptyNode => simp [Node.left, isRed] at red
      | valueNode lkey lvalue lcolor ll lr => simp [rotateRight, entries]
  · exact entries_colorFlip n

theorem entries_leanLeft (n : Node κ ν) : n.leanLeft.entries = n.entries := by
  unfold leanLeft
  split
  · exact entries_moveRedLeft n
  · rfl

theorem entries_leanRight (n : Node κ ν) : n.leanRight.entries = n.entries := by
  have turned : (if n.left.isRed then n.rotateRight else n).entries = n.entries := by
    split
    · rename_i red
      exact entries_rotateRight red
    · rfl
  have moved : ∀ m : Node κ ν, (if !m.right.isEmpty && !m.right.isRed && !m.right.left.isRed
      then m.moveRedRight else m).entries = m.entries := by
    intro m
    split
    · exact entries_moveRedRight m
    · rfl
  exact (moved _).trans turned

theorem count_left_lt {m n : Node κ ν} (same : m.entries = n.entries)
    (there : n.isEmpty = false) : m.left.count < n.count := by
  rw [count_eq_length n, ← same, ← count_eq_length]
  cases m with
  | emptyNode =>
    cases n with
    | emptyNode => simp [isEmpty] at there
    | valueNode key value color l r => simp [entries] at same
  | valueNode key value color l r =>
    simp only [Node.left, count]
    omega

theorem count_right_lt {m n : Node κ ν} (same : m.entries = n.entries)
    (there : n.isEmpty = false) : m.right.count < n.count := by
  rw [count_eq_length n, ← same, ← count_eq_length]
  cases m with
  | emptyNode =>
    cases n with
    | emptyNode => simp [isEmpty] at there
    | valueNode key value color l r => simp [entries] at same
  | valueNode key value color l r =>
    simp only [Node.right, count]
    omega

end Entries

section Updates
variable (cmp : κ → κ → Ordering)

def insertKey (aKey : κ) (aValue : ν) : Node κ ν → Node κ ν
  | emptyNode => valueNode aKey aValue .RED emptyNode emptyNode
  | valueNode key value color left right =>
    match cmp aKey key with
    | .lt => fixUp (valueNode key value color (left.insertKey aKey aValue) right)
    | .eq => fixUp (valueNode key aValue color left right)
    | .gt => fixUp (valueNode key value color left (right.insertKey aKey aValue))

theorem left_of_isEmpty {n : Node κ ν} (there : n.left.isEmpty = false) : n.isEmpty = false := by
  cases n with
  | emptyNode => exact there
  | valueNode key value color l r => rfl

/-- Sent to nodes that hold an entry only. -/
def removeMin (self : Node κ ν) : Node κ ν :=
  if self.left.isEmpty then emptyNode
  else fixUp (self.leanLeft.withLeft self.leanLeft.left.removeMin)
termination_by self.count
decreasing_by
  apply count_left_lt (entries_leanLeft self)
  apply left_of_isEmpty
  simp_all

/-- `comparator(aKey, n.key)`, which is asked of nodes that hold an entry only. -/
def compared (aKey : κ) : Node κ ν → Ordering
  | emptyNode => .eq
  | valueNode key _ _ _ _ => cmp aKey key

theorem count_withLeft_le {n l : Node κ ν} (le : l.count ≤ n.left.count) :
    (n.withLeft l).count ≤ n.count := by
  cases n with
  | emptyNode => exact Nat.le_refl _
  | valueNode key value color left right =>
    simp only [withLeft, count, Node.left] at le ⊢
    omega

theorem count_removeMin_le (self : Node κ ν) : self.removeMin.count ≤ self.count := by
  fun_induction removeMin self with
  | case1 self last => exact Nat.zero_le _
  | case2 self more ih =>
    have kept : self.leanLeft.count = self.count := by
      rw [count_eq_length, count_eq_length, entries_leanLeft]
    rw [count_eq_length, entries_fixUp, ← count_eq_length, ← kept]
    exact count_withLeft_le ih

theorem count_replaced_le (n smallest : Node κ ν) :
    ((n.withEntryOf smallest).withRight n.right.removeMin).right.count ≤ n.right.count := by
  cases n with
  | emptyNode => exact Nat.le_refl _
  | valueNode key value color l r => cases smallest <;> exact count_removeMin_le r

def remove (aKey : κ) (self : Node κ ν) : Node κ ν :=
  if self.isEmpty then emptyNode
  else if self.compared cmp aKey = .lt then
    let n := if self.left.isEmpty then self else self.leanLeft
    fixUp (n.withLeft (n.left.remove aKey))
  else
    let n := self.leanRight
    if n.compared cmp aKey = .eq then
      if n.right.isEmpty then emptyNode
      else
        let n := (n.withEntryOf n.right.min).withRight n.right.removeMin
        fixUp (n.withRight (n.right.remove aKey))
    else fixUp (n.withRight (n.right.remove aKey))
termination_by self.count
decreasing_by
  · apply count_left_lt _ (by simpa using ‹¬self.isEmpty = true›)
    split
    · rfl
    · exact entries_leanLeft self
  · apply Nat.lt_of_le_of_lt (count_replaced_le _ _)
    exact count_right_lt (entries_leanRight self) (by simpa using ‹¬self.isEmpty = true›)
  · exact count_right_lt (entries_leanRight self) (by simpa using ‹¬self.isEmpty = true›)

end Updates
end Node
end LLRBNode
