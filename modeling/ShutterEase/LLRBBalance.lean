import Mathlib.Algebra.Group.Nat.Defs
import ShutterEase.LLRBNode

/-!
The three invariants that `FImmutableSortedDictionary.h` states for the tree, which `check` looks
for, and how `insertKey` keeps them: an insertion under a red node may leave two red nodes in a
row, and the next `fixUp` takes them apart.
-/
namespace LLRBNode
open SortedEntries

/-- What `check` adds for a node of this color. -/
def Color.depth : Color → Nat
  | .RED => 0
  | .BLACK => 1

def Color.name : Color → String
  | .RED => "red"
  | .BLACK => "black"

namespace Node
variable {κ ν : Type}

def check (description : ν → String) : Node κ ν → Except String Nat
  | emptyNode => .ok 0
  | valueNode _ value color left right =>
    if color = .RED && left.isRed then .error "Red node has a red child"
    else if right.isRed then .error "Right child is red"
    else do
      let blackDepth ← left.check description
      let rightDepth ← right.check description
      if blackDepth ≠ rightDepth then
        .error ("(" ++ description value ++ " -> " ++ color.name ++ s!")blackDepth: {blackDepth} ; "
          ++ s!"self.right check: {rightDepth}")
      else .ok (blackDepth + color.depth)

def checkMaxDepth (description : ν → String) (self : Node κ ν) : Except String Bool := do
  let blackDepth ← self.check description
  .ok (2 ^ blackDepth ≤ self.count + 1)

/-- A tree of a root color and a number of black nodes on every path. -/
inductive Balanced : Color → Nat → Node κ ν → Prop where
  | empty : Balanced .BLACK 0 emptyNode
  | red {key : κ} {value : ν} {m : Nat} {l r : Node κ ν} : Balanced .BLACK m l →
      Balanced .BLACK m r → Balanced .RED m (valueNode key value .RED l r)
  | black {key : κ} {value : ν} {m : Nat} {c : Color} {l r : Node κ ν} : Balanced c m l →
      Balanced .BLACK m r → Balanced .BLACK (m + 1) (valueNode key value .BLACK l r)

section Shape
variable {c d : Color} {m n : Nat} {t l r : Node κ ν} {key : κ} {value : ν}

theorem isRed_of_balanced (h : Balanced c n t) : t.isRed = decide (c = .RED) := by
  cases h <;> rfl

theorem isRed_left_of_red (h : Balanced .RED n t) : t.left.isRed = false := by
  cases h with
  | red hl hr => exact isRed_of_balanced hl

theorem isRed_right_of_balanced (h : Balanced c n t) : t.right.isRed = false := by
  cases h with
  | empty => rfl
  | red hl hr => exact isRed_of_balanced hr
  | black hl hr => exact isRed_of_balanced hr

/-- Two black children of one depth suit a node of either color. -/
theorem balanced_node (c : Color) (hl : Balanced .BLACK m l) (hr : Balanced .BLACK m r) :
    Balanced c (m + c.depth) (valueNode key value c l r) := by
  cases c with
  | RED => exact .red hl hr
  | BLACK => exact .black hl hr

theorem balanced_flip (h : Balanced .RED n t) : Balanced .BLACK (n + 1) t.flip := by
  cases h with
  | red hl hr => exact .black hl hr

/-- `check` answers the depth of a balanced tree, and throws on any other. -/
theorem check_iff (description : ν → String) :
    t.check description = .ok n ↔ ∃ c, Balanced c n t := by
  induction t generalizing n with
  | emptyNode =>
    constructor
    · intro answered
      simp only [check, Except.ok.injEq] at answered
      exact ⟨.BLACK, answered ▸ .empty⟩
    · rintro ⟨c, h⟩
      cases h
      rfl
  | valueNode key value color l r ihl ihr =>
    constructor
    · intro answered
      unfold check at answered
      split at answered
      · simp at answered
      · rename_i no_double
        split at answered
        · simp at answered
        · rename_i no_right
          cases left : l.check description with
          | error text => simp [left, bind, Except.bind] at answered
          | ok a =>
            cases right : r.check description with
            | error text => simp [left, right, bind, Except.bind] at answered
            | ok b =>
              simp only [left, right, bind, Except.bind, ne_eq, ite_not] at answered
              split at answered
              · rename_i same
                subst same
                simp only [Except.ok.injEq] at answered
                obtain ⟨c, hl⟩ := ihl.mp left
                obtain ⟨d, hr⟩ := ihr.mp right
                rw [isRed_of_balanced hl] at no_double
                rw [isRed_of_balanced hr] at no_right
                cases d with
                | RED => simp at no_right
                | BLACK =>
                  cases color with
                  | BLACK => exact ⟨.BLACK, answered ▸ .black hl hr⟩
                  | RED =>
                    cases c with
                    | RED => simp at no_double
                    | BLACK => exact ⟨.RED, answered ▸ .red hl hr⟩
              · simp at answered
    · rintro ⟨c, h⟩
      cases h with
      | red hl hr =>
        have left := isRed_of_balanced hl
        have right := isRed_of_balanced hr
        simp [check, left, right, ihl.mpr ⟨_, hl⟩, ihr.mpr ⟨_, hr⟩, bind, Except.bind, Color.depth]
      | black hl hr =>
        have right := isRed_of_balanced hr
        simp [check, right, ihl.mpr ⟨_, hl⟩, ihr.mpr ⟨_, hr⟩, bind, Except.bind, Color.depth]

/-- A tree of black depth `n` holds at least `2 ^ n - 1` entries. -/
theorem pow_depth_le (h : Balanced c n t) : 2 ^ n ≤ t.count + 1 := by
  induction h with
  | empty => exact Nat.le_refl 1
  | red hl hr ihl ihr =>
    simp only [count]
    omega
  | black hl hr ihl ihr =>
    simp only [count, Nat.pow_succ]
    omega

end Shape

/-! What `fixUp` makes of two balanced children of one depth. -/
section FixUp
variable {c d : Color} {m n : Nat} {t l r : Node κ ν} {key : κ} {value : ν}

/-- A red node whose left child may be red as well. -/
inductive Leans : Nat → Node κ ν → Prop where
  | mk {key : κ} {value : ν} {c : Color} {m : Nat} {l r : Node κ ν} : Balanced c m l →
      Balanced .BLACK m r → Leans m (valueNode key value .RED l r)

theorem fixUp_of_balanced (h : Balanced c n t) : t.fixUp = t := by
  have right := isRed_right_of_balanced h
  have double : (t.left.isRed && t.left.left.isRed) = false := by
    cases h with
    | empty => rfl
    | red hl hr => simp [isRed_of_balanced hl]
    | @black _ _ _ c _ _ hl hr =>
      cases c with
      | RED => simp [isRed_left_of_red hl]
      | BLACK => simp [isRed_of_balanced hl]
  simp [fixUp, right, double]

/-- Two red children pass their color up. -/
theorem fixUp_flips (hl : Balanced .RED m l) (hr : Balanced .RED m r) :
    fixUp (valueNode key value c l r) = valueNode key value c.flip l.flip r.flip := by
  have left := isRed_of_balanced hl
  have right := isRed_of_balanced hr
  simp [fixUp, left, right, isRed_left_of_red hl, colorFlip]

/-- A red right child is turned over to the left. -/
theorem fixUp_turns (key : κ) (value : ν) (hl : Balanced .BLACK m l) (hr : Balanced .RED m r) :
    ∃ k v, ∃ a b : Node κ ν, Balanced .RED m a ∧ Balanced .BLACK m b ∧
      fixUp (valueNode key value c l r) = valueNode k v c a b := by
  have left := isRed_of_balanced hl
  cases hr with
  | @red k v _ rl rr hrl hrr =>
    refine ⟨k, v, valueNode key value .RED l rl, rr, .red hl hrl, hrr, ?_⟩
    simp [fixUp, left, rotateLeft, isRed_of_balanced hrr]

theorem fixUp_right (hl : Balanced .BLACK m l) (hr : Balanced d m r) :
    Balanced .BLACK (m + 1) (fixUp (valueNode key value .BLACK l r)) := by
  cases d with
  | BLACK =>
    have h : Balanced .BLACK (m + 1) (valueNode key value .BLACK l r) := .black hl hr
    rw [fixUp_of_balanced h]
    exact h
  | RED =>
    obtain ⟨k, v, a, b, ha, hb, fixed⟩ := fixUp_turns key value hl hr
    rw [fixed]
    exact .black ha hb

theorem fixUp_black (key : κ) (value : ν) (hl : Balanced c m l) (hr : Balanced d m r) :
    ∃ c, Balanced c (m + 1) (fixUp (valueNode key value .BLACK l r)) := by
  cases c with
  | BLACK => exact ⟨.BLACK, fixUp_right hl hr⟩
  | RED =>
    cases d with
    | BLACK =>
      have h : Balanced .BLACK (m + 1) (valueNode key value .BLACK l r) := .black hl hr
      exact ⟨.BLACK, by rwa [fixUp_of_balanced h]⟩
    | RED =>
      rw [fixUp_flips hl hr]
      exact ⟨.RED, .red (balanced_flip hl) (balanced_flip hr)⟩

theorem fixUp_leans (hl : Leans m l) (hr : Balanced .BLACK m r) :
    ∃ c, Balanced c (m + 1) (fixUp (valueNode key value .BLACK l r)) := by
  cases hl with
  | @mk k v c _ ll lr hll hlr =>
    cases c with
    | BLACK => exact fixUp_black key value (.red hll hlr) hr
    | RED =>
      have inner := isRed_of_balanced hll
      have outer := isRed_of_balanced hr
      refine ⟨.RED, ?_⟩
      have fixed : fixUp (valueNode key value .BLACK (valueNode k v .RED ll lr) r) =
          valueNode k v .RED ll.flip (valueNode key value .BLACK lr r) := by
        simp [fixUp, inner, outer, rotateRight, colorFlip, flip]
      rw [fixed]
      exact .red (balanced_flip hll) (.black hlr hr)

theorem balanced_of_leans (h : Leans n t) : Balanced .BLACK (n + 1) (t.withColor .BLACK) := by
  cases h with
  | mk hl hr => exact .black hl hr

theorem exists_withColor (h : Balanced c n t) : ∃ m, Balanced .BLACK m (t.withColor .BLACK) := by
  cases h with
  | empty => exact ⟨_, .empty⟩
  | red hl hr => exact ⟨_, .black hl hr⟩
  | black hl hr => exact ⟨_, .black hl hr⟩

end FixUp

section Insertion
variable (cmp : κ → κ → Ordering) (aKey : κ) (aValue : ν)

/-- What an insertion makes of a tree of a color and a depth. -/
inductive Grown : Color → Nat → Node κ ν → Prop where
  | balanced {c : Color} {n : Nat} {t : Node κ ν} : Balanced c n t → Grown .BLACK n t
  | leans {n : Nat} {t : Node κ ν} : Leans n t → Grown .RED n t

theorem fixUp_red {c d : Color} {m : Nat} {l r : Node κ ν} (key : κ) (value : ν)
    (hl : Balanced c m l) (hr : Balanced d m r) (one : c = .BLACK ∨ d = .BLACK) :
    Leans m (fixUp (valueNode key value .RED l r)) := by
  cases d with
  | RED =>
    obtain rfl : c = .BLACK := by simpa using one
    obtain ⟨k, v, a, b, ha, hb, fixed⟩ := fixUp_turns key value hl hr
    rw [fixed]
    exact .mk ha hb
  | BLACK =>
    cases c with
    | BLACK =>
      have h : Balanced .RED m (valueNode key value .RED l r) := .red hl hr
      rw [fixUp_of_balanced h]
      exact .mk hl hr
    | RED =>
      have inner := isRed_left_of_red hl
      have fixed : fixUp (valueNode key value .RED l r) = valueNode key value .RED l r := by
        simp [fixUp, inner, isRed_of_balanced hr]
      rw [fixed]
      exact .mk hl hr

theorem grown_insertKey {c : Color} {n : Nat} {t : Node κ ν} (h : Balanced c n t) :
    Grown c n (t.insertKey cmp aKey aValue) := by
  induction h with
  | empty => exact .balanced (.red .empty .empty)
  | @red key value m l r hl hr ihl ihr =>
    unfold insertKey
    cases ihl with
    | balanced hl' =>
      cases ihr with
      | balanced hr' =>
        split
        · exact .leans (fixUp_red _ _ hl' hr (Or.inr rfl))
        · exact .leans (fixUp_red _ _ hl hr (Or.inr rfl))
        · exact .leans (fixUp_red _ _ hl hr' (Or.inl rfl))
  | @black key value m c l r hl hr ihl ihr =>
    unfold insertKey
    cases ihr with
    | balanced hr' =>
      split
      · cases ihl with
        | balanced hl' => exact .balanced (fixUp_black _ _ hl' hr).choose_spec
        | leans hl' => exact .balanced (fixUp_leans hl' hr).choose_spec
      · exact .balanced (fixUp_black _ _ hl hr).choose_spec
      · exact .balanced (fixUp_black _ _ hl hr').choose_spec

theorem balanced_insertKey {n : Nat} {t : Node κ ν} (h : Balanced .BLACK n t) :
    ∃ m, Balanced .BLACK m ((t.insertKey cmp aKey aValue).withColor .BLACK) := by
  cases grown_insertKey cmp aKey aValue h with
  | balanced h' => exact exists_withColor h'

variable [Std.TransCmp cmp]

/-- A key that is stored already keeps its name. -/
theorem entries_insertKey {t : Node κ ν} (sorted : Sorted cmp t.entries) :
    (t.insertKey cmp aKey aValue).entries =
      putAs cmp (storedKey cmp aKey t.entries) aKey aValue t.entries := by
  induction t with
  | emptyNode => rfl
  | valueNode key value color l r ihl ihr =>
    obtain ⟨left, right, -, -⟩ := sorted_split sorted
    unfold insertKey
    split
    · rename_i lt
      rw [entries_fixUp]
      simp only [entries, ihl left]
      rw [putAs_less sorted lt, storedKey_less sorted lt]
    · rename_i eq
      rw [entries_fixUp]
      simp only [entries]
      rw [putAs_here sorted eq, storedKey_here sorted eq]
    · rename_i gt
      rw [entries_fixUp]
      simp only [entries, ihr right]
      rw [putAs_greater sorted gt, storedKey_greater sorted gt]

end Insertion
end Node
end LLRBNode
