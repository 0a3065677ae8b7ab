import ShutterEase.LLRBRemove
import ShutterEase.TreeBuilder

/-!
`FImmutableSortedDictionary`: an array of sorted entries that becomes a tree when it would grow
past the threshold and stays one. Over any run of insertions and removals both answer as one map
from keys to values, where keys that the comparator does not tell apart are one key.
-/
namespace FArraySortedDictionary
open SortedEntries
variable {κ ν : Type} (cmp : κ → κ → Ordering)

/-- The search gives up at the first key that comes later. -/
def findKey (key : κ) : List (κ × ν) → Option Nat
  | [] => none
  | e :: rest =>
    match cmp key e.1 with
    | .eq => some 0
    | .lt => none
    | .gt => (findKey key rest).map (· + 1)

def findInsertPositionForKey (key : κ) : List (κ × ν) → Nat
  | [] => 0
  | e :: rest => if cmp e.1 key = .lt then findInsertPositionForKey key rest + 1 else 0

def get (key : κ) (entries : List (κ × ν)) : Option ν :=
  match findKey cmp key entries with
  | none => none
  | some pos => entries[pos]?.map Prod.snd

def removeKey (key : κ) (entries : List (κ × ν)) : List (κ × ν) :=
  match findKey cmp key entries with
  | none => entries
  | some pos => entries.eraseIdx pos

def getPredecessorKey (key : κ) (entries : List (κ × ν)) : Except String (Option κ) :=
  match findKey cmp key entries with
  | none => .error "Can't get predecessor key for non-existent key"
  | some 0 => .ok none
  | some (pos + 1) => .ok (entries[pos]?.map Prod.fst)

section Search
variable {cmp} {key : κ} {entries : List (κ × ν)}

theorem sorted_tail {e : κ × ν} (sorted : Sorted cmp (e :: entries)) : Sorted cmp entries :=
  (List.pairwise_cons.mp sorted).2

theorem position_le (key : κ) (entries : List (κ × ν)) :
    findInsertPositionForKey cmp key entries ≤ entries.length := by
  induction entries with
  | nil => exact Nat.le_refl 0
  | cons e rest ih =>
    unfold findInsertPositionForKey
    split
    · exact Nat.succ_le_succ ih
    · exact Nat.zero_le _

theorem findKey_some {pos : Nat} (found : findKey cmp key entries = some pos) :
    ∃ l e r, entries = l ++ e :: r ∧ l.length = pos ∧ cmp key e.1 = .eq := by
  induction entries generalizing pos with
  | nil => simp [findKey] at found
  | cons e rest ih =>
    unfold findKey at found
    split at found
    · rename_i eq
      simp only [Option.some.injEq] at found
      exact ⟨[], e, rest, rfl, found, eq⟩
    · simp at found
    · obtain ⟨n, there, rfl⟩ := Option.map_eq_some_iff.mp found
      obtain ⟨l, f, r, rfl, rfl, eq⟩ := ih there
      exact ⟨e :: l, f, r, rfl, rfl, eq⟩

variable [Std.TransCmp cmp]

theorem findKey_none (sorted : Sorted cmp entries) (absent : findKey cmp key entries = none) :
    find cmp key entries = none := by
  induction entries with
  | nil => rfl
  | cons e rest ih =>
    unfold findKey at absent
    split at absent
    · simp at absent
    · rename_i lt
      exact (find_less (l := []) sorted lt).trans rfl
    · rename_i gt
      rw [Option.map_eq_none_iff] at absent
      exact (find_greater (l := []) sorted gt).trans (ih (sorted_tail sorted) absent)

theorem get_eq (sorted : Sorted cmp entries) : get cmp key entries = lookup cmp key entries := by
  unfold get
  split
  · rename_i absent
    rw [lookup, findKey_none sorted absent, Option.map_none]
  · rename_i pos found
    obtain ⟨l, e, r, rfl, rfl, eq⟩ := findKey_some found
    rw [lookup, find_here sorted eq]
    simp

theorem removeKey_eq (sorted : Sorted cmp entries) :
    removeKey cmp key entries = erase cmp key entries := by
  unfold removeKey
  split
  · rename_i absent
    have none := findKey_none sorted absent
    simp only [find, List.find?_eq_none, decide_eq_true_eq] at none
    exact (erase_eq_self none).symm
  · rename_i pos found
    obtain ⟨l, e, r, rfl, rfl, eq⟩ := findKey_some found
    rw [erase_here sorted eq, List.eraseIdx_append_of_length_le (Nat.le_refl _), Nat.sub_self]
    rfl

theorem insert_absent (sorted : Sorted cmp entries) (absent : find cmp key entries = none)
    (value : ν) : entries.insertIdx (findInsertPositionForKey cmp key entries) (key, value) =
      putAs cmp key key value entries := by
  induction entries with
  | nil => rfl
  | cons e rest ih =>
    unfold findInsertPositionForKey
    split
    · rename_i before
      have gt := Std.OrientedCmp.gt_of_lt before
      have later : find cmp key rest = none := (find_greater (l := []) sorted gt).symm.trans absent
      rw [List.insertIdx_succ_cons, ih (sorted_tail sorted) later]
      exact (putAs_greater (l := []) sorted gt key value).symm
    · rename_i later
      have lt : cmp key e.1 = .lt := by
        cases side : cmp key e.1 with
        | lt => rfl
        | eq => simp [find, side] at absent
        | gt => exact absurd (Std.OrientedCmp.lt_of_gt side) later
      exact (putAs_less (l := []) sorted lt key value).symm

theorem set_present {pos : Nat} (sorted : Sorted cmp entries)
    (found : findKey cmp key entries = some pos) (value : ν) :
    entries.set pos (key, value) = putAs cmp key key value entries := by
  obtain ⟨l, e, r, rfl, rfl, eq⟩ := findKey_some found
  rw [putAs_here sorted eq, List.set_append_right _ _ (Nat.le_refl _), Nat.sub_self]
  rfl

/-- The key before a stored one is the last of those below it. -/
theorem getPredecessorKey_eq (sorted : Sorted cmp entries) :
    getPredecessorKey cmp key entries = if (find cmp key entries).isSome then
      .ok ((below cmp key entries).getLast?.map Prod.fst)
      else .error "Can't get predecessor key for non-existent key" := by
  unfold getPredecessorKey
  split
  · rename_i absent
    rw [findKey_none sorted absent]
    rfl
  · rename_i found
    obtain ⟨l, e, r, rfl, first, eq⟩ := findKey_some found
    obtain rfl := List.length_eq_zero_iff.mp first
    rw [find_here sorted eq, below_here sorted eq]
    rfl
  · rename_i pos found
    obtain ⟨l, e, r, rfl, place, eq⟩ := findKey_some found
    rw [find_here sorted eq, below_here sorted eq, List.getLast?_eq_getElem?, place,
      Nat.succ_eq_add_one, Nat.add_sub_cancel, List.getElem?_append_left (by omega)]
    rfl

end Search
end FArraySortedDictionary

namespace FTreeSortedDictionary
open LLRBNode Node SortedEntries
variable {κ ν : Type} (cmp : κ → κ → Ordering)

def insertKey (aKey : κ) (aValue : ν) (root : Node κ ν) : Node κ ν :=
  (root.insertKey cmp aKey aValue).withColor .BLACK

def get (key : κ) : Node κ ν → Option ν
  | emptyNode => none
  | valueNode k v _ left right =>
    match cmp key k with
    | .eq => some v
    | .lt => get key left
    | .gt => get key right

def contains (key : κ) (root : Node κ ν) : Bool := (get cmp key root).isSome

def removeKey (aKey : κ) (root : Node κ ν) : Node κ ν :=
  if !contains cmp aKey root then root else (root.remove cmp aKey).withColor .BLACK

def maxKey : Node κ ν → Option κ
  | emptyNode => none
  | valueNode key _ _ _ right => if right.isEmpty then some key else maxKey right

def minKey (root : Node κ ν) : Option κ :=
  match root.min with
  | emptyNode => none
  | valueNode key _ _ _ _ => some key

/-- The loop with its `rightParent`, the last node passed on the way right. In the left subtree of
    the key's node it goes right to the end, as `maxKey` does. -/
def predecessorFrom (key : κ) (rightParent : Option κ) : Node κ ν → Except String (Option κ)
  | emptyNode => .error "getPredecessorKey called with nonexistent key."
  | valueNode k _ _ left right =>
    match cmp key k with
    | .eq => if !left.isEmpty then .ok (maxKey left) else .ok rightParent
    | .lt => predecessorFrom key rightParent left
    | .gt => predecessorFrom key (some k) right

def getPredecessorKey (key : κ) (root : Node κ ν) : Except String (Option κ) :=
  predecessorFrom cmp key none root

section Search
variable {cmp} [Std.TransCmp cmp] {key : κ} {root : Node κ ν}

theorem get_eq (sorted : Sorted cmp root.entries) :
    get cmp key root = lookup cmp key root.entries := by
  induction root with
  | emptyNode => rfl
  | valueNode k v color l r ihl ihr =>
    obtain ⟨left, right, -, -⟩ := sorted_split sorted
    unfold get lookup
    split
    · rename_i eq
      rw [entries, find_here sorted eq, Option.map_some]
    · rename_i lt
      rw [entries, find_less sorted lt, ihl left, lookup]
    · rename_i gt
      rw [entries, find_greater sorted gt, ihr right, lookup]

omit [Std.TransCmp cmp] in
theorem maxKey_eq (root : Node κ ν) : maxKey root = root.entries.getLast?.map Prod.fst := by
  induction root with
  | emptyNode => rfl
  | valueNode k v color l r ihl ihr =>
    cases r with
    | emptyNode => simp [maxKey, isEmpty, entries]
    | valueNode rk rv rc rl rr =>
      have last := entries_ne_nil (t := valueNode rk rv rc rl rr) rfl
      have whole : (valueNode k v color l (valueNode rk rv rc rl rr)).entries =
          l.entries ++ (k, v) :: (valueNode rk rv rc rl rr).entries := rfl
      rw [maxKey, if_neg (by simp), ihr, whole, List.getLast?_append_cons,
        List.getLast?_cons_of_ne_nil last]

omit [Std.TransCmp cmp] in
theorem minKey_eq (root : Node κ ν) : minKey root = root.entries.head?.map Prod.fst := by
  cases root with
  | emptyNode => rfl
  | valueNode k v color l r =>
    obtain ⟨mk, mv, mc, ml, mr, least, first⟩ := exists_min (t := valueNode k v color l r) rfl
    rw [minKey, least, first]
    rfl

theorem predecessorFrom_eq (sorted : Sorted cmp root.entries) (rightParent : Option κ) :
    predecessorFrom cmp key rightParent root = if (find cmp key root.entries).isSome then
      .ok (((below cmp key root.entries).getLast?.map Prod.fst).or rightParent)
      else .error "getPredecessorKey called with nonexistent key." := by
  induction root generalizing rightParent with
  | emptyNode => rfl
  | valueNode k v color l r ihl ihr =>
    obtain ⟨left, right, -, -⟩ := sorted_split sorted
    unfold predecessorFrom
    split
    · rename_i eq
      rw [entries, find_here sorted eq, below_here sorted eq, maxKey_eq]
      cases l with
      | emptyNode => rfl
      | valueNode lk lv lc ll lr =>
        obtain ⟨e, last⟩ := List.getLast?_isSome.mpr
          (entries_ne_nil (t := valueNode lk lv lc ll lr) rfl) |> Option.isSome_iff_exists.mp
        simp [last]
    · rename_i lt
      rw [entries, find_less sorted lt, below_less sorted lt, ihl left]
    · rename_i gt
      rw [entries, find_greater sorted gt, below_greater sorted gt, ihr right,
        List.getLast?_append_cons, List.getLast?_cons]
      cases (below cmp key r.entries).getLast? <;> rfl

theorem getPredecessorKey_eq (sorted : Sorted cmp root.entries) :
    getPredecessorKey cmp key root = if (find cmp key root.entries).isSome then
      .ok ((below cmp key root.entries).getLast?.map Prod.fst)
      else .error "getPredecessorKey called with nonexistent key." := by
  rw [getPredecessorKey, predecessorFrom_eq sorted, Option.or_none]

/-- Balanced and in order, as the invariants of the tree ask. -/
def Valid (cmp : κ → κ → Ordering) (root : Node κ ν) : Prop :=
  Sorted cmp root.entries ∧ ∃ n, Balanced .BLACK n root

theorem insertKey_valid (valid : Valid cmp root) (key : κ) (value : ν) :
    Valid cmp (insertKey cmp key value root) ∧ (insertKey cmp key value root).entries =
      putAs cmp (storedKey cmp key root.entries) key value root.entries := by
  obtain ⟨sorted, n, balanced⟩ := valid
  have same : (insertKey cmp key value root).entries =
      putAs cmp (storedKey cmp key root.entries) key value root.entries := by
    rw [insertKey, entries_withColor, entries_insertKey cmp key value sorted]
  refine ⟨⟨?_, balanced_insertKey cmp key value balanced⟩, same⟩
  rw [same]
  exact sorted_putAs sorted storedKey_eq

theorem removeKey_valid (valid : Valid cmp root) :
    Valid cmp (removeKey cmp key root) ∧
      (removeKey cmp key root).entries = erase cmp key root.entries := by
  obtain ⟨sorted, n, balanced⟩ := valid
  unfold removeKey contains
  rw [get_eq sorted]
  split
  · rename_i absent
    have none : find cmp key root.entries = none := by simpa [lookup] using absent
    simp only [find, List.find?_eq_none, decide_eq_true_eq] at none
    exact ⟨⟨sorted, n, balanced⟩, (erase_eq_self none).symm⟩
  · have same : ((root.remove cmp key).withColor .BLACK).entries =
        erase cmp key root.entries := by
      rw [entries_withColor, entries_remove balanced sorted]
    refine ⟨⟨?_, balanced_remove balanced sorted⟩, same⟩
    rw [same]
    exact sorted_erase sorted

end Search
end FTreeSortedDictionary

namespace FImmutableSortedDictionary
open LLRBNode Node SortedEntries
variable {κ ν : Type}

inductive Dictionary (κ ν : Type) where
  | array (entries : List (κ × ν))
  | tree (root : Node κ ν)

namespace Dictionary

def SORTED_DICTIONARY_ARRAY_TO_RB_TREE_SIZE_THRESHOLD : Nat := 25

def dictionaryWithComparator : Dictionary κ ν := .array []

def entries : Dictionary κ ν → List (κ × ν)
  | array entries => entries
  | tree root => root.entries

def isEmpty : Dictionary κ ν → Bool
  | array entries => entries.length == 0
  | tree root => root.isEmpty

def count : Dictionary κ ν → Nat
  | array entries => entries.length
  | tree root => root.count

def minKey : Dictionary κ ν → Option κ
  | array entries => entries.head?.map Prod.fst
  | tree root => FTreeSortedDictionary.minKey root

def maxKey : Dictionary κ ν → Option κ
  | array entries => entries.getLast?.map Prod.fst
  | tree root => FTreeSortedDictionary.maxKey root

section Updates
variable (cmp : κ → κ → Ordering)

def get (key : κ) : Dictionary κ ν → Option ν
  | array entries => FArraySortedDictionary.get cmp key entries
  | tree root => FTreeSortedDictionary.get cmp key root

def getPredecessorKey (key : κ) : Dictionary κ ν → Except String (Option κ)
  | array entries => FArraySortedDictionary.getPredecessorKey cmp key entries
  | tree root => FTreeSortedDictionary.getPredecessorKey cmp key root

def insertKey (key : κ) (value : ν) : Dictionary κ ν → Except String (Dictionary κ ν)
  | tree root => .ok (.tree (FTreeSortedDictionary.insertKey cmp key value root))
  | array entries =>
    match FArraySortedDictionary.findKey cmp key entries with
    | some pos => .ok (.array (entries.set pos (key, value)))
    | none =>
      if entries.length ≥ SORTED_DICTIONARY_ARRAY_TO_RB_TREE_SIZE_THRESHOLD then
        (FTreeSortedDictionary.fromDictionary cmp ((key, value) :: entries)).map .tree
      else
        let newPos := FArraySortedDictionary.findInsertPositionForKey cmp key entries
        .ok (.array (entries.insertIdx newPos (key, value)))

def removeKey (key : κ) : Dictionary κ ν → Dictionary κ ν
  | tree root => .tree (FTreeSortedDictionary.removeKey cmp key root)
  | array entries => .array (FArraySortedDictionary.removeKey cmp key entries)

def fromDictionary (dictionary : List (κ × ν)) : Except String (Dictionary κ ν) :=
  if dictionary.length ≤ SORTED_DICTIONARY_ARRAY_TO_RB_TREE_SIZE_THRESHOLD then
    let sorted := sortBy cmp dictionary
    if ascending cmp sorted then .ok (.array sorted)
    else .error FTreeSortedDictionary.sameOrdering
  else (FTreeSortedDictionary.fromDictionary cmp dictionary).map .tree

/-- Equal counts, and every value found under its key in the other dictionary. -/
def isEqual [DecidableEq ν] (self other : Dictionary κ ν) : Bool :=
  self.count = other.count && self.entries.all fun e => other.get cmp e.1 = some e.2

end Updates

section Valid
variable {cmp : κ → κ → Ordering} {d : Dictionary κ ν}

/-- The array is in order and never past the threshold; the tree is balanced and in order. -/
def Valid (cmp : κ → κ → Ordering) : Dictionary κ ν → Prop
  | array entries =>
    Sorted cmp entries ∧ entries.length ≤ SORTED_DICTIONARY_ARRAY_TO_RB_TREE_SIZE_THRESHOLD
  | tree root => FTreeSortedDictionary.Valid cmp root

theorem sorted_of_valid (valid : Valid cmp d) : Sorted cmp d.entries := by
  cases d with
  | array entries => exact valid.1
  | tree root => exact valid.1

theorem count_eq (d : Dictionary κ ν) : d.count = d.entries.length := by
  cases d with
  | array entries => rfl
  | tree root => exact count_eq_length root

theorem isEmpty_iff {d : Dictionary κ ν} : d.isEmpty = true ↔ d.entries = [] := by
  cases d with
  | array listed => simp [isEmpty, Dictionary.entries]
  | tree root => cases root <;> simp [isEmpty, Dictionary.entries, Node.isEmpty, Node.entries]

theorem minKey_eq (d : Dictionary κ ν) : d.minKey = d.entries.head?.map Prod.fst := by
  cases d with
  | array entries => rfl
  | tree root => exact FTreeSortedDictionary.minKey_eq root

theorem maxKey_eq (d : Dictionary κ ν) : d.maxKey = d.entries.getLast?.map Prod.fst := by
  cases d with
  | array entries => rfl
  | tree root => exact FTreeSortedDictionary.maxKey_eq root

variable [Std.TransCmp cmp]

theorem get_eq (valid : Valid cmp d) (key : κ) : d.get cmp key = lookup cmp key d.entries := by
  cases d with
  | array entries => exact FArraySortedDictionary.get_eq valid.1
  | tree root => exact FTreeSortedDictionary.get_eq valid.1

/-- Both representations answer the key before a stored one, and throw for another. -/
theorem getPredecessorKey_eq (valid : Valid cmp d) (key : κ) :
    (d.getPredecessorKey cmp key).toOption =
      if (d.get cmp key).isSome then some ((below cmp key d.entries).getLast?.map Prod.fst)
      else none := by
  rw [get_eq valid, lookup, Option.isSome_map]
  cases d with
  | array entries =>
    rw [getPredecessorKey, FArraySortedDictionary.getPredecessorKey_eq valid.1]
    exact apply_ite _ _ _ _
  | tree root =>
    rw [getPredecessorKey, FTreeSortedDictionary.getPredecessorKey_eq valid.1]
    exact apply_ite _ _ _ _

theorem removeKey_valid (valid : Valid cmp d) (key : κ) : Valid cmp (d.removeKey cmp key) ∧
    (d.removeKey cmp key).entries = erase cmp key d.entries := by
  cases d with
  | array entries =>
    have same : FArraySortedDictionary.removeKey cmp key entries = erase cmp key entries :=
      FArraySortedDictionary.removeKey_eq valid.1
    refine ⟨⟨?_, ?_⟩, same⟩
    · rw [same]
      exact sorted_erase valid.1
    · rw [same]
      exact Nat.le_trans (List.length_filter_le _ _) valid.2
  | tree root => exact FTreeSortedDictionary.removeKey_valid valid

/-- An insertion never throws. A key that is stored under another name gets the new name in an
    array and keeps the old one in a tree. -/
theorem insertKey_valid (valid : Valid cmp d) (key : κ) (value : ν) :
    ∃ d', d.insertKey cmp key value = .ok d' ∧ Valid cmp d' ∧
      ∃ name, (name = key ∨ name = storedKey cmp key d.entries) ∧
        d'.entries = putAs cmp name key value d.entries := by
  cases d with
  | tree root =>
    obtain ⟨valid', same⟩ := FTreeSortedDictionary.insertKey_valid valid key value
    exact ⟨_, rfl, valid', _, Or.inr rfl, same⟩
  | array entries =>
    obtain ⟨sorted, small⟩ := valid
    have sorted' : Sorted cmp (putAs cmp key key value entries) :=
      sorted_putAs sorted Std.ReflCmp.compare_self
    cases found : FArraySortedDictionary.findKey cmp key entries with
    | some pos =>
      refine ⟨.array (entries.set pos (key, value)), by rw [insertKey, found], ?_, key,
        Or.inl rfl, FArraySortedDictionary.set_present sorted found value⟩
      refine ⟨?_, by rwa [List.length_set]⟩
      rwa [FArraySortedDictionary.set_present sorted found value]
    | none =>
      have absent := FArraySortedDictionary.findKey_none sorted found
      have placed := FArraySortedDictionary.insert_absent sorted absent value
      by_cases full : entries.length ≥ SORTED_DICTIONARY_ARRAY_TO_RB_TREE_SIZE_THRESHOLD
      · have perm : ((key, value) :: entries).Perm (putAs cmp key key value entries) :=
          placed ▸ (List.perm_insertIdx _ _ (FArraySortedDictionary.position_le key entries)).symm
        have distinct : Distinct cmp ((key, value) :: entries) :=
          (distinct_perm perm).mpr (distinct_of_sorted sorted')
        obtain ⟨root, built, balanced, listed⟩ :=
          FTreeSortedDictionary.fromDictionary_distinct distinct
        have same : root.entries = putAs cmp key key value entries := by
          rw [listed]
          exact sorted_unique (sorted_sortBy distinct) sorted' (sortBy_perm.trans perm)
        refine ⟨.tree root, ?_, ⟨same ▸ sorted', balanced⟩, key, Or.inl rfl, same⟩
        simp only [insertKey, found, full, ↓reduceIte, built]
        rfl
      · refine ⟨.array (entries.insertIdx _ (key, value)), ?_, ⟨placed ▸ sorted', ?_⟩, key,
          Or.inl rfl, placed⟩
        · simp only [insertKey, found, full, ↓reduceIte]
        · rw [List.length_insertIdx_of_le_length (FArraySortedDictionary.position_le key entries)]
          omega

end Valid
end Dictionary
end FImmutableSortedDictionary
