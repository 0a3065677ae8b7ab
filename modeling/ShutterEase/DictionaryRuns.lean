import ShutterEase.KeyComparator
import ShutterEase.SortedDictionary

/-!
Runs of insertions and removals on the children of a node. What a dictionary answers is told by
the commands alone: neither the array, nor the tree, nor the step from one to the other shows.
-/
namespace DictionaryRuns
open LLRBNode Node SortedEntries FImmutableSortedDictionary Dictionary KeyComparator
variable {κ ν : Type}

inductive Command (κ ν : Type) where
  | insertKey (key : κ) (value : ν)
  | removeKey (key : κ)

section Runs
variable (cmp : κ → κ → Ordering)

def step (d : Dictionary κ ν) : Command κ ν → Except String (Dictionary κ ν)
  | .insertKey key value => d.insertKey cmp key value
  | .removeKey key => .ok (d.removeKey cmp key)

def run (commands : List (Command κ ν)) (d : Dictionary κ ν) : Except String (Dictionary κ ν) :=
  commands.foldlM (step cmp) d

/-- What a command does to a map in which keys that compare alike are one key. -/
def effect (map : κ → Option ν) : Command κ ν → κ → Option ν
  | .insertKey key value => fun k => if cmp k key = .eq then some value else map k
  | .removeKey key => fun k => if cmp k key = .eq then none else map k

def mapAfter (commands : List (Command κ ν)) : κ → Option ν :=
  commands.foldl (effect cmp) fun _ => none

/-- The loop of `get` with a comparator that acts. -/
def getWith {m : Type → Type} [Monad m] {κ ν : Type} (comparator : κ → κ → m Ordering) (key : κ) :
    Node κ ν → m (Option ν)
  | emptyNode => pure none
  | valueNode k v _ left right => do
    match ← comparator key k with
    | .eq => pure (some v)
    | .lt => getWith comparator key left
    | .gt => getWith comparator key right

/-- The comparator with its calls counted. -/
def counted (j k : κ) : StateM Nat Ordering := do
  modify (· + 1)
  pure (cmp j k)

/-- How often `get` asks the comparator. -/
def comparisons (key : κ) : Node κ ν → Nat
  | emptyNode => 0
  | valueNode k _ _ left right =>
    match cmp key k with
    | .eq => 1
    | .lt => comparisons key left + 1
    | .gt => comparisons key right + 1

/-- What the header file asks of the two representations. -/
def WellShaped (description : ν → String) : Dictionary κ ν → Prop
  | .array listed => listed.length ≤ SORTED_DICTIONARY_ARRAY_TO_RB_TREE_SIZE_THRESHOLD
  | .tree root => root.isRed = false ∧ root.checkMaxDepth description = .ok true ∧
      ∀ key, ((getWith (counted cmp) key root).run 0).2 ≤ 2 * Nat.log2 (root.count + 1)

/-- The greatest stored key before another, or none where there is no such key. -/
def IsPredecessor (map : κ → Option ν) (key : κ) : Option κ → Prop
  | none => ∀ j, (map j).isSome → cmp j key ≠ .lt
  | some k => (map k).isSome ∧ cmp k key = .lt ∧
      ∀ j, (map j).isSome → cmp j key = .lt → cmp j k ≠ .gt

end Runs

section Generic
variable {cmp : κ → κ → Ordering} [Std.TransCmp cmp] {d : Dictionary κ ν}

theorem step_refines (valid : Valid cmp d) (command : Command κ ν) :
    ∃ d', step cmp d command = .ok d' ∧ Valid cmp d' ∧
      d'.get cmp = effect cmp (d.get cmp) command := by
  have sorted := sorted_of_valid valid
  cases command with
  | insertKey key value =>
    obtain ⟨d', inserted, valid', name, given, same⟩ := insertKey_valid valid key value
    have named := named_eq given
    refine ⟨d', inserted, valid', funext fun k => ?_⟩
    rw [get_eq valid', same, lookup_putAs sorted named, ← get_eq valid]
    rfl
  | removeKey key =>
    obtain ⟨valid', same⟩ := removeKey_valid valid key
    refine ⟨_, rfl, valid', funext fun k => ?_⟩
    rw [get_eq valid', same, lookup_erase sorted, ← get_eq valid]
    rfl

theorem run_refines (commands : List (Command κ ν)) (valid : Valid cmp d) :
    ∃ d', run cmp commands d = .ok d' ∧ Valid cmp d' ∧
      d'.get cmp = commands.foldl (effect cmp) (d.get cmp) := by
  induction commands generalizing d with
  | nil => exact ⟨d, rfl, valid, rfl⟩
  | cons command rest ih =>
    obtain ⟨d', stepped, valid', same⟩ := step_refines valid command
    obtain ⟨last, ran, whole, kept⟩ := ih valid'
    refine ⟨last, ?_, whole, ?_⟩
    · rw [run, List.foldlM_cons, stepped]
      exact ran
    · rw [kept, same, List.foldl_cons]

theorem run_from_empty (cmp : κ → κ → Ordering) [Std.TransCmp cmp] (commands : List (Command κ ν)) :
    ∃ d, run cmp commands dictionaryWithComparator = .ok d ∧ Valid cmp d ∧
      d.get cmp = mapAfter cmp commands :=
  run_refines commands ⟨List.Pairwise.nil, Nat.zero_le _⟩

/-- What is found is what is listed, under any name of its key. -/
theorem get_eq_some (valid : Valid cmp d) {key : κ} {value : ν} :
    d.get cmp key = some value ↔ ∃ e ∈ d.entries, cmp key e.1 = .eq ∧ e.2 = value := by
  rw [get_eq valid, lookup, Option.map_eq_some_iff]
  constructor
  · rintro ⟨e, found, rfl⟩
    obtain ⟨member, same⟩ := (find_eq_some_iff (sorted_of_valid valid)).mp found
    exact ⟨e, member, same, rfl⟩
  · rintro ⟨e, member, same, rfl⟩
    exact ⟨e, (find_eq_some_iff (sorted_of_valid valid)).mpr ⟨member, same⟩, rfl⟩

theorem get_of_mem (valid : Valid cmp d) {e : κ × ν} (member : e ∈ d.entries) :
    d.get cmp e.1 = some e.2 :=
  (get_eq_some valid).mpr ⟨e, member, Std.ReflCmp.compare_self, rfl⟩

omit [Std.TransCmp cmp] in
/-- Counting changes nothing in the answer. -/
theorem getWith_counted (key : κ) (t : Node κ ν) (n : Nat) :
    (getWith (counted cmp) key t).run n =
      (FTreeSortedDictionary.get cmp key t, n + comparisons cmp key t) := by
  induction t generalizing n with
  | emptyNode => rfl
  | valueNode k v c left right ihl ihr =>
    have asked : (getWith (counted cmp) key (valueNode k v c left right)).run n =
        (match cmp key k with
          | .eq => (pure (some v) : StateM Nat (Option ν))
          | .lt => getWith (counted cmp) key left
          | .gt => getWith (counted cmp) key right).run (n + 1) := rfl
    rw [asked, FTreeSortedDictionary.get, comparisons]
    cases cmp key k with
    | eq => rfl
    | lt =>
      simp only [ihl]
      rw [Nat.add_assoc, Nat.add_comm 1]
    | gt =>
      simp only [ihr]
      rw [Nat.add_assoc, Nat.add_comm 1]

omit [Std.TransCmp cmp] in
theorem comparisons_le {c : Color} {n : Nat} {t : Node κ ν} (h : Balanced c n t) (key : κ) :
    comparisons cmp key t ≤ 2 * n + (1 - c.depth) := by
  induction h with
  | empty => exact Nat.zero_le _
  | @red k v m l r hl hr ihl ihr =>
    simp only [Color.depth] at ihl ihr ⊢
    unfold comparisons
    split <;> omega
  | @black k v m c l r hl hr ihl ihr =>
    simp only [Color.depth] at ihr ⊢
    unfold comparisons
    split <;> omega

omit [Std.TransCmp cmp] in
theorem wellShaped_of_valid (valid : Valid cmp d) (description : ν → String) :
    WellShaped cmp description d := by
  cases d with
  | array listed => exact valid.2
  | tree root =>
    obtain ⟨-, n, balanced⟩ := valid
    have small := pow_depth_le balanced
    refine ⟨isRed_of_balanced balanced, ?_, fun key => ?_⟩
    · have checked : root.check description = .ok n := (check_iff description).mpr ⟨_, balanced⟩
      simp [checkMaxDepth, checked, bind, Except.bind, small]
    · have depth : n ≤ Nat.log2 (root.count + 1) :=
        (Nat.le_log2 (Nat.succ_ne_zero _)).mpr small
      have bound : comparisons cmp key root ≤ 2 * n + (1 - Color.BLACK.depth) :=
        comparisons_le balanced key
      simp only [Color.depth] at bound
      rw [getWith_counted]
      omega

/-- A command makes at most one entry more. -/
theorem length_step (valid : Valid cmp d) {command : Command κ ν} {d' : Dictionary κ ν}
    (stepped : step cmp d command = .ok d') : d'.entries.length ≤ d.entries.length + 1 := by
  cases command with
  | insertKey key value =>
    obtain ⟨last, inserted, -, name, -, same⟩ := insertKey_valid valid key value
    cases inserted.symm.trans stepped
    rw [same]
    exact length_putAs_le name key value d.entries
  | removeKey key =>
    cases stepped
    rw [(removeKey_valid valid key).2]
    exact Nat.le_succ_of_le (List.length_filter_le _ _)

theorem length_run (valid : Valid cmp d) {commands : List (Command κ ν)} {d' : Dictionary κ ν}
    (ran : run cmp commands d = .ok d') :
    d'.entries.length ≤ d.entries.length + commands.length := by
  induction commands generalizing d with
  | nil =>
    cases ran
    exact Nat.le_refl _
  | cons command rest ih =>
    obtain ⟨next, stepped, valid', -⟩ := step_refines valid command
    rw [run, List.foldlM_cons, stepped] at ran
    have first := length_step valid stepped
    have later := ih valid' ran
    rw [List.length_cons]
    omega

end Generic

section Equality
variable {cmp : κ → κ → Ordering} [Std.TransCmp cmp] {d d' : Dictionary κ ν}

/-- Entries that another dictionary holds as well stand there apart from each other. -/
theorem exists_image (valid : Valid cmp d) (valid' : Valid cmp d')
    (contained : ∀ e ∈ d.entries, d'.get cmp e.1 = some e.2) :
    ∃ image : κ × ν → κ × ν, (d.entries.map image).Subperm d'.entries ∧
      ∀ e ∈ d.entries, cmp e.1 (image e).1 = .eq ∧ (image e).2 = e.2 := by
  have there : ∀ e, e ∈ d.entries → ∃ f, f ∈ d'.entries ∧ cmp e.1 f.1 = .eq ∧ f.2 = e.2 :=
    fun e member => (get_eq_some valid').mp (contained e member)
  have image : ∃ image : κ × ν → κ × ν, ∀ e ∈ d.entries,
      image e ∈ d'.entries ∧ cmp e.1 (image e).1 = .eq ∧ (image e).2 = e.2 := by
    classical
    refine ⟨fun e => if member : e ∈ d.entries then (there e member).choose else e, ?_⟩
    intro e member
    simp only [member, ↓reduceDIte]
    exact (there e member).choose_spec
  obtain ⟨image, spec⟩ := image
  have apart : (d.entries.map image).Nodup := by
    refine List.pairwise_map.mpr ((sorted_of_valid valid).imp_of_mem ?_)
    intro e f one two lt same
    have alike := Std.TransCmp.eq_trans (same ▸ (spec e one).2.1)
      (Std.OrientedCmp.eq_symm (spec f two).2.1)
    simp [lt] at alike
  have inside : d.entries.map image ⊆ d'.entries := by
    intro f listed
    obtain ⟨e, member, rfl⟩ := List.mem_map.mp listed
    exact (spec e member).1
  exact ⟨image, List.subperm_of_subset apart inside, fun e member => (spec e member).2⟩

theorem length_le_of_contained (valid : Valid cmp d) (valid' : Valid cmp d')
    (contained : ∀ e ∈ d.entries, d'.get cmp e.1 = some e.2) :
    d.entries.length ≤ d'.entries.length := by
  obtain ⟨image, part, -⟩ := exists_image valid valid' contained
  simpa using part.length_le

/-- Where the entries are as many, none of the other dictionary's is left over. -/
theorem mem_of_contained (valid : Valid cmp d) (valid' : Valid cmp d')
    (long : d.entries.length = d'.entries.length)
    (contained : ∀ e ∈ d.entries, d'.get cmp e.1 = some e.2) :
    ∀ f ∈ d'.entries, ∃ e ∈ d.entries, cmp e.1 f.1 = .eq ∧ e.2 = f.2 := by
  obtain ⟨image, part, spec⟩ := exists_image valid valid' contained
  have all := part.perm_of_length_le (by simp [long])
  intro f listed
  obtain ⟨e, member, rfl⟩ := List.mem_map.mp (all.mem_iff.mpr listed)
  exact ⟨e, member, (spec e member).1, (spec e member).2.symm⟩

theorem isEqual_iff [DecidableEq ν] (valid : Valid cmp d) (valid' : Valid cmp d') :
    d.isEqual cmp d' = true ↔ d.get cmp = d'.get cmp := by
  simp only [isEqual, Bool.and_eq_true, decide_eq_true_eq, List.all_eq_true, count_eq]
  constructor
  · rintro ⟨long, contained⟩
    funext key
    apply Option.ext
    intro value
    rw [get_eq_some valid, get_eq_some valid']
    constructor
    · rintro ⟨e, member, same, rfl⟩
      obtain ⟨f, stored, alike, value⟩ := (get_eq_some valid').mp (contained e member)
      exact ⟨f, stored, Std.TransCmp.eq_trans same alike, value⟩
    · rintro ⟨f, stored, same, rfl⟩
      obtain ⟨e, member, alike, value⟩ := mem_of_contained valid valid' long contained f stored
      exact ⟨e, member, Std.TransCmp.eq_trans same (Std.OrientedCmp.eq_symm alike), value⟩
  · intro same
    have contained : ∀ {d d' : Dictionary κ ν}, Valid cmp d → d.get cmp = d'.get cmp →
        ∀ e ∈ d.entries, d'.get cmp e.1 = some e.2 := by
      intro d d' valid same e member
      exact (congrFun same e.1).symm.trans (get_of_mem valid member)
    refine ⟨Nat.le_antisymm ?_ ?_, contained valid same⟩
    · exact length_le_of_contained valid valid' (contained valid same)
    · exact length_le_of_contained valid' valid (contained valid' same.symm)

end Equality

section Neighbours
variable {cmp : κ → κ → Ordering} [Std.TransCmp cmp] {d : Dictionary κ ν}

theorem stored_iff (valid : Valid cmp d) {key : κ} :
    (d.get cmp key).isSome ↔ ∃ e ∈ d.entries, cmp key e.1 = .eq := by
  rw [Option.isSome_iff_exists]
  constructor
  · rintro ⟨value, found⟩
    obtain ⟨e, member, same, -⟩ := (get_eq_some valid).mp found
    exact ⟨e, member, same⟩
  · rintro ⟨e, member, same⟩
    exact ⟨e.2, (get_eq_some valid).mpr ⟨e, member, same, rfl⟩⟩

/-- The last of the entries below a key is the greatest key before it. -/
theorem isPredecessor_last (valid : Valid cmp d) (key : κ) :
    IsPredecessor cmp (d.get cmp) key ((below cmp key d.entries).getLast?.map Prod.fst) := by
  have before : ∀ j e, e ∈ d.entries → cmp j e.1 = .eq → cmp j key = .lt →
      e ∈ below cmp key d.entries := by
    intro j e member same lt
    refine List.mem_filter.mpr ⟨member, decide_eq_true (Std.OrientedCmp.gt_of_lt ?_)⟩
    exact Std.TransCmp.lt_of_eq_of_lt (Std.OrientedCmp.eq_symm same) lt
  rcases List.eq_nil_or_concat' (below cmp key d.entries) with none | ⟨init, last, some⟩
  · rw [none]
    intro j stored lt
    obtain ⟨e, member, same⟩ := (stored_iff valid).mp stored
    have listed := before j e member same lt
    simp [none] at listed
  · rw [some, List.getLast?_concat]
    have inside : last ∈ below cmp key d.entries := by simp [some]
    obtain ⟨member, gt⟩ := List.mem_filter.mp inside
    have sorted : Sorted cmp (init ++ [last]) := some ▸ (sorted_of_valid valid).filter _
    refine ⟨(stored_iff valid).mpr ⟨last, member, Std.ReflCmp.compare_self⟩,
      Std.OrientedCmp.lt_of_gt (of_decide_eq_true gt), fun j stored lt => ?_⟩
    obtain ⟨e, there, same⟩ := (stored_iff valid).mp stored
    have listed := before j e there same lt
    rw [some, List.mem_append, List.mem_singleton] at listed
    rcases listed with early | rfl
    · have less := (sorted_split sorted).2.2.1 e early
      simp [Std.TransCmp.lt_of_eq_of_lt same less]
    · simp [same]

end Neighbours

section Building
variable {cmp : κ → κ → Ordering} [Std.TransCmp cmp] {dictionary other : List (κ × ν)}

theorem fromDictionary_distinct (distinct : Distinct cmp dictionary) :
    ∃ d, fromDictionary cmp dictionary = .ok d ∧ Valid cmp d ∧ d.entries.Perm dictionary := by
  have sorted := sorted_sortBy distinct
  by_cases small : dictionary.length ≤ SORTED_DICTIONARY_ARRAY_TO_RB_TREE_SIZE_THRESHOLD
  · refine ⟨.array (sortBy cmp dictionary), ?_, ⟨sorted, ?_⟩, sortBy_perm⟩
    · rw [fromDictionary, if_pos small, if_pos (ascending_iff.mpr sorted)]
    · rwa [sortBy_perm.length_eq]
  · obtain ⟨root, built, balanced, listed⟩ :=
      FTreeSortedDictionary.fromDictionary_distinct distinct
    refine ⟨.tree root, ?_, ⟨listed ▸ sorted, balanced⟩, ?_⟩
    · rw [fromDictionary, if_neg small, built]
      rfl
    · change root.entries.Perm dictionary
      rw [listed]
      exact sortBy_perm

theorem fromDictionary_repeated (repeated : ¬ Distinct cmp dictionary) :
    fromDictionary cmp dictionary = .error FTreeSortedDictionary.sameOrdering := by
  unfold fromDictionary
  split
  · apply if_neg
    intro sorted
    have perm : (sortBy cmp dictionary).Perm dictionary := sortBy_perm
    exact repeated ((distinct_perm perm).mp (distinct_of_sorted (ascending_iff.mp sorted)))
  · rw [FTreeSortedDictionary.fromDictionary_repeated repeated]
    rfl

theorem fromDictionary_perm (perm : dictionary.Perm other) (distinct : Distinct cmp dictionary) :
    fromDictionary cmp dictionary = fromDictionary cmp other := by
  have same : sortBy cmp dictionary = sortBy cmp other :=
    sorted_unique (sorted_sortBy distinct) (sorted_sortBy ((distinct_perm perm).mp distinct))
      (sortBy_perm.trans (perm.trans sortBy_perm.symm))
  rw [fromDictionary, fromDictionary, same, perm.length_eq,
    FTreeSortedDictionary.fromDictionary_perm perm]

end Building

/-! The dictionaries that hold a node's children are ordered by `FUtilities.keyComparator`. -/
section Children
variable {ν : Type}

theorem children_answer_as_map (commands : List (Command String ν)) :
    ∃ d, run keyComparator commands dictionaryWithComparator = .ok d ∧
      d.get keyComparator = mapAfter keyComparator commands ∧ Sorted keyComparator d.entries ∧
      (∀ key value, mapAfter keyComparator commands key = some value ↔
        ∃ e ∈ d.entries, keyComparator key e.1 = .eq ∧ e.2 = value) ∧
      d.count = d.entries.length ∧ d.count ≤ commands.length ∧
      d.minKey = d.entries.head?.map Prod.fst ∧ d.maxKey = d.entries.getLast?.map Prod.fst := by
  obtain ⟨d, ran, valid, same⟩ := run_from_empty keyComparator commands
  refine ⟨d, ran, same, sorted_of_valid valid, fun key value => ?_, count_eq d, ?_, minKey_eq d,
    maxKey_eq d⟩
  · rw [← same]
    exact get_eq_some valid
  · have empty : Valid keyComparator (dictionaryWithComparator : Dictionary String ν) :=
      ⟨List.Pairwise.nil, Nat.zero_le _⟩
    rw [count_eq]
    exact (length_run empty ran).trans (Nat.le_of_eq (Nat.zero_add _))

theorem children_stay_balanced (commands : List (Command String ν)) (description : ν → String) :
    ∃ d, run keyComparator commands dictionaryWithComparator = .ok d ∧
      WellShaped keyComparator description d := by
  obtain ⟨d, ran, valid, -⟩ := run_from_empty keyComparator commands
  exact ⟨d, ran, wellShaped_of_valid valid description⟩

theorem children_equal_iff [DecidableEq ν] (commands others : List (Command String ν)) :
    ∃ d d', run keyComparator commands dictionaryWithComparator = .ok d ∧
      run keyComparator others dictionaryWithComparator = .ok d' ∧
      (d.isEqual keyComparator d' = true ↔
        mapAfter keyComparator commands = mapAfter keyComparator others) := by
  obtain ⟨d, ran, valid, same⟩ := run_from_empty keyComparator commands
  obtain ⟨d', ran', valid', same'⟩ := run_from_empty keyComparator others
  refine ⟨d, d', ran, ran', ?_⟩
  rw [isEqual_iff valid valid', same, same']

theorem children_predecessor (commands : List (Command String ν)) (key : String) :
    ∃ d, run keyComparator commands dictionaryWithComparator = .ok d ∧
      (mapAfter keyComparator commands key = none →
        ∃ text, d.getPredecessorKey keyComparator key = .error text) ∧
      ((mapAfter keyComparator commands key).isSome →
        ∃ before, d.getPredecessorKey keyComparator key = .ok before ∧
          IsPredecessor keyComparator (mapAfter keyComparator commands) key before) := by
  obtain ⟨d, ran, valid, same⟩ := run_from_empty keyComparator commands
  refine ⟨d, ran, ?_⟩
  have answer := getPredecessorKey_eq valid key
  have last := isPredecessor_last valid key
  rw [← same]
  cases asked : d.getPredecessorKey keyComparator key with
  | error text =>
    rw [asked] at answer
    refine ⟨fun _ => ⟨text, rfl⟩, fun stored => ?_⟩
    simp [stored, Except.toOption] at answer
  | ok before =>
    rw [asked] at answer
    refine ⟨fun absent => ?_, fun stored => ⟨before, rfl, ?_⟩⟩
    · simp [absent, Except.toOption] at answer
    · simp only [stored, Except.toOption, ↓reduceIte, Option.some.injEq] at answer
      exact answer ▸ last

/-- Entries enumerated in any order make one dictionary, or are refused for a repeated key. -/
theorem children_from_dictionary (dictionary : List (String × ν)) :
    (Distinct keyComparator dictionary ∧ ∃ d, Valid keyComparator d ∧
        d.entries.Perm dictionary ∧
        ∀ other, other.Perm dictionary → fromDictionary keyComparator other = .ok d) ∨
      ¬ Distinct keyComparator dictionary ∧
        ∀ other, other.Perm dictionary →
          fromDictionary keyComparator other = .error FTreeSortedDictionary.sameOrdering := by
  by_cases distinct : Distinct keyComparator dictionary
  · obtain ⟨d, built, valid, perm⟩ := fromDictionary_distinct distinct
    refine Or.inl ⟨distinct, d, valid, perm, fun other reordered => ?_⟩
    rw [← built]
    exact fromDictionary_perm reordered ((distinct_perm reordered).mpr distinct)
  · refine Or.inr ⟨distinct, fun other reordered => fromDictionary_repeated fun h => ?_⟩
    exact distinct ((distinct_perm reordered).mp h)

end Children
end DictionaryRuns
