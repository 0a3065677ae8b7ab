import ShutterEase.LLRBBalance

/-!
The dictionary that `FTreeSortedDictionary` builds at once from unordered entries. The number of
entries plus one is read as a number of ones and twos; each digit is one or two pennants of a
perfect tree, taken from the end of the sorted keys and hung under each other to the left.
-/
namespace FTreeSortedDictionary
open LLRBNode Node SortedEntries
variable {κ ν : Type}

/-- A node for the key at an index of the sorted keys; no index past their end is asked for. -/
def nodeAt (entries : List (κ × ν)) (index : Nat) (color : Color) (left right : Node κ ν) :
    Node κ ν :=
  match entries[index]? with
  | some (key, value) => valueNode key value color left right
  | none => emptyNode

def buildBalancedTree (entries : List (κ × ν)) (startIndex length : Nat) : Node κ ν :=
  let bounded := Nat.min (entries.length - startIndex) length
  if bounded = 0 then emptyNode
  else if bounded = 1 then nodeAt entries startIndex .BLACK emptyNode emptyNode
  else
    let middle := bounded / 2
    nodeAt entries (startIndex + middle) .BLACK (buildBalancedTree entries startIndex middle)
      (buildBalancedTree entries (startIndex + middle + 1) middle)
termination_by length
decreasing_by
  all_goals
    have least : Nat.min (entries.length - startIndex) length ≤ length := Nat.min_le_right _ _
    omega

/-- Both are `unsigned int` in the source, the same numbers below `2 ^ 31` keys. -/
structure Base1_2List where
  bits : Nat
  count : Nat

def base1_2List_new (length : Nat) : Base1_2List :=
  let count := Nat.log2 (length + 1)
  { count, bits := (length + 1) % 2 ^ count }

def buildPennant (entries : List (κ × ν)) (index : Nat) (color : Color) (chunkSize : Nat) :
    Node κ ν :=
  nodeAt entries (index - chunkSize) color emptyNode
    (buildBalancedTree entries (index - chunkSize + 1) (chunkSize - 1))

/-- The pennants for the digits from `current` down, the one that ends at `index` first. -/
def pennants (entries : List (κ × ν)) (bits : Nat) : (current index : Nat) → List (Node κ ν)
  | 0, _ => []
  | current + 1, index =>
    let chunkSize := 2 ^ current
    if !bits.testBit current then
      buildPennant entries index .BLACK chunkSize ::
        pennants entries bits current (index - chunkSize)
    else
      buildPennant entries index .BLACK chunkSize ::
        buildPennant entries (index - chunkSize) .RED chunkSize ::
        pennants entries bits current (index - chunkSize - chunkSize)

/-- `node.left = pennant; node = pennant`. -/
def attach (pennants : List (Node κ ν)) : Node κ ν :=
  pennants.foldr (fun pennant rest => pennant.withLeft rest) emptyNode

theorem attach_cons (pennant : Node κ ν) (rest : List (Node κ ν)) :
    attach (pennant :: rest) = pennant.withLeft (attach rest) := rfl

def rootFrom12List (base1_2List : Base1_2List) (entries : List (κ × ν)) : Node κ ν :=
  attach (pennants entries base1_2List.bits base1_2List.count entries.length)

def sameOrdering : String := "Can't create FImmutableSortedDictionary with keys with same ordering!"

/-- The entries come in whatever order the dictionary enumerates them. -/
def fromDictionary (cmp : κ → κ → Ordering) (dictionary : List (κ × ν)) :
    Except String (Node κ ν) :=
  let sorted := sortBy cmp dictionary
  if ascending cmp sorted then .ok (rootFrom12List (base1_2List_new sorted.length) sorted)
  else .error sameOrdering

section Building
variable {entries pre seg post : List (κ × ν)} {color : Color} {l r : Node κ ν}

theorem nodeAt_append (e : κ × ν) : nodeAt (pre ++ e :: post) pre.length color l r =
    valueNode e.1 e.2 color l r := by
  simp [nodeAt]

/-- A segment of `2 ^ k - 1` keys becomes a perfect tree of black nodes. -/
theorem buildBalancedTree_perfect (k : Nat) (pre seg post : List (κ × ν))
    (size : seg.length = 2 ^ k - 1) :
    Balanced .BLACK k (buildBalancedTree (pre ++ seg ++ post) pre.length (2 ^ k - 1)) ∧
      (buildBalancedTree (pre ++ seg ++ post) pre.length (2 ^ k - 1)).entries = seg := by
  induction k generalizing pre seg post with
  | zero =>
    obtain rfl : seg = [] := List.length_eq_zero_iff.mp size
    rw [buildBalancedTree]
    simp only [Nat.pow_zero, Nat.sub_self, Nat.min_zero, ↓reduceIte]
    exact ⟨.empty, rfl⟩
  | succ k ih =>
    have positive : 0 < 2 ^ k := Nat.two_pow_pos k
    have double : 2 ^ (k + 1) = 2 * 2 ^ k := by rw [Nat.pow_succ, Nat.mul_comm]
    obtain ⟨a, e, b, rfl, left, right⟩ : ∃ a e b, seg = a ++ e :: b ∧
        a.length = 2 ^ k - 1 ∧ b.length = 2 ^ k - 1 := by
      have inside : 2 ^ k - 1 < seg.length := by omega
      refine ⟨seg.take (2 ^ k - 1), seg[2 ^ k - 1], seg.drop (2 ^ k - 1 + 1), ?_, ?_, ?_⟩
      · rw [List.getElem_cons_drop, List.take_append_drop]
      · rw [List.length_take]
        omega
      · rw [List.length_drop]
        omega
    have bounded : Nat.min ((pre ++ (a ++ e :: b) ++ post).length - pre.length)
        (2 ^ (k + 1) - 1) = 2 ^ (k + 1) - 1 := by
      apply Nat.min_eq_right
      simp only [List.length_append, List.length_cons]
      omega
    have middle : (2 ^ (k + 1) - 1) / 2 = 2 ^ k - 1 := by omega
    have here : nodeAt (pre ++ (a ++ e :: b) ++ post) (pre.length + (2 ^ k - 1)) = fun color l r =>
        valueNode e.1 e.2 color l r := by
      funext color l r
      have split : pre ++ (a ++ e :: b) ++ post = (pre ++ a) ++ e :: (b ++ post) := by simp
      rw [split, ← left, ← List.length_append]
      exact nodeAt_append e
    rw [buildBalancedTree]
    simp only [bounded, middle, here]
    rw [if_neg (by omega)]
    split
    · obtain rfl : a = [] := List.length_eq_zero_iff.mp (by omega)
      obtain rfl : b = [] := List.length_eq_zero_iff.mp (by omega)
      obtain rfl : k = 0 := by
        cases k with
        | zero => rfl
        | succ k => omega
      rw [Nat.pow_zero, Nat.sub_self, Nat.add_zero] at here
      rw [here]
      exact ⟨.black .empty .empty, rfl⟩
    · obtain ⟨balanced, same⟩ := ih pre a (e :: b ++ post) left
      obtain ⟨balanced', same'⟩ := ih (pre ++ a ++ [e]) b post right
      have first : pre ++ a ++ (e :: b ++ post) = pre ++ (a ++ e :: b) ++ post := by simp
      have second : pre ++ a ++ [e] ++ b ++ post = pre ++ (a ++ e :: b) ++ post := by simp
      have start : (pre ++ a ++ [e]).length = pre.length + (2 ^ k - 1) + 1 := by
        simp only [List.length_append, left, List.length_cons, List.length_nil]
      rw [first] at balanced same
      rw [second, start] at balanced' same'
      exact ⟨.black balanced balanced', by rw [entries, same, same']⟩

theorem buildPennant_perfect (color : Color) (k : Nat) (e : κ × ν) (pre seg post : List (κ × ν))
    (size : seg.length = 2 ^ k - 1) : ∃ child, Balanced .BLACK k child ∧ child.entries = seg ∧
      buildPennant (pre ++ e :: seg ++ post) (pre.length + 2 ^ k) color (2 ^ k) =
        valueNode e.1 e.2 color emptyNode child := by
  obtain ⟨balanced, same⟩ := buildBalancedTree_perfect k (pre ++ [e]) seg post size
  refine ⟨_, balanced, same, ?_⟩
  have whole : pre ++ [e] ++ seg ++ post = pre ++ e :: (seg ++ post) := by simp
  have whole' : pre ++ e :: seg ++ post = pre ++ e :: (seg ++ post) := by simp
  rw [buildPennant, Nat.add_sub_cancel, whole', nodeAt_append, whole, List.length_append]
  rfl

/-- The digit of a number at a place, as the number of times that place is counted. -/
theorem mod_two_pow_succ (bits k : Nat) :
    bits % 2 ^ (k + 1) = bits % 2 ^ k + if bits.testBit k then 2 ^ k else 0 := by
  rw [Nat.pow_succ, Nat.mod_mul, Nat.testBit_eq_decide_div_mod_eq]
  rcases Nat.mod_two_eq_zero_or_one (bits / 2 ^ k) with zero | one
  · simp [zero]
  · simp [one]

theorem exists_chunk (k : Nat) (whole : List (κ × ν)) (long : 2 ^ k ≤ whole.length) :
    ∃ pre e seg, whole = pre ++ e :: seg ∧ seg.length = 2 ^ k - 1 := by
  have positive : 0 < 2 ^ k := Nat.two_pow_pos k
  have inside : whole.length - 2 ^ k < whole.length := by omega
  refine ⟨whole.take (whole.length - 2 ^ k), whole[whole.length - 2 ^ k],
    whole.drop (whole.length - 2 ^ k + 1), ?_, ?_⟩
  · rw [List.getElem_cons_drop, List.take_append_drop]
  · rw [List.length_drop]
    omega

/-- With ones and twos for digits, the places up to `count` count every entry once. -/
theorem pennants_balanced (bits count : Nat) (pre post : List (κ × ν))
    (size : pre.length = 2 ^ count - 1 + bits % 2 ^ count) :
    Balanced .BLACK count (attach (pennants (pre ++ post) bits count pre.length)) ∧
      (attach (pennants (pre ++ post) bits count pre.length)).entries = pre := by
  induction count generalizing pre post with
  | zero =>
    rw [Nat.pow_zero, Nat.mod_one] at size
    obtain rfl : pre = [] := List.length_eq_zero_iff.mp size
    exact ⟨.empty, rfl⟩
  | succ k ih =>
    have positive : 0 < 2 ^ k := Nat.two_pow_pos k
    have double : 2 ^ (k + 1) = 2 * 2 ^ k := by rw [Nat.pow_succ, Nat.mul_comm]
    rw [mod_two_pow_succ] at size
    obtain ⟨init, e, seg, rfl, chunk⟩ := exists_chunk k pre (by omega)
    have index : (init ++ e :: seg).length = init.length + 2 ^ k := by
      rw [List.length_append, List.length_cons, chunk]
      omega
    obtain ⟨child, balanced, same, pennant⟩ :=
      buildPennant_perfect .BLACK k e init seg post chunk
    rw [index] at size ⊢
    unfold pennants
    simp only [pennant, Nat.add_sub_cancel]
    cases digit : bits.testBit k with
    | false =>
      simp only [digit, Bool.false_eq_true, ↓reduceIte] at size
      obtain ⟨rest, listed⟩ := ih init (e :: seg ++ post) (by omega)
      have whole : init ++ (e :: seg ++ post) = init ++ e :: seg ++ post := by simp
      rw [whole] at rest listed
      simp only [Bool.not_false, ↓reduceIte, attach_cons, withLeft]
      exact ⟨.black rest balanced, by rw [entries, same, listed]⟩
    | true =>
      simp only [digit, ↓reduceIte] at size
      obtain ⟨first, f, part, rfl, chunk'⟩ := exists_chunk k init (by omega)
      have index' : (first ++ f :: part).length = first.length + 2 ^ k := by
        rw [List.length_append, List.length_cons, chunk']
        omega
      rw [index'] at size ⊢
      obtain ⟨child', balanced', same', pennant'⟩ :=
        buildPennant_perfect .RED k f first part (e :: seg ++ post) chunk'
      obtain ⟨rest, listed⟩ := ih first (f :: part ++ (e :: seg ++ post)) (by omega)
      have whole : first ++ f :: part ++ (e :: seg ++ post) =
          first ++ f :: part ++ e :: seg ++ post := by simp
      have whole' : first ++ (f :: part ++ (e :: seg ++ post)) =
          first ++ f :: part ++ e :: seg ++ post := by simp
      rw [whole] at pennant'
      rw [whole'] at rest listed
      simp only [pennant', Nat.add_sub_cancel, Bool.not_true, Bool.false_eq_true, ↓reduceIte,
        attach_cons, withLeft]
      refine ⟨.black (.red rest balanced') balanced, ?_⟩
      simp only [entries, same, same', listed]

theorem rootFrom12List_balanced (entries : List (κ × ν)) :
    Balanced .BLACK (Nat.log2 (entries.length + 1))
        (rootFrom12List (base1_2List_new entries.length) entries) ∧
      (rootFrom12List (base1_2List_new entries.length) entries).entries = entries := by
  have lower : 2 ^ Nat.log2 (entries.length + 1) ≤ entries.length + 1 :=
    Nat.log2_self_le (Nat.succ_ne_zero _)
  have upper : entries.length + 1 < 2 ^ (Nat.log2 (entries.length + 1) + 1) :=
    Nat.lt_log2_self
  have built := pennants_balanced ((entries.length + 1) % 2 ^ Nat.log2 (entries.length + 1))
    (Nat.log2 (entries.length + 1)) entries []
  rw [List.append_nil] at built
  apply built
  rw [Nat.mod_mod, Nat.mod_eq_sub_mod lower, Nat.mod_eq_of_lt]
  · omega
  · rw [Nat.pow_succ] at upper
    omega

end Building

section Whole
variable {cmp : κ → κ → Ordering} [Std.TransCmp cmp] {dictionary : List (κ × ν)}

/-- Distinct keys become a tree that is balanced and lists them in order. -/
theorem fromDictionary_distinct (distinct : Distinct cmp dictionary) :
    ∃ root, fromDictionary cmp dictionary = .ok root ∧ (∃ n, Balanced .BLACK n root) ∧
      root.entries = sortBy cmp dictionary := by
  have built := rootFrom12List_balanced (sortBy cmp dictionary)
  refine ⟨_, ?_, ⟨_, built.1⟩, built.2⟩
  rw [fromDictionary, if_pos (ascending_iff.mpr (sorted_sortBy distinct))]

theorem fromDictionary_repeated (repeated : ¬ Distinct cmp dictionary) :
    fromDictionary cmp dictionary = .error sameOrdering := by
  rw [fromDictionary, if_neg]
  intro sorted
  exact repeated ((distinct_perm sortBy_perm).mp (distinct_of_sorted (ascending_iff.mp sorted)))

theorem fromDictionary_perm {other : List (κ × ν)} (perm : dictionary.Perm other) :
    fromDictionary cmp dictionary = fromDictionary cmp other := by
  by_cases distinct : Distinct cmp dictionary
  · have same : sortBy cmp dictionary = sortBy cmp other :=
      sorted_unique (sorted_sortBy distinct) (sorted_sortBy ((distinct_perm perm).mp distinct))
        (sortBy_perm.trans (perm.trans sortBy_perm.symm))
    rw [fromDictionary, fromDictionary, same]
  · rw [fromDictionary_repeated distinct,
      fromDictionary_repeated fun h => distinct ((distinct_perm perm).mpr h)]

end Whole
end FTreeSortedDictionary
