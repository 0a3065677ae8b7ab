import Mathlib.Data.List.Sort

/-!
Entries kept in the order of a three-way comparator. Keys that compare alike are one key to the
comparator, whatever else tells them apart, so an entry is found under any of its names.
-/
namespace SortedEntries
variable {κ ν : Type} (cmp : κ → κ → Ordering)

def Sorted (entries : List (κ × ν)) : Prop := entries.Pairwise fun e f => cmp e.1 f.1 = .lt

def find (k : κ) (entries : List (κ × ν)) : Option (κ × ν) :=
  entries.find? fun e => decide (cmp k e.1 = .eq)

def lookup (k : κ) (entries : List (κ × ν)) : Option ν := (find cmp k entries).map Prod.snd

/-- The name under which a key is stored already, or else the key itself. -/
def storedKey (k : κ) (entries : List (κ × ν)) : κ :=
  ((find cmp k entries).map Prod.fst).getD k

def below (k : κ) (entries : List (κ × ν)) : List (κ × ν) :=
  entries.filter fun e => decide (cmp k e.1 = .gt)

def above (k : κ) (entries : List (κ × ν)) : List (κ × ν) :=
  entries.filter fun e => decide (cmp k e.1 = .lt)

def putAs (name k : κ) (v : ν) (entries : List (κ × ν)) : List (κ × ν) :=
  below cmp k entries ++ (name, v) :: above cmp k entries

def erase (k : κ) (entries : List (κ × ν)) : List (κ × ν) :=
  entries.filter fun e => !decide (cmp k e.1 = .eq)

section Sides
variable {cmp} {k : κ} {entries : List (κ × ν)}

theorem find_eq_none (other : ∀ e ∈ entries, cmp k e.1 ≠ .eq) : find cmp k entries = none := by
  simpa [find, List.find?_eq_none] using other

theorem erase_eq_self (other : ∀ e ∈ entries, cmp k e.1 ≠ .eq) : erase cmp k entries = entries := by
  simpa [erase, List.filter_eq_self] using other

theorem below_eq_self (less : ∀ e ∈ entries, cmp k e.1 = .gt) : below cmp k entries = entries := by
  simpa [below, List.filter_eq_self] using less

theorem below_eq_nil (other : ∀ e ∈ entries, cmp k e.1 ≠ .gt) : below cmp k entries = [] := by
  simpa [below, List.filter_eq_nil_iff] using other

theorem above_eq_self (less : ∀ e ∈ entries, cmp k e.1 = .lt) : above cmp k entries = entries := by
  simpa [above, List.filter_eq_self] using less

theorem above_eq_nil (other : ∀ e ∈ entries, cmp k e.1 ≠ .lt) : above cmp k entries = [] := by
  simpa [above, List.filter_eq_nil_iff] using other

end Sides

/-! What each operation does at an entry: it goes to one side of it, or stays at it. -/
section Pivot
variable {cmp} {k : κ} {l r : List (κ × ν)} {e : κ × ν}

theorem sorted_split (sorted : Sorted cmp (l ++ e :: r)) :
    Sorted cmp l ∧ Sorted cmp r ∧ (∀ f ∈ l, cmp f.1 e.1 = .lt) ∧ ∀ f ∈ r, cmp e.1 f.1 = .lt := by
  obtain ⟨left, right, apart⟩ := List.pairwise_append.mp sorted
  obtain ⟨after, right⟩ := List.pairwise_cons.mp right
  exact ⟨left, right, fun f member => apart f member e List.mem_cons_self, after⟩

variable [Std.TransCmp cmp]

theorem gt_of_lt_of_ge {x y z : κ} (first : cmp x y = .lt) (next : cmp z y ≠ .lt) :
    cmp z x = .gt := by
  have le : (cmp y z).isLE := by
    rw [← Std.OrientedCmp.isGE_iff_isLE]
    cases h : cmp z y <;> simp_all
  exact Std.OrientedCmp.gt_of_lt (Std.TransCmp.lt_of_lt_of_isLE first le)

theorem left_greater (sorted : Sorted cmp (l ++ e :: r)) (ge : cmp k e.1 ≠ .lt) :
    ∀ f ∈ l, cmp k f.1 = .gt := by
  intro f member
  exact gt_of_lt_of_ge ((sorted_split sorted).2.2.1 f member) ge

theorem right_less (sorted : Sorted cmp (l ++ e :: r)) (le : cmp k e.1 ≠ .gt) :
    ∀ f ∈ r, cmp k f.1 = .lt := by
  intro f member
  have after := (sorted_split sorted).2.2.2 f member
  have first : (cmp k e.1).isLE := by cases h : cmp k e.1 <;> simp_all
  exact Std.TransCmp.lt_of_isLE_of_lt first after

theorem find_less (sorted : Sorted cmp (l ++ e :: r)) (lt : cmp k e.1 = .lt) :
    find cmp k (l ++ e :: r) = find cmp k l := by
  have right := right_less sorted (show cmp k e.1 ≠ .gt by simp [lt])
  have none_right : find cmp k r = none := find_eq_none fun f member => by simp [right f member]
  simp only [find] at none_right ⊢
  simp [List.find?_append, lt, none_right]

theorem find_greater (sorted : Sorted cmp (l ++ e :: r)) (gt : cmp k e.1 = .gt) :
    find cmp k (l ++ e :: r) = find cmp k r := by
  have left := left_greater sorted (show cmp k e.1 ≠ .lt by simp [gt])
  have none_left : find cmp k l = none := find_eq_none fun f member => by simp [left f member]
  simp only [find] at none_left ⊢
  simp [List.find?_append, gt, none_left]

theorem find_here (sorted : Sorted cmp (l ++ e :: r)) (eq : cmp k e.1 = .eq) :
    find cmp k (l ++ e :: r) = some e := by
  have left := left_greater sorted (show cmp k e.1 ≠ .lt by simp [eq])
  have none_left : find cmp k l = none := find_eq_none fun f member => by simp [left f member]
  simp only [find] at none_left ⊢
  simp [List.find?_append, eq, none_left]

theorem storedKey_less (sorted : Sorted cmp (l ++ e :: r)) (lt : cmp k e.1 = .lt) :
    storedKey cmp k (l ++ e :: r) = storedKey cmp k l := by
  rw [storedKey, storedKey, find_less sorted lt]

theorem storedKey_greater (sorted : Sorted cmp (l ++ e :: r)) (gt : cmp k e.1 = .gt) :
    storedKey cmp k (l ++ e :: r) = storedKey cmp k r := by
  rw [storedKey, storedKey, find_greater sorted gt]

theorem storedKey_here (sorted : Sorted cmp (l ++ e :: r)) (eq : cmp k e.1 = .eq) :
    storedKey cmp k (l ++ e :: r) = e.1 := by
  rw [storedKey, find_here sorted eq, Option.map_some, Option.getD_some]

theorem below_less (sorted : Sorted cmp (l ++ e :: r)) (lt : cmp k e.1 = .lt) :
    below cmp k (l ++ e :: r) = below cmp k l := by
  have right := right_less sorted (show cmp k e.1 ≠ .gt by simp [lt])
  have gone : below cmp k r = [] := below_eq_nil fun f member => by simp [right f member]
  simp only [below] at gone ⊢
  simp [lt, gone]

theorem below_greater (sorted : Sorted cmp (l ++ e :: r)) (gt : cmp k e.1 = .gt) :
    below cmp k (l ++ e :: r) = l ++ e :: below cmp k r := by
  have left := left_greater sorted (show cmp k e.1 ≠ .lt by simp [gt])
  have kept : below cmp k l = l := below_eq_self left
  simp only [below] at kept ⊢
  simp [gt, kept]

theorem below_here (sorted : Sorted cmp (l ++ e :: r)) (eq : cmp k e.1 = .eq) :
    below cmp k (l ++ e :: r) = l := by
  have left := left_greater sorted (show cmp k e.1 ≠ .lt by simp [eq])
  have right := right_less sorted (show cmp k e.1 ≠ .gt by simp [eq])
  have kept : below cmp k l = l := below_eq_self left
  have gone : below cmp k r = [] := below_eq_nil fun f member => by simp [right f member]
  simp only [below] at kept gone ⊢
  simp [eq, kept, gone]

theorem above_less (sorted : Sorted cmp (l ++ e :: r)) (lt : cmp k e.1 = .lt) :
    above cmp k (l ++ e :: r) = above cmp k l ++ e :: r := by
  have right := right_less sorted (show cmp k e.1 ≠ .gt by simp [lt])
  have kept : above cmp k r = r := above_eq_self right
  simp only [above] at kept ⊢
  simp [lt, kept]

theorem above_greater (sorted : Sorted cmp (l ++ e :: r)) (gt : cmp k e.1 = .gt) :
    above cmp k (l ++ e :: r) = above cmp k r := by
  have left := left_greater sorted (show cmp k e.1 ≠ .lt by simp [gt])
  have gone : above cmp k l = [] := above_eq_nil fun f member => by simp [left f member]
  simp only [above] at gone ⊢
  simp [gt, gone]

theorem above_here (sorted : Sorted cmp (l ++ e :: r)) (eq : cmp k e.1 = .eq) :
    above cmp k (l ++ e :: r) = r := by
  have left := left_greater sorted (show cmp k e.1 ≠ .lt by simp [eq])
  have right := right_less sorted (show cmp k e.1 ≠ .gt by simp [eq])
  have gone : above cmp k l = [] := above_eq_nil fun f member => by simp [left f member]
  have kept : above cmp k r = r := above_eq_self right
  simp only [above] at gone kept ⊢
  simp [eq, gone, kept]

theorem putAs_less (sorted : Sorted cmp (l ++ e :: r)) (lt : cmp k e.1 = .lt) (name : κ) (v : ν) :
    putAs cmp name k v (l ++ e :: r) = putAs cmp name k v l ++ e :: r := by
  rw [putAs, below_less sorted lt, above_less sorted lt, putAs, List.append_assoc,
    List.cons_append]

theorem putAs_greater (sorted : Sorted cmp (l ++ e :: r)) (gt : cmp k e.1 = .gt) (name : κ)
    (v : ν) : putAs cmp name k v (l ++ e :: r) = l ++ e :: putAs cmp name k v r := by
  rw [putAs, below_greater sorted gt, above_greater sorted gt, putAs, List.append_assoc,
    List.cons_append]

theorem putAs_here (sorted : Sorted cmp (l ++ e :: r)) (eq : cmp k e.1 = .eq) (name : κ) (v : ν) :
    putAs cmp name k v (l ++ e :: r) = l ++ (name, v) :: r := by
  rw [putAs, below_here sorted eq, above_here sorted eq]

theorem erase_less (sorted : Sorted cmp (l ++ e :: r)) (lt : cmp k e.1 = .lt) :
    erase cmp k (l ++ e :: r) = erase cmp k l ++ e :: r := by
  have right := right_less sorted (show cmp k e.1 ≠ .gt by simp [lt])
  have kept : erase cmp k r = r := erase_eq_self fun f member => by simp [right f member]
  simp only [erase] at kept ⊢
  simp [lt, kept]

theorem erase_greater (sorted : Sorted cmp (l ++ e :: r)) (gt : cmp k e.1 = .gt) :
    erase cmp k (l ++ e :: r) = l ++ e :: erase cmp k r := by
  have left := left_greater sorted (show cmp k e.1 ≠ .lt by simp [gt])
  have kept : erase cmp k l = l := erase_eq_self fun f member => by simp [left f member]
  simp only [erase] at kept ⊢
  simp [gt, kept]

theorem erase_here (sorted : Sorted cmp (l ++ e :: r)) (eq : cmp k e.1 = .eq) :
    erase cmp k (l ++ e :: r) = l ++ r := by
  have left := left_greater sorted (show cmp k e.1 ≠ .lt by simp [eq])
  have right := right_less sorted (show cmp k e.1 ≠ .gt by simp [eq])
  have kept : erase cmp k l = l := erase_eq_self fun f member => by simp [left f member]
  have kept' : erase cmp k r = r := erase_eq_self fun f member => by simp [right f member]
  simp only [erase] at kept kept' ⊢
  simp [eq, kept, kept']

end Pivot

section Whole
variable {cmp} {j k name : κ} {v : ν} {entries : List (κ × ν)}

theorem sorted_erase (sorted : Sorted cmp entries) : Sorted cmp (erase cmp k entries) :=
  List.Pairwise.filter _ sorted

theorem mem_putAs {e : κ × ν} (member : e ∈ putAs cmp name k v entries) :
    e = (name, v) ∨ e ∈ entries := by
  simp only [putAs, below, above, List.mem_append, List.mem_filter, List.mem_cons] at member
  rcases member with ⟨old, -⟩ | new | ⟨old, -⟩
  · exact Or.inr old
  · exact Or.inl new
  · exact Or.inr old

theorem length_putAs_le (name k : κ) (v : ν) (entries : List (κ × ν)) :
    (putAs cmp name k v entries).length ≤ entries.length + 1 := by
  have apart : (below cmp k entries).length + (above cmp k entries).length ≤ entries.length := by
    induction entries with
    | nil => exact Nat.le_refl _
    | cons e rest ih =>
      simp only [below, above] at ih ⊢
      cases side : cmp k e.1 <;> simp [side] <;> omega
  simp only [putAs, List.length_append, List.length_cons]
  omega

variable [Std.TransCmp cmp]

theorem sorted_putAs (sorted : Sorted cmp entries) (named : cmp name k = .eq) :
    Sorted cmp (putAs cmp name k v entries) := by
  have first : ∀ e ∈ below cmp k entries, cmp e.1 k = .lt := by
    intro e member
    simp only [below, List.mem_filter, decide_eq_true_eq] at member
    exact Std.OrientedCmp.lt_of_gt member.2
  have last : ∀ e ∈ above cmp k entries, cmp k e.1 = .lt := by
    intro e member
    simp only [above, List.mem_filter, decide_eq_true_eq] at member
    exact member.2
  have renamed := Std.OrientedCmp.eq_symm named
  apply List.pairwise_append.mpr
  refine ⟨sorted.filter _, List.pairwise_cons.mpr ⟨fun e member => ?_, sorted.filter _⟩, ?_⟩
  · exact Std.TransCmp.lt_of_eq_of_lt named (last e member)
  · intro e early f late
    rcases List.mem_cons.mp late with rfl | late
    · exact Std.TransCmp.lt_of_lt_of_eq (first e early) renamed
    · exact Std.TransCmp.lt_trans (first e early) (last f late)

theorem find_eq_some_iff (sorted : Sorted cmp entries) {e : κ × ν} :
    find cmp k entries = some e ↔ e ∈ entries ∧ cmp k e.1 = .eq := by
  constructor
  · intro found
    exact ⟨List.mem_of_find?_eq_some found, by simpa using List.find?_some found⟩
  · rintro ⟨member, same⟩
    obtain ⟨l, r, rfl⟩ := List.append_of_mem member
    exact find_here sorted same

/-- The comparator answers alike for two names of one key. -/
theorem find_congr (same : cmp j k = .eq) : find cmp j entries = find cmp k entries := by
  unfold find
  congr 1
  funext e
  rw [Std.TransCmp.congr_left same]

theorem lookup_erase (sorted : Sorted cmp entries) :
    lookup cmp j (erase cmp k entries) =
      if cmp j k = .eq then none else lookup cmp j entries := by
  split
  · rename_i same
    rw [lookup, find_congr same, find_eq_none, Option.map_none]
    intro e member
    simpa [erase] using (List.mem_filter.mp member).2
  · rename_i other
    unfold lookup
    congr 1
    apply Option.ext
    intro e
    rw [find_eq_some_iff (sorted_erase sorted), find_eq_some_iff sorted, erase, List.mem_filter]
    constructor
    · rintro ⟨⟨member, -⟩, found⟩
      exact ⟨member, found⟩
    · rintro ⟨member, found⟩
      refine ⟨⟨member, ?_⟩, found⟩
      refine (Bool.not_eq_true' _).mpr (decide_eq_false fun same => other ?_)
      exact Std.TransCmp.eq_trans found (Std.OrientedCmp.eq_symm same)

theorem lookup_putAs (sorted : Sorted cmp entries) (named : cmp name k = .eq) :
    lookup cmp j (putAs cmp name k v entries) =
      if cmp j k = .eq then some v else lookup cmp j entries := by
  split
  · rename_i same
    have here : find cmp j (putAs cmp name k v entries) = some (name, v) :=
      (find_eq_some_iff (sorted_putAs sorted named)).mpr
        ⟨by simp [putAs], Std.TransCmp.eq_trans same (Std.OrientedCmp.eq_symm named)⟩
    rw [lookup, here, Option.map_some]
  · rename_i other
    unfold lookup
    congr 1
    apply Option.ext
    intro e
    rw [find_eq_some_iff (sorted_putAs sorted named), find_eq_some_iff sorted]
    constructor
    · rintro ⟨member, found⟩
      rcases mem_putAs member with rfl | old
      · exact absurd (Std.TransCmp.eq_trans found named) other
      · exact ⟨old, found⟩
    · rintro ⟨member, found⟩
      refine ⟨?_, found⟩
      have apart : cmp k e.1 ≠ .eq := fun same =>
        other (Std.TransCmp.eq_trans found (Std.OrientedCmp.eq_symm same))
      simp only [putAs, below, above, List.mem_append, List.mem_filter, List.mem_cons,
        decide_eq_true_eq]
      cases side : cmp k e.1 with
      | lt => exact Or.inr (Or.inr ⟨member, rfl⟩)
      | eq => exact absurd side apart
      | gt => exact Or.inl ⟨member, rfl⟩

theorem storedKey_eq : cmp (storedKey cmp k entries) k = .eq := by
  unfold storedKey
  cases found : find cmp k entries with
  | none => simp [Std.ReflCmp.compare_self]
  | some e =>
    have same : cmp k e.1 = .eq := by simpa using List.find?_some found
    simpa using Std.OrientedCmp.eq_symm same

theorem named_eq (given : name = k ∨ name = storedKey cmp k entries) : cmp name k = .eq := by
  rcases given with rfl | rfl
  · exact Std.ReflCmp.compare_self
  · exact storedKey_eq

end Whole

section Sorting
variable {cmp} {entries other : List (κ × ν)}

/-- No two entries have one key. -/
def Distinct (cmp : κ → κ → Ordering) (entries : List (κ × ν)) : Prop :=
  entries.Pairwise fun e f => cmp e.1 f.1 ≠ .eq

def sortBy (cmp : κ → κ → Ordering) (entries : List (κ × ν)) : List (κ × ν) :=
  entries.mergeSort fun e f => decide (cmp e.1 f.1 ≠ .gt)

/-- Each key comes after the one before it. -/
def ascending (cmp : κ → κ → Ordering) : List (κ × ν) → Bool
  | e :: f :: rest => decide (cmp e.1 f.1 = .lt) && ascending cmp (f :: rest)
  | _ => true

theorem distinct_of_sorted (sorted : Sorted cmp entries) : Distinct cmp entries := by
  apply sorted.imp
  intro e f lt
  simp [lt]

theorem sortBy_perm : (sortBy cmp entries).Perm entries := List.mergeSort_perm _ _

variable [Std.TransCmp cmp]

theorem distinct_perm (perm : entries.Perm other) :
    Distinct cmp entries ↔ Distinct cmp other := by
  apply List.Perm.pairwise_iff _ perm
  intro e f ne same
  exact ne (Std.OrientedCmp.eq_symm same)

theorem ascending_iff : ascending cmp entries = true ↔ Sorted cmp entries := by
  induction entries with
  | nil => exact ⟨fun _ => .nil, fun _ => rfl⟩
  | cons e rest ih =>
    cases rest with
    | nil => exact ⟨fun _ => List.pairwise_singleton _ _, fun _ => rfl⟩
    | cons f rest =>
      simp only [ascending, Bool.and_eq_true, decide_eq_true_eq, ih]
      constructor
      · rintro ⟨lt, sorted⟩
        refine List.pairwise_cons.mpr ⟨fun g member => ?_, sorted⟩
        rcases List.mem_cons.mp member with rfl | later
        · exact lt
        · exact Std.TransCmp.lt_trans lt ((List.pairwise_cons.mp sorted).1 g later)
      · intro sorted
        obtain ⟨first, sorted⟩ := List.pairwise_cons.mp sorted
        exact ⟨first f List.mem_cons_self, sorted⟩

theorem sorted_sortBy (distinct : Distinct cmp entries) : Sorted cmp (sortBy cmp entries) := by
  have ordered : (sortBy cmp entries).Pairwise fun e f => decide (cmp e.1 f.1 ≠ .gt) = true := by
    apply List.pairwise_mergeSort
    · intro e f g first next
      simp only [decide_eq_true_eq, ← Ordering.isLE_iff_ne_gt] at first next ⊢
      exact Std.TransCmp.isLE_trans first next
    · intro e f
      simp only [Bool.or_eq_true, decide_eq_true_eq]
      cases side : cmp e.1 f.1 with
      | gt => exact Or.inr (by simp [Std.OrientedCmp.lt_of_gt side])
      | _ => exact Or.inl nofun
  have perm : (sortBy cmp entries).Perm entries := sortBy_perm
  have apart := (distinct_perm perm).mpr distinct
  apply (ordered.and apart).imp
  rintro e f ⟨le, ne⟩
  cases side : cmp e.1 f.1 <;> simp_all

/-- The order of distinct keys leaves one way to list the entries. -/
theorem sorted_unique (one : Sorted cmp entries) (two : Sorted cmp other)
    (perm : entries.Perm other) : entries = other := by
  apply List.Perm.eq_of_pairwise _ one two perm
  intro e f _ _ before after
  simp [Std.OrientedCmp.gt_of_lt before] at after

end Sorting
end SortedEntries
