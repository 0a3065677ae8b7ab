import Mathlib.Data.Nat.Digits.Defs
import ShutterEase.Firebase

/-!
`FUtilities.compareKey` as an order. It is irreflexive and transitive, so children stay in it, and
it tells any two keys apart but a zero written with a minus sign from one written without.
-/
namespace KeyComparator
open KeyedTree Firebase DartText

section Digits

def digit (c : Char) : Nat := c.toNat - '0'.toNat

theorem allDigits_iff {cs : List Char} :
    allDigits cs = true ↔ ∀ c ∈ cs, 48 ≤ c.toNat ∧ c.toNat ≤ 57 := by
  simp only [allDigits, List.all_eq_true, Bool.and_eq_true, decide_eq_true_eq]
  exact Iff.rfl

theorem digitsValue_eq (cs : List Char) :
    digitsValue cs = (Nat.ofDigits 10 (cs.reverse.map digit) : Nat) := by
  induction cs using List.reverseRecOn with
  | nil => rfl
  | append_singleton cs c ih =>
    have last : digitsValue (cs ++ [c]) = digitsValue cs * 10 + (digit c : Nat) := by
      simp [digitsValue, digit]
    rw [last, ih]
    simp only [List.reverse_append, List.reverse_cons, List.reverse_nil, List.nil_append,
      List.cons_append, List.map_cons, Nat.ofDigits_cons]
    omega

theorem digitsValue_nonneg (cs : List Char) : 0 ≤ digitsValue cs := by
  rw [digitsValue_eq]
  exact Int.natCast_nonneg _

theorem chars_of_digits {cs : List Char} (range : ∀ c ∈ cs, 48 ≤ c.toNat ∧ c.toNat ≤ 57) :
    (cs.map digit).map (fun d => Char.ofNat (d + 48)) = cs := by
  rw [List.map_map]
  refine (List.map_congr_left ?_).trans (List.map_id cs)
  intro c member
  have bounds := range c member
  have back : digit c + 48 = c.toNat := by
    change c.toNat - 48 + 48 = c.toNat
    omega
  simp only [Function.comp_apply, back, Char.ofNat_toNat, id_eq]

/-- Digits of one length with one value are the same digits. -/
theorem digits_injective {as bs : List Char} (digits : allDigits as = true)
    (digits' : allDigits bs = true) (long : as.length = bs.length)
    (value : digitsValue as = digitsValue bs) : as = bs := by
  rw [allDigits_iff] at digits digits'
  rw [digitsValue_eq, digitsValue_eq, Int.natCast_inj] at value
  have below : ∀ {cs : List Char}, (∀ c ∈ cs, 48 ≤ c.toNat ∧ c.toNat ≤ 57) →
      ∀ d ∈ cs.reverse.map digit, d < 10 := by
    intro cs range d member
    obtain ⟨c, inside, rfl⟩ := List.mem_map.mp member
    have bounds := range c (List.mem_reverse.mp inside)
    change c.toNat - 48 < 10
    omega
  have same := Nat.ofDigits_inj_of_len_eq (by decide) (by simpa using long) (below digits)
    (below digits') value
  rw [List.map_reverse, List.map_reverse, List.reverse_inj] at same
  rw [← chars_of_digits digits, same, chars_of_digits digits']

theorem charsLength_digits {cs : List Char} (digits : allDigits cs = true) :
    charsLength cs = cs.length := by
  rw [allDigits_iff] at digits
  induction cs with
  | nil => rfl
  | cons c rest ih =>
    have one : codeUnits c = 1 := by
      have bounds := digits c List.mem_cons_self
      unfold codeUnits
      rw [if_pos (by omega)]
    rw [charsLength, one, ih fun d member => digits d (List.mem_cons_of_mem c member),
      List.length_cons, Nat.add_comm]

end Digits

section Integers
variable {key : String} {n : Int}

theorem parsed_cases (parsed : tryParseStringToInt key = some n) :
    (∃ cs, key.toList = '-' :: cs ∧ allDigits cs = true ∧ n = -digitsValue cs) ∨
      allDigits key.toList = true ∧ n = digitsValue key.toList := by
  unfold tryParseStringToInt at parsed
  split at parsed
  · simp at parsed
  · dsimp only at parsed
    split at parsed
    · simp at parsed
    · rename_i value found
      split at parsed
      · simp at parsed
      · simp only [Option.some.injEq] at parsed
        subst parsed
        split at found
        · simp at found
        · rename_i cs _ signed
          split at found
          · rename_i digits
            exact Or.inl ⟨cs, signed, digits, (Option.some.inj found).symm⟩
          · simp at found
        · split at found
          · rename_i digits
            exact Or.inr ⟨digits, (Option.some.inj found).symm⟩
          · simp at found

/-- Zero written with a minus sign, which the comparator does not tell from as many digits. -/
def NegativeZero (key : String) : Prop :=
  key.toList.head? = some '-' ∧ tryParseStringToInt key = some 0

instance (key : String) : Decidable (NegativeZero key) := by
  unfold NegativeZero
  infer_instance

/-- Two integer keys of one value and one length are one key. -/
theorem integer_key_unique {a b : String} (one : tryParseStringToInt a = some n)
    (two : tryParseStringToInt b = some n) (long : length a = length b)
    (plain : ¬ NegativeZero a) (plain' : ¬ NegativeZero b) : a = b := by
  have positive : ∀ {cs : List Char}, n = digitsValue cs → 0 ≤ n :=
    fun value => value ▸ digitsValue_nonneg _
  have negative : ∀ {key : String} {cs : List Char}, tryParseStringToInt key = some n →
      ¬ NegativeZero key → key.toList = '-' :: cs → n = -digitsValue cs → n < 0 := by
    intro key cs parsed plain signed value
    have bound := digitsValue_nonneg cs
    have other : n ≠ 0 := by
      rintro rfl
      exact plain ⟨by rw [signed]; rfl, parsed⟩
    omega
  apply String.toList_injective
  rcases parsed_cases one with ⟨cs, signed, digits, value⟩ | ⟨digits, value⟩
  · rcases parsed_cases two with ⟨ds, signed', digits', value'⟩ | ⟨digits', value'⟩
    · rw [length, length, signed, signed', charsLength, charsLength, charsLength_digits digits,
        charsLength_digits digits'] at long
      rw [signed, signed', digits_injective digits digits' (by omega) (by omega)]
    · have below := negative one plain signed value
      have above := positive value'
      omega
  · rcases parsed_cases two with ⟨ds, signed', digits', value'⟩ | ⟨digits', value'⟩
    · have below := negative two plain' signed' value'
      have above := positive value
      omega
    · rw [length, length, charsLength_digits digits, charsLength_digits digits'] at long
      exact digits_injective digits digits' long (value.symm.trans value')

end Integers

section Units

/-- A character's code units tell where it ends. -/
theorem utf16_cancel {c d : Char} {xs ys : List Nat}
    (same : utf16 c ++ xs = utf16 d ++ ys) : c = d ∧ xs = ys := by
  have one := c.valid
  have two := d.valid
  change c.toNat < 55296 ∨ 57343 < c.toNat ∧ c.toNat < 1114112 at one
  change d.toNat < 55296 ∨ 57343 < d.toNat ∧ d.toNat < 1114112 at two
  have equal : c.toNat = d.toNat → c = d := Char.toNat_inj.mp
  unfold utf16 at same
  split at same
  · split at same
    · simp only [List.cons_append, List.nil_append, List.cons.injEq] at same
      exact ⟨equal same.1, same.2⟩
    · simp only [List.cons_append, List.nil_append, List.cons.injEq] at same
      omega
  · split at same
    · simp only [List.cons_append, List.nil_append, List.cons.injEq] at same
      omega
    · simp only [List.cons_append, List.nil_append, List.cons.injEq] at same
      exact ⟨equal (by omega), same.2.2⟩

theorem utf16_ne_nil (c : Char) : utf16 c ≠ [] := by
  unfold utf16
  split <;> simp

theorem utf16_injective {as bs : List Char} (same : as.flatMap utf16 = bs.flatMap utf16) :
    as = bs := by
  induction as generalizing bs with
  | nil =>
    cases bs with
    | nil => rfl
    | cons b bs => simp [utf16_ne_nil] at same
  | cons a as ih =>
    cases bs with
    | nil => simp [utf16_ne_nil] at same
    | cons b bs =>
      simp only [List.flatMap_cons] at same
      obtain ⟨rfl, rest⟩ := utf16_cancel same
      rw [ih rest]

end Units

section Comparator

theorem compareKey_irrefl (a : String) : compareKey a a = false := by
  unfold compareKey
  cases tryParseStringToInt a with
  | some m => simp
  | none => simp

theorem compareKey_trans (a b c : String) (first : compareKey a b = true)
    (second : compareKey b c = true) : compareKey a c = true := by
  unfold compareKey at first second ⊢
  cases one : tryParseStringToInt a with
  | some m =>
    cases two : tryParseStringToInt b with
    | some n =>
      cases three : tryParseStringToInt c with
      | some k =>
        simp only [one, two, three, Bool.or_eq_true, Bool.and_eq_true, decide_eq_true_eq]
          at first second ⊢
        omega
      | none => simp
    | none =>
      cases three : tryParseStringToInt c with
      | some k => simp [two, three] at second
      | none => simp
  | none =>
    cases two : tryParseStringToInt b with
    | some n => simp [one, two] at first
    | none =>
      cases three : tryParseStringToInt c with
      | some k => simp [two, three] at second
      | none =>
        simp only [one, two, three, decide_eq_true_eq] at first second ⊢
        exact List.lt_trans first second

instance : LawfulKeyOrder String := ⟨compareKey_irrefl, compareKey_trans⟩

/-- Of two keys one comes first, unless a negative zero is among them. -/
theorem compareKey_total {a b : String} (before : compareKey a b = false)
    (after : compareKey b a = false) (plain : ¬ NegativeZero a) (plain' : ¬ NegativeZero b) :
    a = b := by
  unfold compareKey at before after
  cases one : tryParseStringToInt a with
  | some m =>
    cases two : tryParseStringToInt b with
    | some n =>
      simp only [one, two, Bool.or_eq_false_iff, Bool.and_eq_false_iff, decide_eq_false_iff_not]
        at before after
      obtain rfl : m = n := by omega
      exact integer_key_unique one two (by omega) plain plain'
    | none => simp [one, two] at before
  | none =>
    cases two : tryParseStringToInt b with
    | some n => simp [one, two] at after
    | none =>
      simp only [one, two, decide_eq_false_iff_not, List.not_lt] at before after
      exact String.toList_injective (utf16_injective (List.le_antisymm after before))

/-- The two zeros of one length stand in the order in which they were stored. -/
example : compareKey "-0" "00" = false ∧ compareKey "00" "-0" = false := by decide

end Comparator

section ThreeWay

/-- `compareKey:toKey:`, the comparator of all children. A key of the database is none of the two
    sentinels that stand for the least and the greatest name. -/
def keyComparator (a b : String) : Ordering :=
  match tryParseStringToInt a, tryParseStringToInt b with
  | some m, some n =>
    if m > n then .gt
    else if m < n then .lt
    else if length a > length b then .gt
    else if length a < length b then .lt
    else .eq
  | some _, none => .lt
  | none, some _ => .gt
  | none, none => compare (a.toList.flatMap utf16) (b.toList.flatMap utf16)

def kind (key : String) : Nat := if (tryParseStringToInt key).isSome then 0 else 1

def integer (key : String) : Int := (tryParseStringToInt key).getD 0

def integerLength (key : String) : Nat :=
  if (tryParseStringToInt key).isSome then length key else 0

def units (key : String) : List Nat :=
  if (tryParseStringToInt key).isSome then [] else key.toList.flatMap utf16

theorem keyComparator_eq_lex : keyComparator = compareLex (compareOn kind)
    (compareLex (compareOn integer) (compareLex (compareOn integerLength) (compareOn units))) := by
  funext a b
  unfold keyComparator compareLex compareOn kind integer integerLength units
  cases one : tryParseStringToInt a with
  | some m =>
    cases two : tryParseStringToInt b with
    | some n =>
      rcases Int.lt_trichotomy m n with less | rfl | more
      · simp [less, Int.not_lt.mpr (Int.le_of_lt less), Int.compare_eq_lt.mpr less]
      · rcases Nat.lt_trichotomy (length a) (length b) with less | same | more
        · simp [Nat.not_lt.mpr (Nat.le_of_lt less), less, Nat.compare_eq_lt.mpr less]
        · simp [same]
        · simp [more, Nat.compare_eq_gt.mpr more]
      · simp [more, Int.compare_eq_gt.mpr more]
    | none => simp [Nat.compare_eq_ite_lt]
  | none =>
    cases two : tryParseStringToInt b with
    | some n => simp [Nat.compare_eq_ite_lt]
    | none => simp

instance : Std.TransCmp keyComparator := by
  rw [keyComparator_eq_lex]
  infer_instance

theorem compare_units {xs ys : List Nat} : compare xs ys = .lt ↔ xs < ys := by
  induction xs generalizing ys with
  | nil => cases ys <;> simp
  | cons x xs ih =>
    cases ys with
    | nil => simp
    | cons y ys =>
      rw [List.compare_eq_compareLex] at ih ⊢
      rw [List.compareLex_cons_cons, Ordering.then_eq_lt, ih, Nat.compare_eq_lt, Nat.compare_eq_eq,
        List.cons_lt_cons_iff]

/-- The order in which the children of a node are stored is the comparator's. -/
theorem keyComparator_lt {a b : String} : keyComparator a b = .lt ↔ compareKey a b = true := by
  unfold keyComparator compareKey
  cases tryParseStringToInt a with
  | some m =>
    cases tryParseStringToInt b with
    | some n =>
      simp only [Bool.or_eq_true, Bool.and_eq_true, decide_eq_true_eq]
      split
      · simp only [reduceCtorEq, false_iff]
        omega
      · split
        · simp only [true_iff]
          omega
        · split
          · simp only [reduceCtorEq, false_iff]
            omega
          · split
            · simp only [true_iff]
              omega
            · simp only [reduceCtorEq, false_iff]
              omega
    | none => simp
  | none =>
    cases tryParseStringToInt b with
    | some n => simp
    | none => simp [compare_units]

/-- Keys that are told apart, as all keys are but negative zeros. -/
theorem eq_of_keyComparator {a b : String} (same : keyComparator a b = .eq)
    (plain : ¬ NegativeZero a) (plain' : ¬ NegativeZero b) : a = b := by
  apply compareKey_total _ _ plain plain'
  · rw [← Bool.not_eq_true, ← keyComparator_lt, same]
    simp
  · rw [← Bool.not_eq_true, ← keyComparator_lt, Std.OrientedCmp.eq_symm same]
    simp

end ThreeWay
end KeyComparator
