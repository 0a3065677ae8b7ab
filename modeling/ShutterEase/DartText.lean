import Mathlib.Data.List.DropRight

/- Dart's text operations on sequences of characters. Lengths count UTF-16 code units;
   texts with unpaired surrogates are not represented. -/
namespace DartText

def codeUnits (c : Char) : Nat := if c.toNat < 0x10000 then 1 else 2

def charsLength : List Char → Nat
  | [] => 0
  | c :: rest => codeUnits c + charsLength rest

def length (s : String) : Nat := charsLength s.toList

/-- The white space that `String.trim` removes: Unicode White_Space and the byte order mark. -/
def isWhiteSpace (c : Char) : Bool :=
  (0x9 ≤ c.toNat && c.toNat ≤ 0xD) || c.toNat = 0x20 || c.toNat = 0x85 || c.toNat = 0xA0 ||
    c.toNat = 0x1680 || (0x2000 ≤ c.toNat && c.toNat ≤ 0x200A) || c.toNat = 0x2028 ||
    c.toNat = 0x2029 || c.toNat = 0x202F || c.toNat = 0x205F || c.toNat = 0x3000 ||
    c.toNat = 0xFEFF

def trimChars (cs : List Char) : List Char :=
  ((cs.dropWhile isWhiteSpace).reverse.dropWhile isWhiteSpace).reverse

def trim (s : String) : String := String.ofList (trimChars s.toList)

def padLeft (s : String) (width : Nat) (c : Char) : String :=
  String.ofList (List.replicate (width - length s) c) ++ s

@[simp] theorem toList_trim (s : String) : (trim s).toList = trimChars s.toList := by
  simp [trim]

/-- No character between the blank and the delete character is white space. -/
theorem graphic_dark {c : Char} (low : 0x20 < c.toNat) (high : c.toNat < 0x7F) :
    isWhiteSpace c = false := by
  unfold isWhiteSpace
  simp only [Bool.or_eq_false_iff, Bool.and_eq_false_iff, decide_eq_false_iff_not]
  omega

theorem codeUnits_pos (c : Char) : 0 < codeUnits c := by
  unfold codeUnits
  split <;> omega

theorem trimChars_sublist (cs : List Char) : (trimChars cs).Sublist cs := by
  have inner := List.dropWhile_sublist (l := (cs.dropWhile isWhiteSpace).reverse) isWhiteSpace
  have outer := List.dropWhile_sublist (l := cs) isWhiteSpace
  have once : (trimChars cs).Sublist (cs.dropWhile isWhiteSpace) := by
    simpa only [trimChars, List.reverse_reverse] using inner.reverse
  exact once.trans outer

/-- Nothing but the whole text is a part of it with the same length. -/
theorem sublist_same_length {as bs : List Char} (part : as.Sublist bs) :
    charsLength as ≤ charsLength bs ∧ (charsLength as = charsLength bs → as = bs) := by
  induction part with
  | slnil => simp
  | @cons as bs b part ih =>
    have pos := codeUnits_pos b
    simp only [charsLength] at *
    exact ⟨by omega, fun same => by omega⟩
  | @cons_cons as bs b part ih =>
    simp only [charsLength] at *
    refine ⟨by omega, fun same => ?_⟩
    rw [ih.2 (by omega)]

theorem trim_eq_iff_length (s : String) : trim s = s ↔ length (trim s) = length s := by
  constructor
  · intro same
    rw [same]
  · intro same
    simp only [length, toList_trim] at same
    have chars := (sublist_same_length (trimChars_sublist s.toList)).2 same
    exact String.toList_inj.mp (by simpa using chars)

theorem mem_of_mem_trim {c : Char} {s : String} (h : c ∈ (trim s).toList) : c ∈ s.toList := by
  rw [toList_trim] at h
  exact (trimChars_sublist s.toList).subset h

/-- Only white space is trimmed away. -/
theorem mem_trim_of_mem {c : Char} {s : String} (dark : isWhiteSpace c = false)
    (h : c ∈ s.toList) : c ∈ (trim s).toList := by
  have kept : ∀ cs : List Char, c ∈ cs → c ∈ cs.dropWhile isWhiteSpace := by
    intro cs member
    rw [← List.takeWhile_append_dropWhile (p := isWhiteSpace) (l := cs)] at member
    rcases List.mem_append.mp member with white | rest
    · have light := List.mem_takeWhile_imp white
      simp [dark] at light
    · exact rest
  rw [toList_trim, trimChars, List.mem_reverse]
  exact kept _ (by simpa using kept _ h)

theorem trim_trim (s : String) : trim (trim s) = trim s := by
  apply String.toList_inj.mp
  rw [toList_trim, toList_trim]
  generalize left : s.toList.dropWhile isWhiteSpace = rest
  have once : trimChars s.toList = (rest.reverse.dropWhile isWhiteSpace).reverse := by
    rw [trimChars, left]
  have dropped : rest.dropWhile isWhiteSpace = rest := by
    rw [← left, List.dropWhile_idempotent]
  -- what is left starts where the text without its leading white space starts
  have start : (trimChars s.toList).dropWhile isWhiteSpace = trimChars s.toList := by
    have parts := List.takeWhile_append_dropWhile (p := isWhiteSpace) (l := rest.reverse)
    have whole : rest = trimChars s.toList ++ (rest.reverse.takeWhile isWhiteSpace).reverse := by
      rw [once, ← List.reverse_append, parts, List.reverse_reverse]
    cases kept : trimChars s.toList with
    | nil => rfl
    | cons c cs =>
      rw [kept, List.cons_append] at whole
      rw [whole] at dropped
      have dark := List.dropWhile_eq_self_iff.mp dropped (by simp)
      exact List.dropWhile_eq_self_iff.mpr fun _ => by simpa using dark
  rw [trimChars, start, once, List.reverse_reverse, List.dropWhile_idempotent]

theorem trim_blank {s : String} (blank : ∀ c ∈ s.toList, isWhiteSpace c = true) :
    trim s = "" := by
  have gone : s.toList.dropWhile isWhiteSpace = [] := List.dropWhile_eq_nil_iff.mpr blank
  simp [trim, trimChars, gone]

end DartText
