import Mathlib.Algebra.Group.Int.Defs
import Mathlib.Algebra.Order.Group.Nat
import ShutterEase.DartText

/-!
`int.tryParse` and `int.toString` of 64-bit integers. A decimal text must lie in the range; a
hexadecimal one without a minus sign may use all 64 bits and wraps.
-/
namespace DartInt
open DartText

def IsInt64 (n : Int) : Prop := -2 ^ 63 ≤ n ∧ n < 2 ^ 63

instance (n : Int) : Decidable (IsInt64 n) := inferInstanceAs (Decidable (_ ∧ _))

def decimal? (cs : List Char) : Option Nat :=
  if cs ≠ [] && cs.all Char.isDigit then some (Nat.ofDigitChars 10 cs 0) else none

def hexDigit? (c : Char) : Option Nat :=
  if '0' ≤ c && c ≤ '9' then some (c.toNat - '0'.toNat)
  else if 'a' ≤ c && c ≤ 'f' then some (c.toNat - 'a'.toNat + 10)
  else if 'A' ≤ c && c ≤ 'F' then some (c.toNat - 'A'.toNat + 10)
  else none

def hexadecimal? (cs : List Char) : Option Nat :=
  if cs = [] then none
  else cs.foldlM (fun value c => (hexDigit? c).map fun digit => value * 16 + digit) 0

def inRange (n : Int) : Option Int := if IsInt64 n then some n else none

/-- What follows the sign. -/
def tryParseMagnitude (minus : Bool) (cs : List Char) : Option Int :=
  match cs with
  | '0' :: 'x' :: hex | '0' :: 'X' :: hex =>
    (hexadecimal? hex).bind fun n =>
      if minus then inRange (-n)
      else if n < 2 ^ 63 then some n
      else if n < 2 ^ 64 then some (n - 2 ^ 64)
      else none
  | cs => (decimal? cs).bind fun n => inRange (if minus then -n else n)

def tryParse (source : String) : Option Int :=
  match trimChars source.toList with
  | '-' :: cs => tryParseMagnitude true cs
  | '+' :: cs => tryParseMagnitude false cs
  | cs => tryParseMagnitude false cs

example : tryParse " -12" = some (-12) ∧ tryParse "0x1F" = some 31 ∧ tryParse "1.5" = none := by
  decide

theorem digit_dark {c : Char} (digit : c.isDigit = true) : isWhiteSpace c = false := by
  have bounds : 48 ≤ c.toNat ∧ c.toNat ≤ 57 := by
    simpa [Char.isDigit, UInt32.le_iff_toNat_le] using digit
  exact graphic_dark (by omega) (by omega)

theorem trimChars_dark {cs : List Char} (dark : ∀ c ∈ cs, isWhiteSpace c = false) :
    trimChars cs = cs := by
  have kept : ∀ ds : List Char, (∀ c ∈ ds, isWhiteSpace c = false) →
      ds.dropWhile isWhiteSpace = ds := by
    intro ds dark
    cases ds with
    | nil => rfl
    | cons c rest => exact List.dropWhile_cons_of_neg (by simp [dark c (by simp)])
  rw [trimChars, kept cs dark, kept cs.reverse (by simpa using dark), List.reverse_reverse]

theorem tryParse_trim (source : String) : tryParse (trim source) = tryParse source := by
  have once := congrArg String.toList (trim_trim source)
  rw [toList_trim, toList_trim] at once
  simp only [tryParse, toList_trim, once]

theorem digit_of_mem {n : Nat} {c : Char} (member : c ∈ Nat.toDigits 10 n) : c.isDigit = true :=
  Nat.isDigit_of_mem_toDigits (by decide) (by decide) member

theorem decimal_toDigits (n : Nat) : decimal? (Nat.toDigits 10 n) = some n := by
  have digits : (Nat.toDigits 10 n).all Char.isDigit = true := by
    rw [List.all_eq_true]
    intro c member
    exact digit_of_mem member
  simp [decimal?, digits, Nat.toDigits_ne_nil]

theorem tryParseMagnitude_toDigits (minus : Bool) (n : Nat) :
    tryParseMagnitude minus (Nat.toDigits 10 n) = inRange (if minus then -n else n) := by
  unfold tryParseMagnitude
  split
  · rename_i hex same
    have digit : 'x'.isDigit = true := digit_of_mem (n := n) (by simp [same])
    exact absurd digit (by decide)
  · rename_i hex same
    have digit : 'X'.isDigit = true := digit_of_mem (n := n) (by simp [same])
    exact absurd digit (by decide)
  · rw [decimal_toDigits]
    rfl

/-- The text of an integer reads as that integer. -/
theorem tryParse_toString {n : Int} (sized : IsInt64 n) : tryParse (toString n) = some n := by
  have dark : ∀ m : Nat, ∀ c ∈ Nat.toDigits 10 m, isWhiteSpace c = false := by
    intro m c member
    exact digit_dark (digit_of_mem member)
  cases n with
  | ofNat m =>
    have text : (toString (Int.ofNat m)).toList = Nat.toDigits 10 m := Nat.toList_repr
    rw [tryParse, text, trimChars_dark (dark m)]
    have unsigned := tryParseMagnitude_toDigits false m
    split
    · rename_i cs same
      have digit : '-'.isDigit = true := digit_of_mem (n := m) (by simp [same])
      exact absurd digit (by decide)
    · rename_i cs same
      have digit : '+'.isDigit = true := digit_of_mem (n := m) (by simp [same])
      exact absurd digit (by decide)
    · rw [unsigned]
      exact if_pos sized
  | negSucc m =>
    have text : (toString (Int.negSucc m)).toList = '-' :: Nat.toDigits 10 (m + 1) := by
      change ("-" ++ Nat.repr (m + 1)).toList = _
      simp
    have white : ∀ c ∈ '-' :: Nat.toDigits 10 (m + 1), isWhiteSpace c = false := by
      intro c member
      rcases List.mem_cons.mp member with minus | digit
      · rw [minus]
        decide
      · exact dark (m + 1) c digit
    rw [tryParse, text, trimChars_dark white]
    have signed := tryParseMagnitude_toDigits true (m + 1)
    simp only
    rw [signed]
    exact if_pos sized

end DartInt
