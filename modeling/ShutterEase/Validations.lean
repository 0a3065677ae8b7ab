import ShutterEase.DartText

/- The form validators. `none` accepts; a message is what the field shows. A form field
   always hands over its text, so the null case of the source never arises. -/
namespace Validations
open DartText

def isUpper (c : Char) : Bool := 'A' ≤ c && c ≤ 'Z'

def isLetter (c : Char) : Bool := ('a' ≤ c && c ≤ 'z') || isUpper c

def isDigit (c : Char) : Bool := '0' ≤ c && c ≤ '9'

def isAlphanumeric (c : Char) : Bool := isLetter c || isDigit c

def isLocalPart (c : Char) : Bool := isAlphanumeric c || c = '.' || c = '_'

def isSpecial (c : Char) : Bool :=
  ['!', '@', '#', '$', '%', '^', '&', '*', '(', ')', ',', '.', '?', '\x22', ':', '\x7b', '\x7d',
    '|', '<', '>'].contains c

/-- A match of `@[a-zA-Z0-9]+\.[a-zA-Z]+` at the head. The classes are disjoint from the
    separators that follow them, so the greedy reading is the only one. -/
def matchesDomain : List Char → Bool
  | '@' :: rest =>
    !(rest.takeWhile isAlphanumeric).isEmpty &&
      match rest.dropWhile isAlphanumeric with
      | '.' :: c :: _ => isLetter c
      | _ => false
  | _ => false

/-- `^[a-zA-Z0-9._]+@[a-zA-Z0-9]+\.[a-zA-Z]+`, with no anchor at the end. -/
def emailRegExpHasMatch (value : String) : Bool :=
  !(value.toList.takeWhile isLocalPart).isEmpty &&
    matchesDomain (value.toList.dropWhile isLocalPart)

def validateName (value : String) : Option String :=
  if value = "" then some "Please enter your name"
  else if length value < 3 then some "Name must be atleast 3 characters"
  else none

def validateEmptyText (filedname value : String) : Option String :=
  if value = "" then some (filedname ++ " is required") else none

def validateEmail (value : String) : Option String :=
  if value = "" then some "Email is required"
  else if !emailRegExpHasMatch value then some "Invalid email adress"
  else none

def validateMacAddress (value : String) : Option String :=
  if value = "" then some "MAC Address is required"
  else if length value ≠ 12 then some "MAC Address must be exactly 12 characters"
  else none

def validatePassword (value : String) : Option String :=
  if value = "" then some "Password is required"
  else if length value < 6 then some "Password must be at least 6 characters long"
  else if !value.toList.any isUpper then
    some "Password must contain at least one uppercase letter"
  else if !value.toList.any isDigit then some "Password must contain at least one number"
  else if !value.toList.any isSpecial then
    some "Password must contain at least one special character"
  else none

def validateConfirmPassword (confirmPassword password : String) : Option String :=
  if confirmPassword = "" then some "Confirm Password is required"
  else if confirmPassword ≠ password then some "Passwords does not match"
  else none

theorem mac_accepted_iff (value : String) :
    validateMacAddress value = none ↔ length value = 12 := by
  unfold validateMacAddress
  split
  · rename_i empty
    subst empty
    decide
  · split
    · rename_i other
      simp [other]
    · rename_i exact12
      simpa using exact12

theorem email_has_at {value : String} (valid : validateEmail value = none) :
    '@' ∈ value.toList := by
  have shape : emailRegExpHasMatch value = true := by
    unfold validateEmail at valid
    split at valid
    · simp at valid
    · split at valid
      · simp at valid
      · rename_i matched
        simpa using matched
  simp only [emailRegExpHasMatch, Bool.and_eq_true] at shape
  have rest := (List.dropWhile_sublist (l := value.toList) isLocalPart).subset
  cases tail : value.toList.dropWhile isLocalPart with
  | nil => simp [tail, matchesDomain] at shape
  | cons c cs =>
    by_cases at_sign : c = '@'
    · exact rest (by simp [tail, at_sign])
    · simp [tail, matchesDomain, at_sign] at shape

/-- White space alone is no email. -/
theorem email_trimmed {value : String} (valid : validateEmail value = none) :
    trim value ≠ "" := by
  intro blank
  have kept := mem_trim_of_mem (by decide) (email_has_at valid)
  rw [blank] at kept
  simp at kept

end Validations
