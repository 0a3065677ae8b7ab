import ShutterEase.FirebasePath
import ShutterEase.Interleaving
import ShutterEase.KeyedTree

/-!
The app's view of the Realtime Database: the JSON tree, the order of keys, the calls with
their snapshots, the casts applied to snapshot values, and what a call sequence shows to
the user. A path given as text is parsed by `ref`; a key read from a snapshot is already
one segment.
-/
namespace Firebase
open KeyedTree Resumption DartText

inductive Value where
  | bool (b : Bool)
  | int (i : Int)
  | str (s : String)
  deriving DecidableEq, Repr

abbrev Json := Node String Value

def Json.bool (b : Bool) : Json := .leaf (.bool b)
def Json.int (i : Int) : Json := .leaf (.int i)
def Json.str (s : String) : Json := .leaf (.str s)

def digitsValue (cs : List Char) : Int :=
  cs.foldl (fun value c => value * 10 + (c.toNat - '0'.toNat : Nat)) 0

def allDigits (cs : List Char) : Bool := cs.all fun c => '0' ≤ c && c ≤ '9'

def tryParseStringToInt (str : String) : Option Int :=
  if length str > 11 || str = "" then none
  else
    let parsed : Option Int := match str.toList with
      | ['-'] => none
      | '-' :: cs => if allDigits cs then some (-digitsValue cs) else none
      | cs => if allDigits cs then some (digitsValue cs) else none
    match parsed with
    | none => none
    | some value => if value < -2147483648 || value > 2147483647 then none else some value

def utf16 (c : Char) : List Nat :=
  if c.toNat < 0x10000 then [c.toNat]
  else [0xD800 + (c.toNat - 0x10000) / 0x400, 0xDC00 + (c.toNat - 0x10000) % 0x400]

/-- Integer keys come first, by value and then by length; other keys unit by unit. -/
def compareKey (a b : String) : Bool :=
  match tryParseStringToInt a, tryParseStringToInt b with
  | some m, some n => m < n || (m = n && length a < length b)
  | some _, none => true
  | none, some _ => false
  | none, none => a.toList.flatMap utf16 < b.toList.flatMap utf16

instance : KeyOrder String := ⟨compareKey⟩

abbrev DbCall := Call String Value

/-- What an operation shows or does besides its database calls. -/
inductive Ui where
  | openLoadingDialog (text animation : String)
  | stopLoading
  | showSuccessSnackkbar (title message : String)
  | showErrorSnackbar (message : String)
  | showSuccessToast (message : String)
  | snackbar (title message : String)
  | navigate (screen : String)
  | listenForDeviceChanges
  | fetchSchedule
  | clearForm
  | setAutoPlayEnabled (value : Bool)
  | setAutoPlayTime (value : String)
  | setSaving (value : Bool)
  | createUserWithEmailAndPassword (email password : String)
  | login (email password : String)
  | sendPasswordResetEmail (email : String)
  deriving DecidableEq, Repr

abbrev Act (α : Type) := Action DbCall Json Ui String α

def get (path : List String) : Act Json := Action.request (.get path)

def set (path : List String) (value : Json) : Act Unit := do
  let _ ← Action.request (.set path value)
  pure ()

def update (path : List String) (fields : List (String × Json)) : Act Unit := do
  let _ ← Action.request (.update path fields)
  pure ()

def remove (path : List String) : Act Unit := do
  let _ ← Action.request (.remove path)
  pure ()

def perform (o : Ui) : Act Unit := Action.tell o

/-- `FirebaseDatabase.instance.ref(path)`: a refused path throws where it is built. -/
def ref (path : String) : Act (List String) := Action.lift (FirebasePath.parsePath path)

def asBool (json : Json) : Except String Bool :=
  match json with
  | .leaf (.bool b) => .ok b
  | _ => .error "type cast: not a bool"

def asString (json : Json) : Except String String :=
  match json with
  | .leaf (.str s) => .ok s
  | _ => .error "type cast: not a String"

/-- `as bool?` and `as String?`: an absent child is null. -/
def asBool? (json : Json) : Except String (Option Bool) :=
  match json with
  | .branch [] => .ok none
  | .leaf (.bool b) => .ok (some b)
  | _ => .error "type cast: not a bool"

def asString? (json : Json) : Except String (Option String) :=
  match json with
  | .branch [] => .ok none
  | .leaf (.str s) => .ok (some s)
  | _ => .error "type cast: not a String"

def asInt? (json : Json) : Except String (Option Int) :=
  match json with
  | .branch [] => .ok none
  | .leaf (.int i) => .ok (some i)
  | _ => .error "type cast: not an int"

def intForString (string : String) : Option Int :=
  if string ≠ "" && allDigits string.toList then some (digitsValue string.toList) else none

def indexKey (key : String) : Option Int :=
  match key.toList with
  | '0' :: _ :: _ => none
  | _ => intForString key

def maxKey (keys : List String) : Int :=
  keys.foldl (fun most key => max most ((indexKey key).getD 0)) 0

/-- `valForExport`: a node whose keys are indices that fill half of an array is handed over as
    a list. -/
def exportsArray (keys : List String) : Bool :=
  keys.all (fun key => (indexKey key).isSome) && decide (maxKey keys < 2 * keys.length)

/-- `as Map<dynamic, dynamic>` of a snapshot's value. -/
def asMap (json : Json) : Except String Json :=
  match json with
  | .leaf _ => .error "type cast: not a Map"
  | .branch [] => .error "type cast: Null is not a Map"
  | .branch (e :: rest) =>
    if exportsArray (Node.branch (e :: rest) : Json).keys then .error "type cast: List is not a Map"
    else .ok (.branch (e :: rest))

theorem asMap_eq {json data : Json} (h : asMap json = .ok data) : data = json := by
  unfold asMap at h
  split at h
  · simp at h
  · simp at h
  · split at h
    · simp at h
    · simpa using h.symm

theorem isNull_of_asMap {json data : Json} (h : asMap json = .ok data) : json.isNull = false := by
  cases json with
  | leaf v => rfl
  | branch children =>
    cases children with
    | nil => simp [asMap] at h
    | cons e rest => rfl

theorem asMap_of_child {json : Json} {key : String} (there : json.child key ≠ Node.null)
    (named : indexKey key = none) : asMap json = .ok json := by
  cases json with
  | leaf v => exact absurd rfl there
  | branch children =>
    cases children with
    | nil => exact absurd rfl there
    | cons e rest =>
      have listed := Node.mem_keys.mpr there
      have no_array : exportsArray (Node.branch (e :: rest) : Json).keys = false := by
        cases array : exportsArray (Node.branch (e :: rest) : Json).keys with
        | false => rfl
        | true =>
          simp only [exportsArray, Bool.and_eq_true, List.all_eq_true] at array
          have index := array.1 key listed
          simp [named] at index
      simp only [asMap, no_array, Bool.false_eq_true, ↓reduceIte]

/-- The map of a model's fields as a node. Only the names are ever looked up, so the order
    of the fields is kept as written. -/
def fromFields (fields : List (String × Json)) : Json := .branch fields

/-- The service as the app sees it: it answers every request. -/
abbrev respond : DbCall → Json → Except String (Json × Json) := serve

theorem respond_ok (c : DbCall) (db : Json) : ∃ db' reply, respond c db = .ok (db', reply) := by
  cases c <;> exact ⟨_, _, rfl⟩

abbrev alone (p : Act α) (db : Json) : Json × Except String α := p.exec respond db

@[simp] theorem alone_get (path : List String) (db : Json) :
    alone (get path) db = (db, .ok (db.get path)) := rfl

@[simp] theorem alone_update (path : List String) (fields : List (String × Json)) (db : Json) :
    alone (update path fields) db = (db.update path fields, .ok ()) := rfl

abbrev shownBy (p : Act α) (db : Json) : List Ui := (Prog.run respond p db).output

theorem shownBy_get {α : Type} (path : List String) (f : Json → Act α) (db : Json) :
    shownBy (get path >>= f) db = shownBy (f (db.get path)) db := rfl

theorem shownBy_perform (o : Ui) (db : Json) : shownBy (perform o) db = [o] := rfl

section Calls
open Interleaving
variable {P : DbCall → Prop} {F : DbCall → Prop} {Q : DbCall → Except String Json → DbCall → Prop}
    {path : List String} {α : Type}

theorem issues_update {fields : List (String × Json)} (h : P (.update path fields)) :
    Issues P (update path fields) :=
  issues_andThen (issues_request h) fun _ => issues_pure ()

theorem opens_update_then {fields : List (String × Json)} {f : Unit → Act α}
    (first : F (.update path fields)) (rest : ∀ r, Issues (Q (.update path fields) r) (f ())) :
    Opens F Q (update path fields >>= f : Act α) := by
  refine ⟨first, ?_⟩
  intro r
  cases r with
  | ok a => exact rest (.ok a)
  | error e => trivial

theorem opens_set_quiet {value : Json} {f : Unit → Act α} (first : F (.set path value))
    (rest : Quiet (f ())) : Opens F Q (set path value >>= f : Act α) := by
  refine ⟨first, ?_⟩
  intro r
  cases r with
  | ok a => exact issues_of_quiet rest
  | error e => trivial

theorem opens_remove_quiet {f : Unit → Act α} (first : F (.remove path)) (rest : Quiet (f ())) :
    Opens F Q (remove path >>= f : Act α) := by
  refine ⟨first, ?_⟩
  intro r
  cases r with
  | ok a => exact issues_of_quiet rest
  | error e => trivial

theorem opens_get_then {f : Json → Act α} (first : F (.get path))
    (rest : ∀ snapshot, Issues (Q (.get path) (.ok snapshot)) (f snapshot)) :
    Opens F Q (get path >>= f : Act α) := opens_request_then first rest

theorem quiet_perform (o : Ui) : Quiet (perform o) := trivial

theorem quiet_perform_then {o : Ui} {f : Unit → Act α} (h : Quiet (f ())) :
    Quiet (perform o >>= f : Act α) := h

end Calls
end Firebase
