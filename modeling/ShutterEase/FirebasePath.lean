import ShutterEase.DartText

/- Database paths as the client library reads them: the text is cut at every slash, empty
   pieces are skipped, and five characters are refused before anything is sent. -/
namespace FirebasePath
open DartText

def kInvalidPathCharacters : List Char := ['[', ']', '.', '#', '$']

def validCharacters (path : String) : Bool :=
  path.toList.all fun c => !kInvalidPathCharacters.contains c

def isValidPathString (path : String) : Bool := path != "" && validCharacters path

/-- `componentsSeparatedByString:@"/"` without the empty components. -/
def pieces (path : String) : List String :=
  ((path.toList.splitOn '/').filter fun piece => !piece.isEmpty).map String.ofList

def parsePath (path : String) : Except String (List String) :=
  if isValidPathString path then .ok (pieces path)
  else .error "(child:) Must be a non-empty string and not contain '.' '#' '$' '[' or ']'"

/-- A text that is one path segment by itself. -/
def IsSegment (s : String) : Prop := s ≠ "" ∧ '/' ∉ s.toList ∧ validCharacters s = true

instance (s : String) : Decidable (IsSegment s) := by
  unfold IsSegment
  infer_instance

theorem valid_append (a b : String) :
    validCharacters (a ++ b) = (validCharacters a && validCharacters b) := by
  simp [validCharacters]

theorem valid_below (top below : String) : isValidPathString (top ++ "/" ++ below) =
    (validCharacters top && validCharacters below) := by
  have full : top ++ "/" ++ below ≠ "" := by simp
  have slash : validCharacters "/" = true := by decide
  simp [isValidPathString, full, valid_append, slash]

theorem pieces_append_slash (a b : String) : pieces (a ++ "/" ++ b) = pieces a ++ pieces b := by
  have chars : (a ++ "/" ++ b).toList = a.toList ++ '/' :: b.toList := by simp
  rw [pieces, chars, List.splitOn_append_cons_self]
  simp [pieces]

theorem toList_ne_nil {s : String} (h : s ≠ "") : s.toList ≠ [] := by
  intro empty
  exact h (String.toList_inj.mp (by simpa using empty))

theorem pieces_segment {s : String} (nonempty : s ≠ "") (plain : '/' ∉ s.toList) :
    pieces s = [s] := by
  have full := toList_ne_nil nonempty
  rw [pieces, List.splitOn_eq_singleton plain]
  simp [full]

@[simp] theorem pieces_empty : pieces "" = [] := by decide

theorem ref_user {uid : String} (segment : IsSegment uid) :
    parsePath ("users/" ++ uid) = .ok ["users", uid] := by
  obtain ⟨nonempty, plain, valid⟩ := segment
  have slash : "users/" = "users" ++ "/" := by decide
  have top : pieces "users" = ["users"] := by decide
  have head : validCharacters "users" = true := by decide
  unfold parsePath
  rw [slash, valid_below, head, valid, pieces_append_slash, top, pieces_segment nonempty plain]
  rfl

/-- Every piece is cut out of the text. -/
theorem mem_of_mem_piece {piece path : String} (h : piece ∈ pieces path) {c : Char}
    (hc : c ∈ piece.toList) : c ∈ path.toList := by
  simp only [pieces, List.mem_map, List.mem_filter] at h
  obtain ⟨cs, ⟨part, -⟩, rfl⟩ := h
  rw [String.toList_ofList] at hc
  generalize path.toList = whole at part ⊢
  induction whole generalizing cs with
  | nil => simp_all
  | cons x xs ih =>
    rw [List.splitOn_cons_eq_if_modifyHead] at part
    split at part
    · rcases List.mem_cons.mp part with rfl | later
      · simp at hc
      · exact List.mem_cons_of_mem x (ih cs hc later)
    · obtain ⟨first, others, shape⟩ := List.exists_cons_of_ne_nil (List.splitOn_ne_nil '/' xs)
      rw [shape] at part ih
      simp only [List.modifyHead_cons, List.mem_cons] at part
      rcases part with rfl | later
      · rcases List.mem_cons.mp hc with rfl | old
        · simp
        · exact List.mem_cons_of_mem x (ih first old (by simp))
      · exact List.mem_cons_of_mem x (ih cs hc (by simp [later]))

end FirebasePath
