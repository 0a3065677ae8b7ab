import ShutterEase.DeviceController

/- Where a registration writes: the trimmed text of the MAC field is spliced into a path, so
   the field's slashes and surrounding blanks decide which node is replaced. -/
namespace Registration
open KeyedTree Firebase FirebasePath ShutterModels DeviceController DartText Validations

def newDeviceId (form : DeviceForm) : String := trim form.macAddress

def record (form : DeviceForm) (userData : UserData) (now : DateTime) : Json :=
  fromFields (registered form userData now).toJson

theorem record_userId (form : DeviceForm) (userData : UserData) (now : DateTime) :
    (record form userData now).child "userId" = Json.str (userData.id.getD "") := rfl

theorem ref_devicePath (deviceId : String) :
    parsePath (devicePath deviceId) = if validCharacters deviceId = true
      then .ok ("ShutterDevices" :: pieces deviceId)
      else .error
        "(child:) Must be a non-empty string and not contain '.' '#' '$' '[' or ']'" := by
  have slash : "ShutterDevices/" = "ShutterDevices" ++ "/" := by decide
  have whole : devicePath deviceId = "ShutterDevices" ++ "/" ++ deviceId :=
    congrArg (· ++ deviceId) slash
  have top : pieces "ShutterDevices" = ["ShutterDevices"] := by decide
  have plain : validCharacters "ShutterDevices" = true := by decide
  unfold parsePath
  rw [whole, valid_below, plain, Bool.true_and, pieces_append_slash, top]
  rfl

theorem ref_segment {deviceId : String} (segment : IsSegment deviceId) :
    parsePath (devicePath deviceId) = .ok ["ShutterDevices", deviceId] := by
  obtain ⟨nonempty, plain, valid⟩ := segment
  rw [ref_devicePath, pieces_segment nonempty plain]
  simp [valid]

/-- A MAC text of the kind printed on a device: twelve characters, none of them white space
    and none with a meaning in a path. -/
def PlainMac (mac : String) : Prop :=
  length mac = 12 ∧ ∀ c ∈ mac.toList,
    isWhiteSpace c = false ∧ c ≠ '/' ∧ c ∉ kInvalidPathCharacters

/-- A registration alone: one `set` at the path the MAC text makes, or nothing when the form
    or the path is refused. -/
theorem alone_saveShutterDevice (form : DeviceForm) (userData : UserData) (now : DateTime)
    (db : Json) : alone (saveShutterDevice form userData now) db =
      if form.validate = true ∧ validCharacters (newDeviceId form) = true then
        (db.set ("ShutterDevices" :: pieces (newDeviceId form)) (record form userData now), .ok ())
      else (db, .ok ()) := by
  have path := ref_devicePath (newDeviceId form)
  unfold alone saveShutterDevice Firebase.ref
  by_cases filled : form.validate = true
  · by_cases valid : validCharacters (newDeviceId form) = true
    · simp only [valid, ↓reduceIte] at path
      simp only [newDeviceId] at valid path
      simp only [filled, valid, newDeviceId, path, and_self, ↓reduceIte,
        Resumption.Action.lift_ok_bind]
      rfl
    · simp only [valid, Bool.false_eq_true, ↓reduceIte] at path
      simp only [newDeviceId] at valid path
      simp only [filled, valid, newDeviceId, path, and_false, Bool.false_eq_true, ↓reduceIte,
        Resumption.Action.lift_error_bind]
      rfl
  · simp only [filled, false_and, Bool.false_eq_true, ↓reduceIte]
    rfl

/-- A confirmed deletion alone: the path that the device's id makes is emptied. -/
theorem alone_deleteShutterDevice (deviceId : String) (shouldDelete : Option Bool) (db : Json) :
    alone (deleteShutterDevice deviceId shouldDelete) db =
      if shouldDelete = some true ∧ validCharacters deviceId = true then
        (db.set ("ShutterDevices" :: pieces deviceId) .null, .ok ())
      else (db, .ok ()) := by
  by_cases confirmed : shouldDelete = some true
  · have path := ref_devicePath deviceId
    by_cases valid : validCharacters deviceId = true
    · simp only [valid, ↓reduceIte] at path
      simp [alone, deleteShutterDevice, perform, Firebase.ref, Firebase.remove, confirmed, path,
        valid, serve, Node.remove]
    · simp only [valid, Bool.false_eq_true, ↓reduceIte] at path
      simp [alone, deleteShutterDevice, perform, Firebase.ref, confirmed, path, valid]
  · simp [alone, deleteShutterDevice, confirmed]

/-- The path is refused and nothing changes, or one child of `ShutterDevices` changes and its
    key is a segment that the validator still accepts. -/
def SavesOneDevice (form : DeviceForm) (userData : UserData) (now : DateTime) (db : Json) : Prop :=
  let after := (alone (saveShutterDevice form userData now) db).1
  (∃ e, parsePath (devicePath (newDeviceId form)) = .error e) ∧ after = db ∨
    IsSegment (newDeviceId form) ∧ validateMacAddress (newDeviceId form) = none ∧
      (∀ key, key ≠ newDeviceId form →
        (after.child "ShutterDevices").child key = (db.child "ShutterDevices").child key) ∧
      ∀ top, top ≠ "ShutterDevices" → after.child top = db.child top

/-- White space is none of the five characters a path refuses. -/
theorem valid_trim (s : String) : validCharacters (trim s) = validCharacters s := by
  have dark : ∀ c ∈ kInvalidPathCharacters, isWhiteSpace c = false := by
    have light : kInvalidPathCharacters.any isWhiteSpace = false := by decide
    intro c member
    simpa using List.any_eq_false.mp light c member
  rw [Bool.eq_iff_iff]
  simp only [validCharacters, List.all_eq_true, Bool.not_eq_true', List.contains_eq_mem,
    decide_eq_false_iff_not]
  constructor
  · intro fine c member bad
    exact fine c (mem_trim_of_mem (dark c bad) member) bad
  · intro fine c member bad
    exact fine c (mem_of_mem_trim member) bad

/-- A text of twelve is still one of twelve after trimming only when nothing is trimmed. -/
theorem mac_trim_accepted {mac : String} (accepted : validateMacAddress mac = none) :
    validateMacAddress (trim mac) = none ↔ trim mac = mac := by
  rw [mac_accepted_iff] at accepted ⊢
  rw [trim_eq_iff_length, accepted]

theorem mac_segment {mac : String} (accepted : validateMacAddress mac = none)
    (plain : '/' ∉ mac.toList) (valid : validCharacters mac = true) : IsSegment mac := by
  refine ⟨?_, plain, valid⟩
  intro empty
  rw [empty] at accepted
  exact absurd accepted (by decide)

variable {form : DeviceForm}

theorem form_accepts_mac (valid : form.validate = true) :
    validateMacAddress form.macAddress = none := by
  simp only [DeviceForm.validate, Bool.and_eq_true, Option.isNone_iff_eq_none] at valid
  exact valid.2

theorem savesOneDevice_of_refused (refused : validCharacters form.macAddress = false)
    (userData : UserData) (now : DateTime) (db : Json) : SavesOneDevice form userData now db := by
  have bad : validCharacters (newDeviceId form) = false := by
    rw [newDeviceId, valid_trim, refused]
  refine Or.inl ⟨?_, ?_⟩
  · rw [ref_devicePath, bad]
    exact ⟨_, rfl⟩
  · rw [alone_saveShutterDevice]
    simp [bad]

theorem savesOneDevice_of_segment (valid : form.validate = true)
    (tight : trim form.macAddress = form.macAddress) (plain : '/' ∉ form.macAddress.toList)
    (userData : UserData) (now : DateTime) (db : Json) : SavesOneDevice form userData now db := by
  cases path : validCharacters form.macAddress with
  | false => exact savesOneDevice_of_refused path userData now db
  | true =>
    have accepted := form_accepts_mac valid
    have segment := mac_segment accepted plain path
    have id_eq : newDeviceId form = form.macAddress := tight
    have pieces_eq := pieces_segment segment.1 plain
    refine Or.inr ⟨id_eq ▸ segment, id_eq ▸ accepted, ?_, ?_⟩
    · intro key other
      rw [id_eq] at other
      rw [alone_saveShutterDevice]
      simp [valid, id_eq, path, pieces_eq, Node.child_setChild_ne other]
    · intro top other
      rw [alone_saveShutterDevice]
      simp [valid, id_eq, path, Node.child_setChild_ne other]

/-- An accepted MAC text writes one device exactly when its path is refused, or the text is
    not trimmed and holds no slash. -/
theorem saves_one_device_iff (valid : form.validate = true) (userData : UserData)
    (now : DateTime) (db : Json) :
    SavesOneDevice form userData now db ↔ validCharacters form.macAddress = false ∨
      trim form.macAddress = form.macAddress ∧ '/' ∉ form.macAddress.toList := by
  constructor
  · intro stored
    rcases stored with ⟨⟨e, refused⟩, -⟩ | ⟨⟨-, plain, -⟩, accepted, -⟩
    · rw [ref_devicePath] at refused
      split at refused
      · simp at refused
      · rename_i bad
        rw [newDeviceId, valid_trim] at bad
        exact Or.inl (by simpa using bad)
    · have tight := (mac_trim_accepted (form_accepts_mac valid)).mp accepted
      rw [newDeviceId, tight] at plain
      exact Or.inr ⟨tight, plain⟩
  · intro why
    rcases why with refused | ⟨tight, plain⟩
    · exact savesOneDevice_of_refused refused userData now db
    · exact savesOneDevice_of_segment valid tight plain userData now db

section Blank

def ada : UserData := ⟨some "uid-1", some "Ada", some "ada@x.it"⟩

def noon : DateTime := ⟨2025, 1, 1, 12, 0, 0, 0, 0, false⟩

def salon : DeviceForm := { deviceName := "Salon", macAddress := "A0B1C2D3E4F5" }

def twoDevices : Json := .branch [("ShutterDevices", .branch
  [("001122334455", .branch [("userId", Json.str "uid-1")]),
    ("AABBCCDDEEFF", .branch [("userId", Json.str "uid-2")])])]

theorem saves_one_device_salon :
    SavesOneDevice salon ada noon twoDevices ↔
      validCharacters "A0B1C2D3E4F5" = false ∨
        trim "A0B1C2D3E4F5" = "A0B1C2D3E4F5" ∧ '/' ∉ "A0B1C2D3E4F5".toList :=
  saves_one_device_iff (by decide) ada noon twoDevices

/-- Twelve blanks pass the validator and replace the whole of `ShutterDevices`. -/
theorem blank_mac_wipes_devices :
    let form : DeviceForm := { deviceName := "Salon", macAddress := "            " }
    form.validate = true ∧ ¬ SavesOneDevice form ada noon twoDevices ∧
      (alone (saveShutterDevice form ada noon) twoDevices).1.get
        ["ShutterDevices", "AABBCCDDEEFF"] = Node.null := by
  intro form
  have valid : form.validate = true := by decide
  have blank : newDeviceId form = "" := trim_blank (List.all_eq_true.mp (by decide))
  refine ⟨valid, ?_, ?_⟩
  · intro stored
    rcases stored with ⟨⟨e, refused⟩, -⟩ | ⟨⟨nonempty, -⟩, -⟩
    · rw [ref_devicePath, blank] at refused
      exact absurd refused (by simp [validCharacters])
    · exact nonempty blank
  · rw [alone_saveShutterDevice, blank]
    simp only [valid, validCharacters, String.toList_empty, List.all_nil, and_self, ↓reduceIte,
      pieces_empty, Node.set_cons, Node.set_nil, Node.get_cons, Node.child_setChild_same,
      Node.get_nil]
    rfl

end Blank
end Registration
