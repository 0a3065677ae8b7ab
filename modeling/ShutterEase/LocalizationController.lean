import ShutterEase.Runs

/-!
The chosen language over the launches of the app. A launch starts in Italian and loads the stored
preference; a choice is shown at once, then waits for the preferences and is written to them. The
preferences may let any of those who wait for them go on next, and finish any of the writes next.
-/
namespace LocalizationController
open Runs

inductive Item where
  | english
  | italian
  deriving DecidableEq, Repr

def Item.value : Item → String
  | .english => "English"
  | .italian => "Italian"

def defaultLang : String := "it"

/-- The code that the selector's `onChanged` hands over; the menu's values are plain letters. -/
def onChanged (newValue : String) : String :=
  if newValue.toList.map Char.toLower = "english".toList then "en" else "it"

/-- `waiting` holds the choices that wait for the preferences, `cache` what the preferences
    answer, `writing` the values on their way to the disk. -/
structure App where
  languageCode : String
  loading : Bool
  waiting : List String
  cache : Option String
  writing : List String
  disk : Option String

inductive Move where
  | relaunch
  | loaded
  | loadFails
  | choose (item : Item)
  | resumed (n : Nat)
  | refused (n : Nat)
  | written (n : Nat)
  | lost (n : Nat)

/-- The controller as `onInit` leaves it. -/
def launched (disk : Option String) : App := ⟨"it", true, [], disk, [], disk⟩

def step (s : App) : Move → Option App
  | .relaunch => some (launched s.disk)
  | .loaded =>
    if s.loading then
      some { s with languageCode := s.cache.getD defaultLang, loading := false }
    else none
  | .loadFails => if s.loading then some { s with loading := false } else none
  | .choose item =>
    let langCode := onChanged item.value
    some { s with languageCode := langCode, waiting := s.waiting ++ [langCode] }
  | .resumed n =>
    match s.waiting[n]? with
    | some langCode => some { s with
        waiting := s.waiting.eraseIdx n, cache := some langCode,
        writing := s.writing ++ [langCode] }
    | none => none
  | .refused n =>
    match s.waiting[n]? with
    | some _ => some { s with waiting := s.waiting.eraseIdx n }
    | none => none
  | .written n =>
    match s.writing[n]? with
    | some langCode => some { s with writing := s.writing.eraseIdx n, disk := some langCode }
    | none => none
  | .lost n =>
    match s.writing[n]? with
    | some _ => some { s with writing := s.writing.eraseIdx n }
    | none => none

variable {s s' : App} {m : Move}

section Settled

/-- No launch, no load, and nothing that fails. -/
def Calm : Move → Prop
  | .choose _ | .resumed _ | .written _ => True
  | _ => False

/-- Those who wait for the preferences go on in the order in which they came, and writes reach the
    disk in the order in which they were sent. -/
def InOrder : Move → Prop
  | .resumed n | .written n => n = 0
  | _ => True

def Resumes : Move → Prop
  | .resumed _ => True
  | _ => False

def choice : Move → Option String
  | .choose item => some (onChanged item.value)
  | _ => none

def lastChoice : List Move → Option String
  | [] => none
  | m :: rest => (lastChoice rest).or (choice m)

theorem lastChoice_append (early late : List Move) :
    lastChoice (early ++ late) = (lastChoice late).or (lastChoice early) := by
  induction early with
  | nil => simp [lastChoice]
  | cons m rest ih => rw [List.cons_append, lastChoice, ih, lastChoice, Option.or_assoc]

/-- What the disk holds once nothing is on its way. -/
def settles (s : App) : Option String := ((s.writing ++ s.waiting).getLast?).or s.disk

/-- One move: the choice is shown and will be stored, and nothing else changes either. -/
theorem calm_step (calm : Calm m) (ordered : InOrder m) (h : step s m = some s') :
    s'.languageCode = (choice m).getD s.languageCode ∧ settles s' = (choice m).or (settles s) ∧
      (¬ Resumes m → s'.cache = s.cache) := by
  cases m with
  | choose item =>
    simp only [step, Option.some.injEq] at h
    subst h
    refine ⟨rfl, ?_, fun _ => rfl⟩
    simp only [settles, ← List.append_assoc, List.getLast?_concat]
    rfl
  | resumed n =>
    obtain rfl : n = 0 := ordered
    cases queue : s.waiting with
    | nil => simp [step, queue] at h
    | cons langCode rest =>
      simp only [step, queue, List.getElem?_cons_zero, List.eraseIdx_zero, List.tail_cons,
        Option.some.injEq] at h
      subst h
      refine ⟨rfl, ?_, fun stays => absurd trivial stays⟩
      simp only [settles, queue, List.append_assoc, List.cons_append, List.nil_append]
      rfl
  | written n =>
    obtain rfl : n = 0 := ordered
    cases queue : s.writing with
    | nil => simp [step, queue] at h
    | cons langCode rest =>
      simp only [step, queue, List.getElem?_cons_zero, List.eraseIdx_zero, List.tail_cons,
        Option.some.injEq] at h
      subst h
      refine ⟨rfl, ?_, fun _ => rfl⟩
      simp only [settles, queue, List.cons_append, List.getLast?_cons, choice, Option.none_or]
      cases (rest ++ s.waiting).getLast? <;> rfl
  | _ => exact calm.elim

theorem calm_run {moves : List Move} (calm : ∀ m ∈ moves, Calm m)
    (ordered : ∀ m ∈ moves, InOrder m) (ran : run step s moves = some s') :
    s'.languageCode = (lastChoice moves).getD s.languageCode ∧
      settles s' = (lastChoice moves).or (settles s) ∧
      ((∀ m ∈ moves, ¬ Resumes m) → s'.cache = s.cache) := by
  induction moves generalizing s with
  | nil =>
    simp only [run_nil, Option.some.injEq] at ran
    subst ran
    exact ⟨rfl, rfl, fun _ => rfl⟩
  | cons m rest ih =>
    obtain ⟨q, here, later⟩ := run_cons ran
    obtain ⟨shown, stored, kept⟩ := calm_step (calm m (by simp)) (ordered m (by simp)) here
    obtain ⟨shown', stored', kept'⟩ := ih (fun n member => calm n (by simp [member]))
      (fun n member => ordered n (by simp [member])) later
    refine ⟨?_, ?_, fun stay => ?_⟩
    · rw [shown', shown, lastChoice]
      cases lastChoice rest <;> rfl
    · rw [stored', stored, lastChoice, Option.or_assoc]
    · rw [kept' fun n member => stay n (by simp [member]), kept (stay m (by simp))]

/-- A launch in which nothing fails, at rest: the disk holds the last choice, but the screen shows
    it only when it was made after the load, which puts back what was stored before. So the two
    agree exactly when there was a choice after the load, or the last one before it chose what
    was stored anyway. The load asks for the preferences first, so no choice goes on before it. -/
theorem shown_is_stored_iff {disk : Option String} {early late : List Move}
    (calm_early : ∀ m ∈ early, Calm m) (calm_late : ∀ m ∈ late, Calm m)
    (load_first : ∀ m ∈ early, ¬ Resumes m)
    (ordered_early : ∀ m ∈ early, InOrder m) (ordered_late : ∀ m ∈ late, InOrder m)
    (ran : run step (launched disk) (early ++ .loaded :: late) = some s)
    (at_rest : s.waiting = [] ∧ s.writing = []) :
    s.languageCode = (lastChoice late).getD (disk.getD defaultLang) ∧
      s.disk = (lastChoice (early ++ late)).or disk ∧
      (s.languageCode = s.disk.getD defaultLang ↔ lastChoice late ≠ none ∨
        ((lastChoice early).or disk).getD defaultLang = disk.getD defaultLang) := by
  obtain ⟨p, first, second⟩ := run_split ran
  obtain ⟨q, load, third⟩ := run_cons second
  obtain ⟨-, stored, kept⟩ := calm_run calm_early ordered_early first
  have cached := kept load_first
  have loaded : q = { p with languageCode := p.cache.getD defaultLang, loading := false } := by
    simp only [step] at load
    split at load
    · simpa using load.symm
    · simp at load
  subst loaded
  obtain ⟨shown', stored', -⟩ := calm_run calm_late ordered_late third
  have screen : s.languageCode = (lastChoice late).getD (disk.getD defaultLang) := by
    rw [shown', cached]
    rfl
  have left : s.disk = (lastChoice (early ++ late)).or disk := by
    have all : settles s = s.disk := by simp [settles, at_rest.1, at_rest.2]
    have before : settles (launched disk) = disk := rfl
    have same : settles { p with languageCode := p.cache.getD defaultLang, loading := false } =
      settles p := rfl
    rw [← all, stored', same, stored, before, lastChoice_append, Option.or_assoc]
  refine ⟨screen, left, ?_⟩
  rw [screen, left, lastChoice_append]
  cases lastChoice late with
  | none => simp [eq_comm]
  | some langCode => simp

theorem choice_before_load : ∃ s, run step (launched (some "it"))
      ([.choose .english] ++ .loaded :: [.resumed 0, .written 0]) = some s ∧
    s.languageCode = (lastChoice [.resumed 0, .written 0]).getD ((some "it").getD defaultLang) ∧
    s.disk = (lastChoice ([.choose .english] ++ [.resumed 0, .written 0])).or (some "it") ∧
    (s.languageCode = s.disk.getD defaultLang ↔ lastChoice [.resumed 0, .written 0] ≠ none ∨
      ((lastChoice [.choose .english]).or (some "it")).getD defaultLang =
        (some "it").getD defaultLang) := by
  have ran : run step (launched (some "it"))
      ([.choose .english] ++ .loaded :: [.resumed 0, .written 0]) =
        some ⟨"it", false, [], some (onChanged "English"), [], some (onChanged "English")⟩ := rfl
  refine ⟨_, ran, shown_is_stored_iff ?_ ?_ ?_ ?_ ?_ ran ⟨rfl, rfl⟩⟩
  · simp [Calm]
  · simp [Calm]
  · simp [Resumes]
  · simp [InOrder]
  · simp [InOrder]

end Settled
end LocalizationController
