import SiteSurvey.Proofs.Route.Brackets
import SiteSurvey.Proofs.Survey.Findings
import SiteSurvey.Proofs.Survey.Root

/-!
# What a survey reports

The diagnostics of a survey, path by path and level by level: directories that cannot be listed,
files that cannot be read, route files with unsound brackets and paths without a project
(`ofPaths_diagnostics`). A path is reported for nothing exactly if all that the survey asks for on
it is there and sound (`pathReports_eq_nil_iff`).
-/

namespace SiteSurvey.Survey

/-! ## What is to be reported -/

/-- What a file is reported for that is only to be read. -/
def readReport? (view : FileView) (path : Path) : Option Diagnostic :=
  match view.read path with
  | .ok _ => none
  | .error error => some (.unreadable path error.message)

/-- What a route file is reported for. -/
def routeReport? (view : FileView) (path : Path) : Option Diagnostic :=
  match view.read path with
  | .ok text => (Route.File.read text path.text).fault.map fun fault =>
      .malformedRoutes (Route.malformedMessage path.text fault)
  | .error error => some (.unreadable path error.message)

/--
The names of the admin modules of a level in the order of its files: all modules of a package named
for them, and the one module of any other level.
-/
def moduleNames (level : Path) (files : List String) : List String :=
  if level.fileName? = some adminPackageName ∧ packageMarker ∈ files then
    files.filter (".py".toList.isSuffixOf ·.toList)
  else if adminFileName ∈ files then [adminFileName]
  else []

/-- What a level is reported for: its route file first, then its admin modules. -/
def levelReports (view : FileView) : Event → List Diagnostic
  | .failure path error => [.unreadable path error.message]
  | .level level files =>
    (if routeFileName ∈ files then (routeReport? view (level.join routeFileName)).toList else []) ++
      (moduleNames level files).filterMap fun name => readReport? view (level.join name)

/--
What a path is reported for: the directories that cannot be listed in the search before the first
level with the project marker, then all levels of the walk from there, or else that there is none.
-/
def pathReports (view : FileView) (options : Options) (path : Path) : List Diagnostic :=
  ((failures ((searchEvents view options path).takeWhile (!holdsMarker ·))).map fun failure =>
    .unreadable failure.1 failure.2.message) ++
  match (searchEvents view options path).find? holdsMarker with
  | none => [.notAProject path]
  | some event => (appEvents view options event.path).flatMap (levelReports view)

/-! ## It is reported -/

section Found

variable (view : FileView)

theorem findAll_diagnostics (events : List Event) :
    (findAll view events).diagnostics = events.flatMap fun event =>
      (findAt view event).diagnostics :=
  Findings.foldr_part rfl Findings.append_diagnostics _ _

theorem adminFiles_eq (level : Path) (files : List String) :
    adminFiles level files = moduleNames level files := by
  simp [adminFiles, moduleNames, isAdminPackage]

theorem findLevelRoutes_diagnostics (level : Path) (files : List String) :
    (findLevelRoutes view level files).diagnostics =
      if routeFileName ∈ files then (routeReport? view (level.join routeFileName)).toList
      else [] := by
  unfold findLevelRoutes findInFile routeReport?
  by_cases h : routeFileName ∈ files
  · rw [if_pos (by simpa using h), if_pos h]
    dsimp only
    cases view.read (level.join routeFileName) <;> rfl
  · rw [if_neg (by simpa using h), if_neg h]

theorem findLevelModels_diagnostics (level : Path) (files : List String) :
    (findLevelModels view level files).diagnostics =
      (adminFiles level files).filterMap fun name => readReport? view (level.join name) := by
  rw [findLevelModels, Findings.foldr_part rfl Findings.append_diagnostics,
    List.filterMap_eq_flatMap_toList]
  refine List.flatMap_congr fun name _ => ?_
  unfold findInFile readReport?
  cases view.read (level.join name) <;> rfl

theorem findAt_diagnostics (event : Event) :
    (findAt view event).diagnostics = levelReports view event := by
  cases event with
  | failure path error => rfl
  | level level files =>
    rw [findAt, Findings.append_diagnostics, findLevelRoutes_diagnostics,
      findLevelModels_diagnostics, adminFiles_eq]
    rfl

theorem ofRoot_diagnostics (options : Options) (root : Path) :
    (ofRoot view options root).diagnostics =
      (appEvents view options root).flatMap (levelReports view) := by
  rw [ofRoot]
  dsimp only
  rw [findAll_diagnostics]
  exact List.flatMap_congr fun event _ => findAt_diagnostics view event

theorem ofPath_diagnostics (options : Options) (path : Path) :
    (ofPath view options path).diagnostics = pathReports view options path := by
  rw [ofPath, append_diagnostics, rootDiagnostics_eq, rootTrace_eq, failures_upToFirst,
    root?_eq_find?, pathReports]
  dsimp only
  rcases (searchEvents view options path).find? holdsMarker with _ | event
  · rfl
  · exact congrArg _ (ofRoot_diagnostics view options event.path)

theorem ofPaths_diagnostics (options : Options) (paths : List Path) :
    (ofPaths view options paths).diagnostics = paths.flatMap (pathReports view options) := by
  induction paths with
  | nil => rfl
  | cons path paths ih =>
    rw [ofPaths, append_diagnostics, ofPath_diagnostics, ih, List.flatMap_cons]

end Found

/-! ## Nothing to report -/

/-- A file can be read. -/
def CanRead (view : FileView) (path : Path) : Prop :=
  ∃ text, view.read path = .ok text

/-- A file can be read and has sound brackets. -/
def CanReadRoutes (view : FileView) (path : Path) : Prop :=
  ∃ text, view.read path = .ok text ∧
    ¬ Route.IsUnsound (Source.uncommentedJoined text.toList)

/-- A directory can be listed, and its route file and its admin modules can be read. -/
def IsClear (view : FileView) : Event → Prop
  | .failure _ _ => False
  | .level level files =>
    (routeFileName ∈ files → CanReadRoutes view (level.join routeFileName)) ∧
      ∀ name ∈ moduleNames level files, CanRead view (level.join name)

/--
A path has a project root, all directories of the search for it can be listed, and all levels of the
walk from it are clear.
-/
structure IsFlawless (view : FileView) (options : Options) (path : Path) : Prop where
  searched : ∀ directory error, .failure directory error ∉ (rootTrace view options path).events
  found : ∃ root, root? view options path = some root ∧
    ∀ event ∈ appEvents view options root, IsClear view event

section Clear

variable (view : FileView)

theorem readReport?_eq_none_iff (path : Path) :
    readReport? view path = none ↔ CanRead view path := by
  unfold readReport? CanRead
  cases view.read path <;> simp

theorem routeReport?_eq_none_iff (path : Path) :
    routeReport? view path = none ↔ CanReadRoutes view path := by
  unfold routeReport? CanReadRoutes
  rcases view.read path with error | text
  · simp
  · simp [Route.File.read_fault_eq_none_iff]

theorem levelReports_eq_nil_iff (event : Event) :
    levelReports view event = [] ↔ IsClear view event := by
  cases event with
  | failure path error => simp [levelReports, IsClear]
  | level level files =>
    rw [levelReports, IsClear, List.append_eq_nil_iff, List.filterMap_eq_nil_iff]
    refine and_congr ?_ (forall₂_congr fun name _ => readReport?_eq_none_iff view _)
    rw [← routeReport?_eq_none_iff]
    split_ifs with h <;> simp [h]

theorem failures_eq_nil_iff (events : List Event) :
    failures events = [] ↔ ∀ directory error, .failure directory error ∉ events := by
  rw [failures, List.filterMap_eq_nil_iff]
  constructor
  · intro h directory error hmem
    simpa using h _ hmem
  · intro h event hmem
    cases event with
    | level path files => rfl
    | failure path error => exact absurd hmem (h path error)

theorem pathReports_eq_nil_iff (options : Options) (path : Path) :
    pathReports view options path = [] ↔ IsFlawless view options path := by
  have hsearch : (∀ directory error,
      .failure directory error ∉ (rootTrace view options path).events) ↔
        failures ((searchEvents view options path).takeWhile (!holdsMarker ·)) = [] := by
    rw [← failures_eq_nil_iff, rootTrace_eq, failures_upToFirst]
  rw [pathReports, List.append_eq_nil_iff, List.map_eq_nil_iff, ← hsearch]
  constructor
  · rintro ⟨hs, h⟩
    refine ⟨hs, ?_⟩
    rw [root?_eq_find?]
    rcases hf : (searchEvents view options path).find? holdsMarker with _ | event
    · rw [hf] at h
      cases h
    · rw [hf] at h
      refine ⟨event.path, rfl, fun level hl => ?_⟩
      exact (levelReports_eq_nil_iff view level).1 (List.flatMap_eq_nil_iff.1 h level hl)
  · rintro ⟨hs, root, hroot, h⟩
    refine ⟨hs, ?_⟩
    rw [root?_eq_find?] at hroot
    obtain ⟨event, hevent, rfl⟩ := Option.map_eq_some_iff.1 hroot
    rw [hevent]
    exact List.flatMap_eq_nil_iff.2 fun level hl =>
      (levelReports_eq_nil_iff view level).2 (h level hl)

theorem ofPaths_diagnostics_eq_nil_iff (options : Options) (paths : List Path) :
    (ofPaths view options paths).diagnostics = [] ↔
      ∀ path ∈ paths, IsFlawless view options path := by
  rw [ofPaths_diagnostics, List.flatMap_eq_nil_iff]
  exact forall₂_congr fun path _ => pathReports_eq_nil_iff view options path

end Clear

end SiteSurvey.Survey
