import Mathlib.Data.List.Basic
import SiteSurvey.Survey.Scan

/-!
# Findings part by part

What the levels of a walk yield is the levels' findings one after another, in each of its parts
(`findAll_routeFiles`, `findAll_models`). Route files come from the route files of levels alone, and
models from their admin modules alone; views that read these files alike find the same
(`findLevelRoutes_congr`, `findLevelModels_congr`). The projects of a survey are those of its paths
one after another (`ofPaths_projects`).
-/

namespace SiteSurvey.Survey

/-- A part of the findings that are put together from a list is put together from its members. -/
theorem Findings.foldr_part {α β : Type} {part : Findings → List β} (hempty : part {} = [])
    (happend : ∀ first later, part (first ++ later) = part first ++ part later)
    (find : α → Findings) (xs : List α) :
    part (xs.foldr (fun x later => find x ++ later) {}) = xs.flatMap fun x => part (find x) := by
  induction xs with
  | nil => exact hempty
  | cons x xs ih => rw [List.foldr_cons, happend, ih, List.flatMap_cons]

@[simp]
theorem Findings.append_diagnostics (first later : Findings) :
    (first ++ later).diagnostics = first.diagnostics ++ later.diagnostics := rfl

@[simp]
theorem Findings.append_routeFiles (first later : Findings) :
    (first ++ later).routeFiles = first.routeFiles ++ later.routeFiles := rfl

@[simp]
theorem Findings.append_models (first later : Findings) :
    (first ++ later).models = first.models ++ later.models := rfl

variable (view : FileView)

theorem findAll_routeFiles (events : List Event) :
    (findAll view events).routeFiles = events.flatMap fun event =>
      (findAt view event).routeFiles :=
  Findings.foldr_part rfl Findings.append_routeFiles _ _

/-- Admin modules yield no routes. -/
theorem findLevelModels_routeFiles (level : Path) (files : List String) :
    (findLevelModels view level files).routeFiles = [] := by
  rw [findLevelModels, Findings.foldr_part rfl Findings.append_routeFiles, List.flatMap_eq_nil_iff]
  intro name _
  rw [findInFile]
  split <;> rfl

theorem findAll_models (events : List Event) :
    (findAll view events).models = events.flatMap fun event => (findAt view event).models :=
  Findings.foldr_part rfl Findings.append_models _ _

/-- Route files yield no models. -/
theorem findLevelRoutes_models (level : Path) (files : List String) :
    (findLevelRoutes view level files).models = [] := by
  unfold findLevelRoutes findInFile
  split
  · dsimp only
    split <;> rfl
  · rfl

theorem findLevelModels_models (level : Path) (files : List String) :
    (findLevelModels view level files).models =
      (adminFiles level files).flatMap fun name =>
        (findInFile view (level.join name) (findModels (adminLabel level files))).models :=
  Findings.foldr_part rfl Findings.append_models _ _

/-! ## Surveys of many paths -/

@[simp]
theorem append_projects (first later : Survey) :
    (first ++ later).projects = first.projects ++ later.projects := rfl

@[simp]
theorem append_diagnostics (first later : Survey) :
    (first ++ later).diagnostics = first.diagnostics ++ later.diagnostics := rfl

/-- A path has one project or none, as its root is found or not. -/
theorem ofPath_projects (options : Options) (path : Path) :
    (ofPath view options path).projects = ((root? view options path).map fun root =>
      Project.ofFindings root (findAll view (appEvents view options root))).toList := by
  rw [ofPath, append_projects]
  rcases root? view options path with _ | root
  · rfl
  · rfl

theorem ofPaths_projects (options : Options) (paths : List Path) :
    (ofPaths view options paths).projects =
      paths.flatMap fun path => (ofPath view options path).projects := by
  induction paths with
  | nil => rfl
  | cons path paths ih => rw [ofPaths, append_projects, ih, List.flatMap_cons]

/-! ## Views that read alike -/

section Alike

variable {first second : FileView} {level : Path} {files : List String}

theorem findInFile_congr {path : Path} (h : first.read path = second.read path)
    (find : String → Findings) : findInFile first path find = findInFile second path find := by
  rw [findInFile, findInFile, h]

theorem findLevelRoutes_congr
    (h : routeFileName ∈ files →
      first.read (level.join routeFileName) = second.read (level.join routeFileName)) :
    findLevelRoutes first level files = findLevelRoutes second level files := by
  unfold findLevelRoutes
  split_ifs with hfile
  · exact findInFile_congr (h (by simpa using hfile)) _
  · rfl

theorem findLevelModels_congr
    (h : ∀ name ∈ adminFiles level files,
      first.read (level.join name) = second.read (level.join name)) :
    findLevelModels first level files = findLevelModels second level files := by
  refine List.foldr_ext _ _ _ fun name hname later => ?_
  rw [findInFile_congr (h name hname)]

theorem findAll_congr {events : List Event}
    (h : ∀ event ∈ events, findAt first event = findAt second event) :
    findAll first events = findAll second events := by
  refine List.foldr_ext _ _ _ fun event hevent later => ?_
  rw [h event hevent]

end Alike

end SiteSurvey.Survey
