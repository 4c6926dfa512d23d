import SiteSurvey.Proofs.Path
import SiteSurvey.Proofs.Survey.Diagnostics
import SiteSurvey.Proofs.Survey.Routes

/-!
# A change to one route file

Two views that differ in what one route file holds give projects of the same roots with the same
models. Their routes agree on all namespaces that the file declares in neither view, and what is
reported agrees except for what concerns the file (`ofPaths_route_change`).
-/

namespace SiteSurvey.Survey

open scoped Classical

/-! ## What the file has a part in -/

/-- The views differ at most in what reading one file gives, however the path to it is written. -/
structure AlikeBut (file : Path) (first second : FileView) : Prop where
  list_eq : ∀ path, first.list path = second.list path
  read_eq : ∀ path, path.parts ≠ file.parts → first.read path = second.read path

/-- A package of admin modules lists the file. -/
def InAdminPackage (view : FileView) (file : Path) : Prop :=
  ∃ level listing name, view.list level = .ok listing ∧
    (level.fileName? = some adminPackageName ∧ packageMarker ∈ listing.files) ∧
    name ∈ listing.files ∧ (level.join name).parts = file.parts

/-- The file can be read as a route file, and its routes belong to the namespace. -/
def Declares (view : FileView) (file : Path) (space : Route.Namespace) : Prop :=
  ∃ path text, path.parts = file.parts ∧ view.read path = .ok text ∧
    (Route.File.read text path.text).space = space

/-- What is reported of the file: that it cannot be read, or that its brackets are unsound. -/
inductive Concerns (file : Path) : Diagnostic → Prop where
  | unreadable {path : Path} (h : path.parts = file.parts) (reason : String) :
    Concerns file (.unreadable path reason)
  | malformed {path : Path} (h : path.parts = file.parts) (fault : Source.Unmatched) :
    Concerns file (.malformedRoutes (Route.malformedMessage path.text fault))

/-- Two projects agree but for the routes of some namespaces. -/
structure Project.AgreeBut (dropped : Route.Namespace → Prop) (first second : Project) : Prop where
  root_eq : first.root = second.root
  models_eq : first.models = second.models
  routes_eq : first.routes.filterKeys (¬ dropped ·) = second.routes.filterKeys (¬ dropped ·)

/-! ## The file itself -/

section File

variable {view : FileView} {file level : Path}

theorem filter_routeText? {dropped : Route.Namespace → Prop}
    (h : (level.join routeFileName).parts = file.parts)
    (hdropped : ∀ space, Declares view file space → dropped space) (files : List String) :
    (routeText? view (.level level files)).filter (¬ dropped ·.space) = none := by
  rw [routeText?]
  split_ifs with hfile
  · rcases hread : view.read (level.join routeFileName) with error | text
    · rfl
    · have hspace := hdropped _ ⟨_, text, h, hread, rfl⟩
      exact if_neg fun hkept => (of_decide_eq_true hkept : ¬ dropped _) hspace
  · rfl

theorem concerns_of_mem_routeReport? {path : Path} (h : path.parts = file.parts)
    {diagnostic : Diagnostic} (hmem : diagnostic ∈ routeReport? view path) :
    Concerns file diagnostic := by
  unfold routeReport? at hmem
  split at hmem
  · obtain ⟨fault, -, rfl⟩ := Option.map_eq_some_iff.1 hmem
    exact .malformed h fault
  · cases hmem
    exact .unreadable h _

/-- A route file is no admin module, unless a package lists it. -/
theorem parts_ne_of_mem_moduleNames (hname : file.fileName? = some routeFileName)
    (hpackage : ¬ InAdminPackage view file) {listing : Listing}
    (hl : view.list level = .ok listing) {name : String}
    (h : name ∈ moduleNames level listing.files) : (level.join name).parts ≠ file.parts := by
  intro he
  unfold moduleNames at h
  split_ifs at h with hp hfile
  · exact hpackage ⟨level, listing, name, hl, hp, (List.mem_filter.1 h).1, he⟩
  · obtain rfl := List.mem_singleton.1 h
    have hadmin : Path.IsPlain adminFileName := by decide
    rw [Path.fileName?, ← he, Path.parts_join level hadmin, List.getLast?_concat] at hname
    exact absurd (Option.some.inj hname) (by decide)
  · cases h

end File

/-! ## All else -/

namespace AlikeBut

variable {file : Path} {first second : FileView} (hview : AlikeBut file first second)
include hview

theorem walk_eq (ignored : String → Bool) (choose : Path → List String → Choice) (depth : Nat)
    (root : Path) : walk first ignored choose depth root = walk second ignored choose depth root :=
  walk_congr fun _ _ => hview.list_eq _

theorem appEvents_eq (options : Options) (root : Path) :
    appEvents first options root = appEvents second options root :=
  congrArg Trace.events (hview.walk_eq ..)

theorem root?_eq (options : Options) (path : Path) :
    root? first options path = root? second options path := by
  rw [root?, root?, rootTrace, hview.walk_eq]
  rfl

theorem filter_routeText?_eq {dropped : Route.Namespace → Prop}
    (hfirst : ∀ space, Declares first file space → dropped space)
    (hsecond : ∀ space, Declares second file space → dropped space) (event : Event) :
    (routeText? first event).filter (¬ dropped ·.space) =
      (routeText? second event).filter (¬ dropped ·.space) := by
  cases event with
  | failure path error => rfl
  | level level files =>
    by_cases h : (level.join routeFileName).parts = file.parts
    · rw [filter_routeText? h hfirst, filter_routeText? h hsecond]
    · rw [routeText?, routeText?, hview.read_eq _ h]

theorem routes_eq (options : Options) (root : Path) {dropped : Route.Namespace → Prop}
    (hfirst : ∀ space, Declares first file space → dropped space)
    (hsecond : ∀ space, Declares second file space → dropped space) :
    (Project.ofFindings root (findAll first (appEvents first options root))).routes.filterKeys
        (¬ dropped ·) =
      (Project.ofFindings root (findAll second (appEvents second options root))).routes.filterKeys
        (¬ dropped ·) := by
  have htexts : (routeTexts first options root).filter (¬ dropped ·.space) =
      (routeTexts second options root).filter (¬ dropped ·.space) := by
    rw [routeTexts, routeTexts, List.filter_filterMap, List.filter_filterMap,
      hview.appEvents_eq options root]
    exact List.filterMap_congr fun event _ => hview.filter_routeText?_eq hfirst hsecond event
  rw [Project.ofFindings, Project.ofFindings]
  dsimp only
  rw [findAll_routeFiles_eq, findAll_routeFiles_eq, filterKeys_routeTable, filterKeys_routeTable,
    htexts]

/-! ### With a route file outside of packages -/

variable (hname : file.fileName? = some routeFileName) (hpackage : ¬ InAdminPackage first file)
include hname hpackage

theorem read_eq_of_mem_moduleNames {level : Path} {listing : Listing}
    (hl : first.list level = .ok listing) {name : String}
    (h : name ∈ moduleNames level listing.files) :
    first.read (level.join name) = second.read (level.join name) :=
  hview.read_eq _ (parts_ne_of_mem_moduleNames hname hpackage hl h)

theorem models_eq (options : Options) (root : Path) :
    (Project.ofFindings root (findAll first (appEvents first options root))).models =
      (Project.ofFindings root (findAll second (appEvents second options root))).models := by
  rw [Project.ofFindings, Project.ofFindings]
  refine congrArg ModelTable.ofModules ?_
  rw [findAll_models, findAll_models, ← hview.appEvents_eq options root]
  refine List.flatMap_congr fun event hevent => ?_
  cases event with
  | failure path error => rfl
  | level level files =>
    obtain ⟨-, listing, -, -, hl, rfl⟩ := exists_listing_of_mem_events hevent
    rw [findAt, findAt, Findings.append_models, Findings.append_models, findLevelRoutes_models,
      findLevelRoutes_models, findLevelModels_congr fun name h =>
        hview.read_eq_of_mem_moduleNames hname hpackage hl (adminFiles_eq .. ▸ h)]

theorem levelReports_eq {options : Options} {root : Path} {event : Event}
    (hevent : event ∈ appEvents first options root) :
    (levelReports first event).filter (¬ Concerns file ·) =
      (levelReports second event).filter (¬ Concerns file ·) := by
  cases event with
  | failure path error => rfl
  | level level files =>
    obtain ⟨-, listing, -, -, hl, rfl⟩ := exists_listing_of_mem_events hevent
    have hmodules : ((moduleNames level listing.files).filterMap fun name =>
        readReport? first (level.join name)) =
          (moduleNames level listing.files).filterMap fun name =>
            readReport? second (level.join name) := by
      refine List.filterMap_congr fun name h => ?_
      rw [readReport?, readReport?, hview.read_eq_of_mem_moduleNames hname hpackage hl h]
    rw [levelReports, levelReports, List.filter_append, List.filter_append, hmodules]
    refine congrArg (· ++ _) ?_
    by_cases h : (level.join routeFileName).parts = file.parts
    · have hnone (view : FileView) :
          ((routeReport? view (level.join routeFileName)).toList).filter (¬ Concerns file ·) =
            [] := by
        rw [List.filter_eq_nil_iff]
        intro diagnostic hmem
        simpa using concerns_of_mem_routeReport? h (Option.mem_toList.1 hmem)
      split_ifs
      · rw [hnone, hnone]
      · rfl
    · rw [routeReport?, routeReport?, hview.read_eq _ h]

theorem pathReports_eq (options : Options) (path : Path) :
    (pathReports first options path).filter (¬ Concerns file ·) =
      (pathReports second options path).filter (¬ Concerns file ·) := by
  have hsearch : searchEvents first options path = searchEvents second options path :=
    congrArg Trace.events (hview.walk_eq ..)
  rw [pathReports, pathReports, List.filter_append, List.filter_append, ← hsearch]
  refine congrArg _ ?_
  rcases (searchEvents first options path).find? holdsMarker with _ | event
  · rfl
  · dsimp only
    rw [List.filter_flatMap, List.filter_flatMap, ← hview.appEvents_eq options event.path]
    exact List.flatMap_congr fun level hlevel => hview.levelReports_eq hname hpackage hlevel

theorem ofPath_projects_agree (options : Options) (path : Path) :
    List.Forall₂ (Project.AgreeBut fun space =>
        Declares first file space ∨ Declares second file space)
      (ofPath first options path).projects (ofPath second options path).projects := by
  rw [ofPath_projects, ofPath_projects, ← hview.root?_eq options path]
  rcases root? first options path with _ | root
  · exact .nil
  · exact .cons ⟨rfl, hview.models_eq hname hpackage options root,
      hview.routes_eq options root (fun _ => Or.inl) fun _ => Or.inr⟩ .nil

end AlikeBut

/-! ## Surveys before and after -/

/--
A change to what one route file outside of packages of admin modules holds, or to whether it can be
read, leaves the roots and the models of all projects as they are, and their routes but for the
namespaces that the file declares before or after. What is reported of other files stays as well.
-/
theorem ofPaths_route_change {file : Path} {first second : FileView}
    (hview : AlikeBut file first second) (hname : file.fileName? = some routeFileName)
    (hpackage : ¬ InAdminPackage first file) (options : Options) (paths : List Path) :
    List.Forall₂ (Project.AgreeBut fun space =>
        Declares first file space ∨ Declares second file space)
      (ofPaths first options paths).projects (ofPaths second options paths).projects ∧
    (ofPaths first options paths).diagnostics.filter (¬ Concerns file ·) =
      (ofPaths second options paths).diagnostics.filter (¬ Concerns file ·) := by
  constructor
  · induction paths with
    | nil => exact .nil
    | cons path paths ih =>
      rw [ofPaths, ofPaths, append_projects, append_projects]
      exact List.rel_append (hview.ofPath_projects_agree hname hpackage options path) ih
  · rw [ofPaths_diagnostics, ofPaths_diagnostics, List.filter_flatMap, List.filter_flatMap]
    exact List.flatMap_congr fun path _ => hview.pathReports_eq hname hpackage options path

/-- The market with one route file gone bad. -/
def spoiledMarket : FileView where
  list := market.list
  read path :=
    if path.text = "m/cheese/urls.py" then .ok "app_name='feta'\nx = [p('a', v, name='brie')]]"
    else market.read path

theorem alikeBut_spoiledMarket : AlikeBut ⟨"m/cheese/urls.py"⟩ market spoiledMarket where
  list_eq _ := rfl
  read_eq path h := by
    have htext : path.text ≠ "m/cheese/urls.py" := fun e => h (Path.parts_congr_text e)
    exact (if_neg htext).symm

theorem not_inAdminPackage_market (file : Path) : ¬ InAdminPackage market file := by
  rintro ⟨path, listing, name, hl, ⟨hadmin, -⟩, -⟩
  have hlevels : ∀ text ∈ ["m", "m/bread", "m/cheese", "m/fish", "m/wine"],
      (Path.mk text).fileName? ≠ some adminPackageName := by decide
  refine hlevels path.text ?_ ((Path.fileName?_mk_text path).trans hadmin)
  unfold market at hl
  dsimp only at hl
  split at hl
  · simp [*]
  · simp [*]
  · simp [*]
  · simp [*]
  · simp [*]
  · cases hl

theorem ofPaths_route_change_market :
    (ofPaths market {} [⟨"m"⟩]).diagnostics ≠ (ofPaths spoiledMarket {} [⟨"m"⟩]).diagnostics ∧
    List.Forall₂ (Project.AgreeBut fun space =>
        Declares market ⟨"m/cheese/urls.py"⟩ space ∨
          Declares spoiledMarket ⟨"m/cheese/urls.py"⟩ space)
      (ofPaths market {} [⟨"m"⟩]).projects (ofPaths spoiledMarket {} [⟨"m"⟩]).projects ∧
    (ofPaths market {} [⟨"m"⟩]).diagnostics.filter (¬ Concerns ⟨"m/cheese/urls.py"⟩ ·) =
      (ofPaths spoiledMarket {} [⟨"m"⟩]).diagnostics.filter
        (¬ Concerns ⟨"m/cheese/urls.py"⟩ ·) := by
  refine ⟨by decide +kernel, ?_⟩
  exact ofPaths_route_change alikeBut_spoiledMarket (by decide) (not_inAdminPackage_market _) {} _

end SiteSurvey.Survey
