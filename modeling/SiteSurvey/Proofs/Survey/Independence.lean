import SiteSurvey.Proofs.Survey.Diagnostics

/-!
# Paths one by one

Each path is surveyed as if it were the only one, and a survey of a project's root finds the project
again, since the search for the root stops where it begins (`ofPaths_independent`).
-/

namespace SiteSurvey.Survey

/-! ## Paths without a project -/

def isNotAProject : Diagnostic → Bool
  | .notAProject _ => true
  | _ => false

section Count

variable (view : FileView) (options : Options)

theorem isNotAProject_of_mem_levelReports {event : Event} {diagnostic : Diagnostic}
    (h : diagnostic ∈ levelReports view event) : isNotAProject diagnostic = false := by
  cases event with
  | failure path error =>
    obtain rfl := List.mem_singleton.1 h
    rfl
  | level level files =>
    rcases List.mem_append.1 h with hroutes | hmodules
    · split_ifs at hroutes
      · rw [Option.mem_toList, routeReport?] at hroutes
        split at hroutes
        · obtain ⟨fault, -, rfl⟩ := Option.map_eq_some_iff.1 hroutes
          rfl
        · cases hroutes
          rfl
      · cases hroutes
    · obtain ⟨name, -, hname⟩ := List.mem_filterMap.1 hmodules
      rw [readReport?] at hname
      split at hname
      · cases hname
      · cases hname
        rfl

/-- A path has either one project or one report that it has none. -/
theorem length_projects_ofPath (path : Path) :
    (ofPath view options path).projects.length +
      (ofPath view options path).diagnostics.countP isNotAProject = 1 := by
  have hsearch (found : List (Path × AccessError)) :
      (found.map fun failure => Diagnostic.unreadable failure.1 failure.2.message).countP
        isNotAProject = 0 := by
    rw [List.countP_map, List.countP_eq_zero]
    exact fun _ _ => Bool.false_ne_true
  rw [ofPath_projects, ofPath_diagnostics, pathReports, List.countP_append, hsearch,
    root?_eq_find?]
  rcases (searchEvents view options path).find? holdsMarker with _ | event
  · rfl
  · have hlevels : ((appEvents view options event.path).flatMap (levelReports view)).countP
        isNotAProject = 0 := by
      rw [List.countP_eq_zero]
      intro diagnostic hmem
      obtain ⟨level, -, hlevel⟩ := List.mem_flatMap.1 hmem
      rw [isNotAProject_of_mem_levelReports view hlevel]
      exact Bool.false_ne_true
    dsimp only
    rw [hlevels]
    rfl

theorem length_projects_ofPaths (paths : List Path) :
    (ofPaths view options paths).projects.length +
      (ofPaths view options paths).diagnostics.countP isNotAProject = paths.length := by
  induction paths with
  | nil => rfl
  | cons path paths ih =>
    have hpath := length_projects_ofPath view options path
    rw [ofPaths, append_projects, append_diagnostics, List.length_append, List.countP_append,
      List.length_cons]
    omega

end Count

/-! ## A root that was found -/

section Again

variable {view : FileView} {options : Options} {path root : Path}

/-- The search from a level with the marker stops at once. -/
theorem rootTrace_of_marker {listing : Listing} (hl : view.list root = .ok listing)
    (h : projectMarker ∈ listing.files) :
    rootTrace view options root = ⟨[.level root listing.files], true⟩ := by
  have hevent : eventAt view root = .level root listing.files := by rw [eventAt, hl]
  have hstops : (Event.level root listing.files).stops seekMarker = true := by
    rw [stops_seekMarker, holdsMarker]
    simpa using h
  have hwalk := walk_eq view options.ignored.ignores seekMarker options.projectDepth root
  rw [hevent, if_pos hstops] at hwalk
  exact hwalk

theorem ofPath_root (h : root? view options path = some root) :
    ofPath view options root = ofRoot view options root := by
  obtain ⟨-, listing, -, -, hl, hmarker⟩ := exists_reaches_of_root? h
  have htrace : rootTrace view options root = ⟨[.level root listing.files], true⟩ :=
    rootTrace_of_marker hl hmarker
  rw [ofPath, root?, rootDiagnostics, htrace]
  rfl

theorem exists_root?_of_mem_projects {project : Project}
    (h : project ∈ (ofPath view options path).projects) :
    root? view options path = some project.root ∧
      (ofRoot view options project.root).projects = [project] := by
  rw [ofPath_projects] at h
  obtain ⟨root, hroot, rfl⟩ := Option.map_eq_some_iff.1 (Option.mem_toList.1 h)
  exact ⟨hroot, rfl⟩

end Again

/-! ## Surveys path by path -/

theorem ofPaths_singleton (view : FileView) (options : Options) (path : Path) :
    (ofPaths view options [path]).projects = (ofPath view options path).projects ∧
      (ofPaths view options [path]).diagnostics = (ofPath view options path).diagnostics :=
  ⟨List.append_nil _, List.append_nil _⟩

/--
A survey of two lists of paths is the surveys of the two one after the other. Each path has one
project or is reported to have none. A survey of the root of a project gives this project alone, and
reports what the survey that found it reported after its search for the root.
-/
theorem ofPaths_independent (view : FileView) (options : Options) :
    (∀ first later : List Path,
      (ofPaths view options (first ++ later)).projects =
          (ofPaths view options first).projects ++ (ofPaths view options later).projects ∧
        (ofPaths view options (first ++ later)).diagnostics =
          (ofPaths view options first).diagnostics ++ (ofPaths view options later).diagnostics) ∧
    (∀ paths : List Path, (ofPaths view options paths).projects.length +
      (ofPaths view options paths).diagnostics.countP isNotAProject = paths.length) ∧
    ∀ path : Path, ∀ project ∈ (ofPaths view options [path]).projects,
      (ofPaths view options [project.root]).projects = [project] ∧
        (ofPaths view options [path]).diagnostics =
          rootDiagnostics view options path ++
            (ofPaths view options [project.root]).diagnostics := by
  refine ⟨fun first later => ⟨?_, ?_⟩, length_projects_ofPaths view options, ?_⟩
  · simp only [ofPaths_projects, List.flatMap_append]
  · simp only [ofPaths_diagnostics, List.flatMap_append]
  · intro path project hmem
    obtain ⟨hprojects, hdiagnostics⟩ := ofPaths_singleton view options path
    obtain ⟨hprojects', hdiagnostics'⟩ := ofPaths_singleton view options project.root
    rw [hprojects] at hmem
    obtain ⟨hroot, hfound⟩ := exists_root?_of_mem_projects hmem
    rw [hprojects', hdiagnostics, hdiagnostics', ofPath_root hroot]
    refine ⟨hfound, ?_⟩
    rw [ofPath, append_diagnostics, hroot]

/-- A project that lies behind a directory that cannot be listed. -/
def cellar : FileView where
  list path :=
    match path.text with
    | "c" => .ok ⟨[], ["coal", "wine"]⟩
    | "c/wine" => .ok ⟨["manage.py", "urls.py"], ["racks"]⟩
    | "c/wine/racks" => .ok ⟨["admin.py"], []⟩
    | _ => .error (.denied path)
  read path :=
    match path.text with
    | "c/wine/urls.py" => .ok "urlpatterns = [path('<int:year>', v, name='vintage')]"
    | _ => .error (.absent path)

theorem ofPaths_independent_cellar :
    ∃ project, (ofPaths cellar {} [⟨"c"⟩]).projects = [project] ∧ project.root = ⟨"c/wine"⟩ ∧
      (ofPaths cellar {} [⟨"c/wine"⟩]).projects = [project] ∧
      (ofPaths cellar {} [⟨"c/wine"⟩]).diagnostics =
        [.unreadable ⟨"c/wine/racks/admin.py"⟩
          "no such file or directory: c/wine/racks/admin.py"] ∧
      (ofPaths cellar {} [⟨"c"⟩]).diagnostics =
        .unreadable ⟨"c/coal"⟩ "permission denied: c/coal" ::
          (ofPaths cellar {} [⟨"c/wine"⟩]).diagnostics := by
  obtain ⟨-, -, h⟩ := ofPaths_independent cellar {}
  have hroot : root? cellar {} ⟨"c"⟩ = some ⟨"c/wine"⟩ := by decide +kernel
  have hsearch : rootDiagnostics cellar {} ⟨"c"⟩ =
      [.unreadable ⟨"c/coal"⟩ "permission denied: c/coal"] := by decide +kernel
  have hproject : (ofPaths cellar {} [⟨"c"⟩]).projects =
      [Project.ofFindings ⟨"c/wine"⟩ (findAll cellar (appEvents cellar {} ⟨"c/wine"⟩))] := by
    rw [(ofPaths_singleton ..).1, ofPath_projects, hroot]
    rfl
  obtain ⟨hagain, hdiagnostics⟩ := h ⟨"c"⟩ _ (hproject ▸ List.mem_cons_self)
  rw [hsearch] at hdiagnostics
  exact ⟨_, hproject, rfl, hagain, by decide +kernel, hdiagnostics⟩

end SiteSurvey.Survey
