import SiteSurvey.Proofs.OrderedMap
import SiteSurvey.Proofs.Survey.Findings

/-!
# The routes of a project

The routes of a project come from the route files that the walk from its root can read, and from
nothing else. A namespace stands where the first file that declares it stands, and holds the routes
of the last file that declares it (`ofPath_routes`).
-/

namespace SiteSurvey.Survey

/-! ## Route files -/

/-- A route file that was read, with its path. -/
structure RouteText where
  path : Path
  text : String
  deriving DecidableEq, Repr

namespace RouteText

/-- The namespace that the file declares, or else the file's own. -/
def space (file : RouteText) : Route.Namespace :=
  (Route.File.read file.text file.path.text).space

/-- The texts of the route tuples in the file; none if its brackets are unsound. -/
def tuples (file : RouteText) : List (List Char) :=
  match Route.File.tuplesOf (Source.uncommentedJoined file.text.toList) with
  | .ok tuples => tuples
  | .error _ => []

/-- The routes that the named tuples of the file declare in a namespace. -/
def routes (file : RouteText) (space : Route.Namespace) : List Route :=
  file.tuples.filterMap (Route.ofTuple? space)

/-- The file as the survey records it. -/
def read (file : RouteText) : Route.File :=
  Route.File.read file.text file.path.text

theorem read_tuples (file : RouteText) :
    file.read.tuples.map String.toList = file.tuples := by
  unfold read tuples Route.File.read
  dsimp only
  rcases Route.File.tuplesOf (Source.uncommentedJoined file.text.toList) with fault | tuples
  · rfl
  · simp [Function.comp_def]

end RouteText

/-- The route file that an event of a walk leads to, if the level lists one that can be read. -/
def routeText? (view : FileView) : Event → Option RouteText
  | .failure _ _ => none
  | .level level files =>
    if routeFileName ∈ files then
      match view.read (level.join routeFileName) with
      | .ok text => some ⟨level.join routeFileName, text⟩
      | .error _ => none
    else none

/-- The route files that the walk from a project root can read, in its order. -/
def routeTexts (view : FileView) (options : Options) (root : Path) : List RouteText :=
  (appEvents view options root).filterMap (routeText? view)

section Found

variable (view : FileView)

theorem findAt_routeFiles (event : Event) :
    (findAt view event).routeFiles = ((routeText? view event).map RouteText.read).toList := by
  cases event with
  | failure path error => rfl
  | level level files =>
    rw [findAt, Findings.append_routeFiles, findLevelModels_routeFiles, List.append_nil,
      findLevelRoutes, routeText?]
    by_cases h : routeFileName ∈ files
    · rw [if_pos (by simpa using h), if_pos h]
      dsimp only
      rw [findInFile]
      cases view.read (level.join routeFileName) <;> rfl
    · rw [if_neg (by simpa using h), if_neg h]
      rfl

theorem findAll_routeFiles_eq (options : Options) (root : Path) :
    (findAll view (appEvents view options root)).routeFiles =
      (routeTexts view options root).map RouteText.read := by
  rw [findAll_routeFiles, routeTexts, List.map_filterMap, List.filterMap_eq_flatMap_toList]
  exact List.flatMap_congr fun event _ => findAt_routeFiles view event

end Found

/-! ## Their routes -/

theorem entries_rawTables (files : List RouteText) :
    ((files.map RouteText.read).map Route.File.raw).flatMap OrderedMap.entries =
      files.map fun file => (file.space, file.read.tuples) := by
  rw [List.map_map, List.flatMap_map, List.map_eq_flatMap]
  rfl

theorem keys_routeTable (files : List RouteText) :
    (Route.Table.ofRawTables ((files.map RouteText.read).map Route.File.raw)).keys =
      (files.map RouteText.space).eraseDups := by
  rw [Route.Table.ofRawTables, Route.Table.ofRaw, OrderedMap.keys_mapEntries,
    OrderedMap.keys_merge, List.map_map, List.flatMap_map, List.map_eq_flatMap]
  rfl

theorem get?_routeTable (files : List RouteText) (space : Route.Namespace) :
    (Route.Table.ofRawTables ((files.map RouteText.read).map Route.File.raw)).get? space =
      ((files.filter (·.space = space)).getLast?).map (·.routes space) := by
  rw [Route.Table.ofRawTables, Route.Table.ofRaw, OrderedMap.get?_mapEntries,
    OrderedMap.get?_merge, entries_rawTables, OrderedMap.lastValue?, List.filter_map,
    List.getLast?_map, Option.map_map, Option.map_map]
  refine Option.map_congr fun file _ => ?_
  dsimp only [Function.comp_apply]
  rw [RouteText.routes, ← RouteText.read_tuples, List.filterMap_map]
  rfl

/-- Without the files of some namespaces, the table has the other namespaces as before. -/
theorem filterKeys_routeTable (files : List RouteText) (keep : Route.Namespace → Bool) :
    (Route.Table.ofRawTables ((files.map RouteText.read).map Route.File.raw)).filterKeys keep =
      Route.Table.ofRawTables
        (((files.filter (keep ·.space)).map RouteText.read).map Route.File.raw) := by
  rw [Route.Table.ofRawTables, Route.Table.ofRawTables, Route.Table.ofRaw, Route.Table.ofRaw,
    OrderedMap.filterKeys_mapEntries, OrderedMap.merge_eq_ofList, OrderedMap.merge_eq_ofList,
    entries_rawTables, entries_rawTables, OrderedMap.ofList, OrderedMap.filterKeys_insertAll,
    List.filter_map]
  rfl

theorem qualifiedName_of_mem_routes {file : RouteText} {space : Route.Namespace} {route : Route}
    (h : route ∈ file.routes space) : route.qualifiedName = space.qualify route.name := by
  obtain ⟨tuple, -, ht⟩ := List.mem_filterMap.1 h
  obtain ⟨name, -, rfl⟩ := Option.map_eq_some_iff.1 ht
  rfl

/-! ## The routes of a project -/

/--
The namespaces of a project are those of its route files, each once, in the order in which they
first come. The routes of a namespace are those of the last file that declares it.
-/
theorem ofPath_routes (view : FileView) (options : Options) {path root : Path}
    (h : root? view options path = some root) :
    ∃ project, (ofPath view options path).projects = [project] ∧ project.root = root ∧
      project.routes.keys = ((routeTexts view options root).map (·.space)).eraseDups ∧
      (∀ space, project.routes.get? space =
        (((routeTexts view options root).filter (·.space = space)).getLast?).map
          (·.routes space)) ∧
      ∀ space routes, project.routes.get? space = some routes →
        ∀ route ∈ routes, route.qualifiedName = space.qualify route.name := by
  have hfound := findAll_routeFiles_eq view options root
  refine ⟨Project.ofFindings root (findAll view (appEvents view options root)), ?_, rfl, ?_⟩
  · rw [ofPath, h]
    rfl
  · have hget (space : Route.Namespace) :=
      get?_routeTable (routeTexts view options root) space
    rw [← hfound] at hget
    refine ⟨?_, hget, fun space routes hroutes route hroute => ?_⟩
    · have hkeys := keys_routeTable (routeTexts view options root)
      rw [← hfound] at hkeys
      exact hkeys
    · obtain ⟨file, -, rfl⟩ := Option.map_eq_some_iff.1 ((hget space).symm.trans hroutes)
      exact qualifiedName_of_mem_routes hroute

/-- A project where two files share a namespace, one is unsound and one cannot be read. -/
def market : FileView where
  list path :=
    match path.text with
    | "m" => .ok ⟨["manage.py", "urls.py"], ["bread", "cheese", "fish", "wine"]⟩
    | "m/bread" | "m/cheese" | "m/fish" | "m/wine" => .ok ⟨["urls.py"], []⟩
    | _ => .error (.absent path)
  read path :=
    match path.text with
    | "m/urls.py" => .ok "urlpatterns = [path('', v, name='home')]"
    | "m/bread/urls.py" => .ok "app_name='stall'\nx = [p('a', v, name='rye')]"
    | "m/cheese/urls.py" => .ok "app_name='stall'\nx = [p('<int:n>', v, name='brie'), p('', v)]"
    | "m/fish/urls.py" => .ok "app_name='boat'\nx = [p('a', v, name='eel'))]"
    | _ => .error (.denied path)

theorem ofPath_routes_market :
    root? market {} ⟨"m"⟩ = some ⟨"m"⟩ ∧
      ∃ project, (ofPath market {} ⟨"m"⟩).projects = [project] ∧ project.root = ⟨"m"⟩ ∧
        project.routes.keys = [.file "m/urls.py", .app "stall", .app "boat"] ∧
        project.routes.get? (.file "m/urls.py") = some [⟨"home", false, [], "home"⟩] ∧
        project.routes.get? (.app "stall") =
          some [⟨"brie", true, [⟨"n", some .integer⟩], "stall:brie"⟩] ∧
        project.routes.get? (.app "boat") = some [] ∧
        ∀ space routes, project.routes.get? space = some routes →
          ∀ route ∈ routes, route.qualifiedName = space.qualify route.name := by
  have hroot : root? market {} ⟨"m"⟩ = some ⟨"m"⟩ := by decide +kernel
  have hkeys : ((routeTexts market {} ⟨"m"⟩).map (·.space)).eraseDups =
      [.file "m/urls.py", .app "stall", .app "boat"] := by decide +kernel
  obtain ⟨project, hproject, hat, hnames, hroutes, hqualified⟩ := ofPath_routes market {} hroot
  rw [hkeys] at hnames
  refine ⟨hroot, project, hproject, hat, hnames, ?_, ?_, ?_, hqualified⟩
  · rw [hroutes]
    decide +kernel
  · rw [hroutes]
    decide +kernel
  · rw [hroutes]
    decide +kernel

end SiteSurvey.Survey
