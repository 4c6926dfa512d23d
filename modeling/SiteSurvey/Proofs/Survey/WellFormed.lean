import SiteSurvey.Proofs.Admin.Registration
import SiteSurvey.Proofs.Route.Argument
import SiteSurvey.Proofs.Source.Literal
import SiteSurvey.Proofs.Survey.Independence
import SiteSurvey.Proofs.Survey.Project

/-!
# Well-formed projects

Whatever the files of a project hold, its namespaces, routes and models are well formed: names are
not empty and hold no quotes, the arguments of a route hold no angle brackets, and models are words
(`ofPaths_wellFormed`).
-/

namespace SiteSurvey

/-! ## What is well formed -/

/-- No character of a text is a quote. -/
def IsUnquoted (text : String) : Prop :=
  ∀ c ∈ text.toList, Source.isQuote c = false

/-- A non-empty run of word characters. -/
def IsWordText (text : String) : Prop :=
  text ≠ "" ∧ ∀ c ∈ text.toList, Text.isWord c = true

/-- A route that may stand in a namespace. -/
structure Route.IsWellFormed (space : Route.Namespace) (route : Route) : Prop where
  name_ne_empty : route.name ≠ ""
  isUnquoted_name : IsUnquoted route.name
  hasArgs_iff : route.hasArgs = true ↔ route.args ≠ []
  not_mem_args : ∀ argument ∈ route.args,
    '<' ∉ argument.name.toList ∧ '>' ∉ argument.name.toList
  qualifiedName_app : ∀ app, space = .app app → route.qualifiedName = app ++ ":" ++ route.name
  qualifiedName_file : ∀ path, space = .file path → route.qualifiedName = route.name

namespace Survey

/--
A namespace that a project may have: the name of an app, or the route file of a level of the walk
from the project root.
-/
inductive IsSpaceOf (view : FileView) (options : Options) (root : Path) :
    Route.Namespace → Prop where
  | app {name : String} (hne : name ≠ "") (h : IsUnquoted name) :
    IsSpaceOf view options root (.app name)
  | file {level : Path} {files : List String}
    (hlevel : .level level files ∈ appEvents view options root) (h : routeFileName ∈ files) :
    IsSpaceOf view options root (.file (level.join routeFileName).text)

structure Project.IsWellFormed (view : FileView) (options : Options) (project : Project) :
    Prop where
  spaces : ∀ space ∈ project.routes.keys, IsSpaceOf view options project.root space
  routes : ∀ space routes, (space, routes) ∈ project.routes.entries →
    ∀ route ∈ routes, route.IsWellFormed space
  models : ∀ app models, (app, models) ∈ project.models.entries →
    models ≠ [] ∧ ∀ model ∈ models, IsWordText model

end Survey

/-! ## Routes and models of any text -/

theorem ofList_ne_empty {chars : List Char} (h : chars ≠ []) : String.ofList chars ≠ "" := by
  intro hempty
  rw [← String.toList_inj, String.toList_ofList] at hempty
  exact h hempty

/-- A value that a text assigns ends at the first quote, so that it holds none. -/
theorem isUnquoted_ofList {name text value : List Char}
    (h : value ∈ Source.assignedValues name text) : IsUnquoted (String.ofList value) := by
  rw [IsUnquoted, String.toList_ofList]
  exact Source.not_isQuote_of_mem_assignedValues h

namespace Route

theorem isWellFormed_of_ofTuple? {space : Namespace} {tuple : List Char} {route : Route}
    (h : ofTuple? space tuple = some route) : route.IsWellFormed space := by
  obtain ⟨name, hname, rfl⟩ := Option.map_eq_some_iff.1 h
  have hmem : name ∈ Source.assignedValues "name".toList tuple := List.mem_of_find?_eq_some hname
  have hne : name ≠ [] := by simpa using List.find?_some hname
  refine ⟨ofList_ne_empty hne, isUnquoted_ofList hmem, by simp, fun argument hargument => ?_,
    ?_, ?_⟩
  · obtain ⟨token, htoken, rfl⟩ := List.mem_map.1 hargument
    exact (isToken_of_mem_placeholders htoken).not_mem_name
  · rintro app rfl
    rfl
  · rintro path rfl
    rfl

/-- A file is of a well-formed app, or else of its own path. -/
theorem File.space_cases (text source : String) :
    (File.read text source).space = .file source ∨
      ∃ name, (File.read text source).space = .app name ∧ name ≠ "" ∧ IsUnquoted name := by
  have hspace : (File.read text source).space =
      File.spaceOf (Source.uncommentedJoined text.toList) source := by
    unfold File.read
    dsimp only
    split <;> rfl
  rw [hspace]
  unfold File.spaceOf
  split
  · next name hname =>
    obtain ⟨hhead, hne⟩ := Option.filter_eq_some_iff.1 hname
    exact Or.inr ⟨_, rfl, ofList_ne_empty (by simpa using hne),
      isUnquoted_ofList (List.mem_of_mem_head? hhead)⟩
  · exact Or.inl rfl

end Route

theorem Admin.isWordText_of_mem_models {text model : String} (h : model ∈ Admin.models text) :
    IsWordText model := by
  unfold Admin.models Admin.modelsWith at h
  dsimp only at h
  split at h
  · cases h
  · obtain ⟨model, hmodel, rfl⟩ := List.mem_map.1 h
    obtain ⟨hne, hword⟩ := Admin.isWord_of_mem_registered hmodel
    refine ⟨ofList_ne_empty hne, ?_⟩
    rwa [String.toList_ofList]

/-! ## Projects -/

namespace Survey

variable {view : FileView} {options : Options} {root : Path}

theorem isSpaceOf_of_mem_routeTexts {file : RouteText}
    (h : file ∈ routeTexts view options root) : IsSpaceOf view options root file.space := by
  obtain ⟨event, hevent, hfile⟩ := List.mem_filterMap.1 h
  cases event with
  | failure path error => cases hfile
  | level level files =>
    rw [routeText?] at hfile
    split_ifs at hfile with hlisted
    split at hfile
    · next text _ =>
      cases hfile
      rw [RouteText.space]
      rcases Route.File.space_cases text (level.join routeFileName).text with
        hspace | ⟨name, hspace, hne, hname⟩
      · rw [hspace]
        exact .file hevent hlisted
      · rw [hspace]
        exact .app hne hname
    · cases hfile

theorem projectAt_isWellFormed (view : FileView) (options : Options) (root : Path) :
    (projectAt view options root).IsWellFormed view options where
  spaces space h := by
    rw [keys_routes_projectAt, List.mem_eraseDups] at h
    obtain ⟨file, hfile, rfl⟩ := List.mem_map.1 h
    exact isSpaceOf_of_mem_routeTexts hfile
  routes space routes h route hroute := by
    have hget := OrderedMap.get?_of_mem h
    rw [get?_routes_projectAt] at hget
    obtain ⟨file, -, rfl⟩ := Option.map_eq_some_iff.1 hget
    obtain ⟨tuple, -, htuple⟩ := List.mem_filterMap.1 hroute
    exact Route.isWellFormed_of_ofTuple? htuple
  models app models h := by
    have hget := OrderedMap.get?_of_mem h
    rw [get?_models_projectAt] at hget
    split_ifs at hget with hnone
    cases hget
    refine ⟨hnone, fun model hmodel => ?_⟩
    obtain ⟨module, -, hmodel⟩ := List.mem_flatMap.1 hmodel
    exact Admin.isWordText_of_mem_models hmodel

/--
Every project of a survey has the root that the search found for one of the paths, and its
namespaces, routes and models are well formed.
-/
theorem ofPaths_wellFormed (view : FileView) (options : Options) (paths : List Path) :
    ∀ project ∈ (ofPaths view options paths).projects,
      (∃ path ∈ paths, root? view options path = some project.root) ∧
        project.IsWellFormed view options := by
  intro project h
  rw [ofPaths_projects] at h
  obtain ⟨path, hpath, h⟩ := List.mem_flatMap.1 h
  rw [ofPath_projects] at h
  obtain ⟨root, hroot, rfl⟩ := Option.map_eq_some_iff.1 (Option.mem_toList.1 h)
  exact ⟨⟨path, hpath, hroot⟩, projectAt_isWellFormed view options root⟩

/-- A project whose files hold odd names and placeholders. -/
def arcade : FileView where
  list path :=
    match path.text with
    | "h" => .ok ⟨["admin.py", "manage.py", "urls.py"], []⟩
    | _ => .error (.absent path)
  read path :=
    match path.text with
    | "h/urls.py" => .ok "app_name = ''\nx = [p('<<int:>>/<y>', v, name='', name='flip\"')]"
    | "h/admin.py" => .ok "from django.contrib import admin\n@admin.register(Pin.ball, 7)"
    | _ => .error (.absent path)

theorem ofPaths_wellFormed_arcade :
    ∃ project, (ofPaths arcade {} [⟨"h"⟩]).projects = [project] ∧ project.root = ⟨"h"⟩ ∧
      project.routes.entries = [(.file "h/urls.py",
        [{ name := "flip", hasArgs := true, args := [⟨"", some .integer⟩, ⟨"y", none⟩]
           qualifiedName := "flip" }])] ∧
      project.models.entries = [("h", ["Pin", "ball", "7"])] ∧
      project.IsWellFormed arcade {} := by
  have hroot : root? arcade {} ⟨"h"⟩ = some ⟨"h"⟩ := by decide +kernel
  have hprojects : (ofPaths arcade {} [⟨"h"⟩]).projects =
      [projectAt arcade {} ⟨"h"⟩] := by
    rw [(ofPaths_singleton ..).1, ofPath_projects_of_root? arcade {} ⟨"h"⟩ hroot]
  have h := ofPaths_wellFormed arcade {} [⟨"h"⟩] _ (hprojects ▸ List.mem_cons_self)
  exact ⟨_, hprojects, rfl, by decide +kernel, by decide +kernel, h.2⟩

end Survey

end SiteSurvey
