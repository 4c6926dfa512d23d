import Mathlib.Data.List.Induction
import SiteSurvey.Proofs.OrderedMap
import SiteSurvey.Proofs.Path
import SiteSurvey.Proofs.Survey.Findings

/-!
# The models of a project

The models of a project come from the admin modules that the walk from its root can read, each
module read once and under one app. An app holds the models of all its modules in the order of the
walk, and is listed where its first models come (`ofPath_models`).
-/

namespace SiteSurvey.Survey

/-! ## Admin modules -/

/-- An admin module that was read, with the app that its models belong to. -/
structure AdminText where
  app : String
  text : String
  deriving DecidableEq, Repr

def AdminText.models (module : AdminText) : List String :=
  Admin.models module.text

/-- The module as the survey records it. -/
def AdminText.entry (module : AdminText) : String × List String :=
  (module.app, module.models)

/-- The admin module of an app that stands at a level under a name, if it can be read. -/
def adminText? (view : FileView) (app : String) (level : Path) (name : String) :
    Option AdminText :=
  match view.read (level.join name) with
  | .ok text => some ⟨app, text⟩
  | .error _ => none

/--
The admin modules that an event of a walk leads to. A package named for admin modules gives all its
modules to the app of its parent, and any other level its own admin module to its own app.
-/
def adminTexts (view : FileView) : Event → List AdminText
  | .failure _ _ => []
  | .level level files =>
    if level.fileName? = some adminPackageName ∧ packageMarker ∈ files then
      level.parent?.toList.flatMap fun parent =>
        (files.filter (".py".toList.isSuffixOf ·.toList)).filterMap
          (adminText? view (appLabel parent) level)
    else if adminFileName ∈ files then
      (adminText? view (appLabel level) level adminFileName).toList
    else []

/-- The admin modules that the walk from a project root can read, in its order. -/
def allAdminTexts (view : FileView) (options : Options) (root : Path) : List AdminText :=
  (appEvents view options root).flatMap (adminTexts view)

/-- The models of an app's modules, one after another. -/
def modelsOf (modules : List AdminText) (app : String) : List String :=
  (modules.filter (·.app = app)).flatMap AdminText.models

section Found

variable (view : FileView)

theorem isAdminPackage_iff (level : Path) (files : List String) :
    isAdminPackage level files = true ↔
      level.fileName? = some adminPackageName ∧ packageMarker ∈ files := by
  simp [isAdminPackage]

theorem flatMap_findModels (app : String) (level : Path) (names : List String) :
    (names.flatMap fun name => (findInFile view (level.join name) (findModels app)).models) =
      (names.filterMap (adminText? view app level)).map AdminText.entry := by
  rw [List.map_filterMap, List.filterMap_eq_flatMap_toList]
  refine List.flatMap_congr fun name _ => ?_
  unfold findInFile adminText?
  cases view.read (level.join name) <;> rfl

/-- Each module is read into one entry of the models that are found. -/
theorem findAt_models (event : Event) :
    (findAt view event).models = (adminTexts view event).map AdminText.entry := by
  cases event with
  | failure path error => rfl
  | level level files =>
    rw [findAt, Findings.append_models, findLevelRoutes_models, List.nil_append,
      findLevelModels_models, flatMap_findModels, adminFiles, adminLabel, adminTexts]
    congr 1
    by_cases hpackage : isAdminPackage level files = true
    · have h := (isAdminPackage_iff level files).1 hpackage
      obtain ⟨parent, hparent⟩ := Path.exists_parent?_of_fileName? h.1
      rw [if_pos hpackage, if_pos hpackage, if_pos h, hparent]
      simp
    · have h := fun hp => hpackage ((isAdminPackage_iff level files).2 hp)
      rw [if_neg hpackage, if_neg hpackage, if_neg h]
      by_cases hfile : adminFileName ∈ files
      · rw [if_pos (by simpa using hfile), if_pos hfile, List.filterMap_cons, List.filterMap_nil]
        cases adminText? view (appLabel level) level adminFileName <;> rfl
      · rw [if_neg (by simpa using hfile), if_neg hfile, List.filterMap_nil]

theorem findAll_models_eq (options : Options) (root : Path) :
    (findAll view (appEvents view options root)).models =
      (allAdminTexts view options root).map AdminText.entry := by
  rw [findAll_models, allAdminTexts, List.map_flatMap]
  exact List.flatMap_congr fun event _ => findAt_models view event

end Found

/-! ## Their models -/

namespace ModelTable

/-- The models that the modules of an app contribute, one after another. -/
def contributed (modules : List (String × List String)) (app : String) : List String :=
  (modules.filter (·.1 = app)).flatMap Prod.snd

theorem ofModules_concat (modules : List (String × List String)) (found : String × List String) :
    ofModules (modules ++ [found]) =
      if found.2 = [] then ofModules modules
      else (ofModules modules).alter found.1 fun old => old.getD [] ++ found.2 := by
  unfold ofModules
  rw [List.foldl_append, List.foldl_cons, List.foldl_nil]
  simp only [List.isEmpty_iff]

theorem contributed_concat (modules : List (String × List String)) (found : String × List String)
    (app : String) :
    contributed (modules ++ [found]) app =
      contributed modules app ++ if app = found.1 then found.2 else [] := by
  unfold contributed
  rw [List.filter_append, List.flatMap_append]
  by_cases h : app = found.1
  · simp [h]
  · have h' : found.1 ≠ app := fun e => h e.symm
    simp [h, h']

theorem get?_ofModules (modules : List (String × List String)) (app : String) :
    (ofModules modules).get? app =
      if contributed modules app = [] then none else some (contributed modules app) := by
  induction modules using List.reverseRecOn with
  | nil => rfl
  | append_singleton modules found ih =>
    rw [ofModules_concat, contributed_concat]
    by_cases hnone : found.2 = []
    · simp [hnone, ih]
    · rw [if_neg hnone, OrderedMap.get?_alter]
      by_cases happ : app = found.1
      · -- the models stand behind those that the app has, if it has any
        subst happ
        by_cases hold : contributed modules found.1 = []
        · simp [ih, hold, hnone]
        · simp [ih, hold]
      · simp [happ, ih]

theorem keys_ofModules (modules : List (String × List String)) :
    (ofModules modules).keys = ((modules.filter (·.2 ≠ [])).map Prod.fst).eraseDups := by
  induction modules using List.reverseRecOn with
  | nil => rfl
  | append_singleton modules found ih =>
    rw [ofModules_concat, List.filter_append, List.map_append]
    by_cases hnone : found.2 = []
    · simp [hnone, ih]
    · have hfound : ([found].filter (·.2 ≠ [])).map Prod.fst = [found.1] := by simp [hnone]
      rw [if_neg hnone, OrderedMap.keys_alter, hfound, OrderedMap.eraseDups_concat, ih]

theorem sum_length_ofModules (modules : List (String × List String)) :
    ((ofModules modules).values.map List.length).sum = (modules.map (·.2.length)).sum := by
  induction modules using List.reverseRecOn with
  | nil => rfl
  | append_singleton modules found ih =>
    rw [ofModules_concat, List.map_append, List.sum_append]
    by_cases hnone : found.2 = []
    · simp [hnone, ih]
    · rw [if_neg hnone, OrderedMap.sum_length_alter, ih]
      simp

end ModelTable

theorem contributed_entries (modules : List AdminText) (app : String) :
    ModelTable.contributed (modules.map AdminText.entry) app = modelsOf modules app := by
  rw [ModelTable.contributed, List.filter_map, List.flatMap_map]
  rfl

theorem apps_entries (modules : List AdminText) :
    ((modules.map AdminText.entry).filter (·.2 ≠ [])).map Prod.fst =
      (modules.filter (·.models ≠ [])).map (·.app) := by
  rw [List.filter_map, List.map_map]
  rfl

theorem lengths_entries (modules : List AdminText) :
    (modules.map AdminText.entry).map (·.2.length) = modules.map (·.models.length) :=
  List.map_map

/-! ## The models of a project -/

/--
The apps of a project are those whose modules register models, in the order in which their first
models come. An app has the models of all its modules in the order of the walk, so that no list of
models is empty and none is lost or found twice.
-/
theorem ofPath_models (view : FileView) (options : Options) {path root : Path}
    (h : root? view options path = some root) :
    ∃ project, (ofPath view options path).projects = [project] ∧ project.root = root ∧
      (∀ app, project.models.get? app =
        if modelsOf (allAdminTexts view options root) app = [] then none
        else some (modelsOf (allAdminTexts view options root) app)) ∧
      project.models.keys = (((allAdminTexts view options root).filter (·.models ≠ [])).map
        (·.app)).eraseDups ∧
      (∀ models ∈ project.models.values, models ≠ []) ∧
      (project.models.values.map List.length).sum =
        ((allAdminTexts view options root).map (·.models.length)).sum := by
  have hmodels : (Project.ofFindings root (findAll view (appEvents view options root))).models =
      ModelTable.ofModules ((allAdminTexts view options root).map AdminText.entry) := by
    rw [Project.ofFindings, findAll_models_eq]
  have hget (app : String) := ModelTable.get?_ofModules
    ((allAdminTexts view options root).map AdminText.entry) app
  have hkeys := ModelTable.keys_ofModules ((allAdminTexts view options root).map AdminText.entry)
  have hsum := ModelTable.sum_length_ofModules
    ((allAdminTexts view options root).map AdminText.entry)
  rw [← hmodels, apps_entries] at hkeys
  rw [← hmodels, lengths_entries] at hsum
  simp only [← hmodels, contributed_entries] at hget
  refine ⟨_, ?_, rfl, hget, hkeys, ?_, hsum⟩
  · rw [ofPath, h]
    rfl
  · intro models hmem
    obtain ⟨⟨app, found⟩, hentry, rfl⟩ := List.mem_map.1 hmem
    have hfound := (hget app).symm.trans (OrderedMap.get?_of_mem hentry)
    split_ifs at hfound with hnone
    cases hfound
    exact hnone

/--
A project where two directories and a package give models to one app, one module cannot be read and
one registers nothing.
-/
def bazaar : FileView where
  list path :=
    match path.text with
    | "b" => .ok ⟨["admin.py", "manage.py"], ["baker", "smith"]⟩
    | "b/baker" => .ok ⟨["admin.py"], ["admin"]⟩
    | "b/baker/admin" => .ok ⟨["__init__.py", "admin.py", "notes.txt", "oven.py"], []⟩
    | "b/smith" => .ok ⟨["admin.py"], ["baker"]⟩
    | "b/smith/baker" => .ok ⟨["admin.py"], []⟩
    | _ => .error (.absent path)
  read path :=
    match path.text with
    | "b/admin.py" => .ok "from django.contrib import admin\nadmin.autodiscover()"
    | "b/baker/admin.py" => .ok "from django.contrib import admin\nadmin.site.register(Loaf)"
    | "b/baker/admin/__init__.py" => .ok ""
    | "b/baker/admin/admin.py" => .error (.denied path)
    | "b/baker/admin/oven.py" =>
      .ok "from django.contrib import admin as a\n@a.register(Oven, Loaf)\nclass B: pass"
    | "b/smith/admin.py" => .ok "from django.contrib.admin import site\nsite.register(Anvil)"
    | "b/smith/baker/admin.py" => .ok "from x.contrib import admin\nadmin.site.register(Tongs)"
    | _ => .error (.absent path)

theorem ofPath_models_bazaar :
    root? bazaar {} ⟨"b"⟩ = some ⟨"b"⟩ ∧
      ∃ project, (ofPath bazaar {} ⟨"b"⟩).projects = [project] ∧ project.root = ⟨"b"⟩ ∧
        project.models.get? "baker" = some ["Loaf", "Oven", "Loaf", "Tongs"] ∧
        project.models.get? "b" = none ∧ project.models.keys = ["baker", "smith"] ∧
        (∀ models ∈ project.models.values, models ≠ []) ∧
        (project.models.values.map List.length).sum = 5 := by
  have hroot : root? bazaar {} ⟨"b"⟩ = some ⟨"b"⟩ := by decide +kernel
  obtain ⟨project, hproject, hpath, hget, hkeys, hvalues, hsum⟩ := ofPath_models bazaar {} hroot
  have hentries : (allAdminTexts bazaar {} ⟨"b"⟩).map AdminText.entry =
      [("b", []), ("baker", ["Loaf"]), ("baker", []), ("baker", ["Oven", "Loaf"]),
        ("smith", ["Anvil"]), ("baker", ["Tongs"])] := by decide +kernel
  rw [← apps_entries, hentries] at hkeys
  rw [← lengths_entries, hentries] at hsum
  simp only [← contributed_entries, hentries] at hget
  exact ⟨hroot, project, hproject, hpath, hget "baker", hget "b", hkeys, hvalues, hsum⟩

end SiteSurvey.Survey
