import Mathlib.Data.List.Nodup
import SiteSurvey.Proofs.Path
import SiteSurvey.Report.Json

/-!
# What the JSON report keeps

The JSON value of projects tells everything about them, as long as no app has a name that begins
like the key of a route file (`projectsValue?_lossless`): then the keys of namespaces are different,
and no two lists of projects have the same value.
-/

namespace SiteSurvey

/-! ## Keys of namespaces -/

namespace Route.Namespace

/-- The key of the namespace does not pass an app off as a file. -/
def IsUnmarked : Namespace → Prop
  | app name => ¬ fileMark.toList <+: name.toList
  | file _ => True

instance : DecidablePred IsUnmarked
  | app name => inferInstanceAs (Decidable (¬ fileMark.toList <+: name.toList))
  | file _ => inferInstanceAs (Decidable True)

theorem key_app_ne_key_file {name : String} (h : (app name).IsUnmarked) (path : String) :
    (app name).key ≠ (file path).key := by
  rintro (rfl : name = fileMark ++ path)
  refine h ?_
  rw [String.toList_append]
  exact List.prefix_append ..

theorem key_inj {space other : Namespace} (h : space.IsUnmarked) (h' : other.IsUnmarked)
    (e : space.key = other.key) : space = other := by
  cases space with
  | app name =>
    cases other with
    | app name' => exact congrArg app e
    | file path => exact absurd e (key_app_ne_key_file h path)
  | file path =>
    cases other with
    | app name => exact absurd e.symm (key_app_ne_key_file h' path)
    | file path' =>
      have hpath := congrArg String.toList e
      rw [key, key, String.toList_append, String.toList_append] at hpath
      exact congrArg file (String.toList_inj.1 (List.append_cancel_left hpath))

end Route.Namespace

/-- No app of the project's routes has a name that begins like the key of a route file. -/
def Survey.Project.HasUnmarkedApps (project : Survey.Project) : Prop :=
  ∀ space ∈ project.routes.keys, space.IsUnmarked

instance (project : Survey.Project) : Decidable project.HasUnmarkedApps :=
  inferInstanceAs (Decidable (∀ space ∈ project.routes.keys, space.IsUnmarked))

namespace Report

open Json

/-- The keys of a value's members, in order. -/
def memberKeys : Value → List String
  | .object members => members.map Prod.fst
  | _ => []

theorem memberKeys_tableValue (table : Route.Table) :
    memberKeys (tableValue table) = table.keys.map Route.Namespace.key := by
  rw [tableValue, memberKeys, List.map_map, OrderedMap.keys, List.map_map]
  rfl

theorem nodup_memberKeys {table : Route.Table} (h : ∀ space ∈ table.keys, space.IsUnmarked) :
    (memberKeys (tableValue table)).Nodup := by
  rw [memberKeys_tableValue]
  exact List.Nodup.map_on (fun space hspace other hother =>
    Route.Namespace.key_inj (h space hspace) (h other hother)) table.nodup_keys

/-! ## Each layer of the report -/

theorem label_injective : Function.Injective Route.Converter.label := by
  intro converter other h
  cases converter <;> cases other <;> first | rfl | exact absurd h (by decide)

theorem argumentValue_injective : Function.Injective argumentValue := by
  rintro ⟨name, converter⟩ ⟨name', converter'⟩ h
  injection h with hmembers
  simp only [List.cons.injEq, Prod.mk.injEq, Value.string.injEq, true_and, and_true] at hmembers
  obtain ⟨rfl, hconverter⟩ := hmembers
  cases converter with
  | none =>
    cases converter' with
    | none => rfl
    | some converter' => cases hconverter
  | some converter =>
    cases converter' with
    | none => cases hconverter
    | some converter' => rw [label_injective (Value.string.inj hconverter)]

theorem routeValue_injective : Function.Injective routeValue := by
  rintro ⟨name, hasArgs, args, qualifiedName⟩ ⟨name', hasArgs', args', qualifiedName'⟩ h
  injection h with hmembers
  simp only [List.cons.injEq, Prod.mk.injEq, Value.string.injEq, Value.bool.injEq,
    Value.array.injEq, true_and, and_true] at hmembers
  obtain ⟨rfl, rfl, hargs, rfl⟩ := hmembers
  rw [argumentValue_injective.list_map hargs]

theorem routesValue_injective :
    Function.Injective fun routes : List Route => Value.array (routes.map routeValue) :=
  fun _ _ h => routeValue_injective.list_map (Value.array.inj h)

theorem textsValue_injective :
    Function.Injective fun texts : List String => Value.array (texts.map .string) := by
  have hstring : Function.Injective Value.string := fun _ _ h => Value.string.inj h
  exact fun _ _ h => hstring.list_map (Value.array.inj h)

/-- Lists are equal if they are after a map that tells their members apart. -/
theorem map_inj_of_mem {α β : Type} {f : α → β} {xs ys : List α}
    (h : ∀ x ∈ xs, ∀ y ∈ ys, f x = f y → x = y) (e : xs.map f = ys.map f) : xs = ys := by
  induction xs generalizing ys with
  | nil => exact (List.map_eq_nil_iff.1 e.symm).symm
  | cons x xs ih =>
    cases ys with
    | nil => cases e
    | cons y ys =>
      obtain ⟨hhead, htail⟩ := List.cons.inj e
      have hxs := ih (fun x hx y hy => h x (by simp [hx]) y (by simp [hy])) htail
      rw [h x (by simp) y (by simp) hhead, hxs]

/-- A table is told by its value if its keys are. -/
theorem entries_inj {α β : Type} {key : α → String} {value : β → Value}
    (hvalue : Function.Injective value) {table other : OrderedMap α β}
    (hkey : ∀ x ∈ table.keys, ∀ y ∈ other.keys, key x = key y → x = y)
    (e : table.entries.map (fun entry => (key entry.1, value entry.2)) =
      other.entries.map fun entry => (key entry.1, value entry.2)) : table = other := by
  refine OrderedMap.ext (map_inj_of_mem (fun entry h entry' h' he => ?_) e)
  obtain ⟨hfst, hsnd⟩ := Prod.mk.inj he
  exact Prod.ext (hkey _ (List.mem_map_of_mem h) _ (List.mem_map_of_mem h') hfst) (hvalue hsnd)

theorem tableValue_inj {table other : Route.Table} (h : ∀ space ∈ table.keys, space.IsUnmarked)
    (h' : ∀ space ∈ other.keys, space.IsUnmarked) (e : tableValue table = tableValue other) :
    table = other :=
  entries_inj routesValue_injective
    (fun space hs space' hs' => Route.Namespace.key_inj (h space hs) (h' space' hs'))
    (Value.object.inj e)

theorem modelsValue_injective : Function.Injective modelsValue := fun _ _ e =>
  entries_inj textsValue_injective (fun _ _ _ _ hkey => hkey) (Value.object.inj e)

theorem projectValue_inj {project other : Survey.Project} (h : project.HasUnmarkedApps)
    (h' : other.HasUnmarkedApps) (hroot : project.root.isUnicode) (hroot' : other.root.isUnicode)
    (e : projectValue project = projectValue other) : project = other := by
  obtain ⟨root, routes, models⟩ := project
  obtain ⟨root', routes', models'⟩ := other
  injection e with hmembers
  simp only [List.cons.injEq, Prod.mk.injEq, Value.string.injEq, true_and, and_true] at hmembers
  obtain ⟨htext, hroutes, hmodels⟩ := hmembers
  obtain rfl := Path.eq_of_text hroot hroot' htext
  obtain rfl := tableValue_inj h h' hroutes
  obtain rfl := modelsValue_injective hmodels
  rfl

theorem projectsValue?_eq_some_iff {projects : List Survey.Project} {value : Value} :
    projectsValue? projects = some value ↔
      (∀ project ∈ projects, project.root.isUnicode) ∧
        .array (projects.map projectValue) = value := by
  rw [projectsValue?, Option.ite_none_right_eq_some, Option.some_inj, List.all_eq_true]

/-! ## Whole reports -/

/--
If no app has a name that begins like the key of a route file, the namespaces of each project have
different keys. There is a value of the projects if their roots are texts, and lists of projects
with the same value are the same.
-/
theorem projectsValue?_lossless {projects others : List Survey.Project}
    (h : ∀ project ∈ projects, project.HasUnmarkedApps)
    (h' : ∀ project ∈ others, project.HasUnmarkedApps) :
    (∀ project ∈ projects, (memberKeys (tableValue project.routes)).Nodup) ∧
      ((∃ value, projectsValue? projects = some value) ↔
        ∀ project ∈ projects, project.root.isUnicode) ∧
      ∀ value, projectsValue? projects = some value → projectsValue? others = some value →
        projects = others := by
  refine ⟨fun project hproject => nodup_memberKeys (h project hproject), ?_, ?_⟩
  · simp only [projectsValue?_eq_some_iff, exists_and_left, exists_eq', and_true]
  · intro value hvalue hvalue'
    obtain ⟨hroots, rfl⟩ := projectsValue?_eq_some_iff.1 hvalue
    obtain ⟨hroots', e⟩ := projectsValue?_eq_some_iff.1 hvalue'
    exact map_inj_of_mem (fun project hp other ho => projectValue_inj (h project hp) (h' other ho)
      (hroots project hp) (hroots' other ho)) (Value.array.inj e.symm)

/-- The condition is needed: an app may be named like the key of a file. -/
example : tableValue ⟨[(.app "READER_FILE_PATH_x", [])], by decide⟩ =
    tableValue ⟨[(.file "x", [])], by decide⟩ := rfl

/-- A project whose routes belong to an app and to a file. -/
def kiosk : Survey.Project where
  root := ⟨"k"⟩
  routes := ⟨[(.app "k", [⟨"buy", true, [⟨"n", some .integer⟩], "k:buy"⟩]),
    (.file "k/urls.py", [])], by decide⟩
  models := ⟨[("k", ["Paper"])], by decide⟩

/-- The same project, but for an app in place of the file. -/
def stall : Survey.Project :=
  { kiosk with routes := ⟨[(.app "k", [⟨"buy", true, [⟨"n", some .integer⟩], "k:buy"⟩]),
    (.app "k/urls.py", [])], by decide⟩ }

theorem projectsValue?_lossless_kiosk :
    ((∀ project ∈ [kiosk], project.HasUnmarkedApps) ∧
      ∀ project ∈ [stall], project.HasUnmarkedApps) ∧
    (∀ project ∈ [kiosk], (memberKeys (tableValue project.routes)).Nodup) ∧
      projectsValue? [kiosk] ≠ projectsValue? [stall] := by
  have hkiosk : ∀ project ∈ [kiosk], project.HasUnmarkedApps := by decide
  have hstall : ∀ project ∈ [stall], project.HasUnmarkedApps := by decide
  obtain ⟨hkeys, hvalue, hinj⟩ := projectsValue?_lossless hkiosk hstall
  refine ⟨⟨hkiosk, hstall⟩, hkeys, fun e => ?_⟩
  obtain ⟨value, hkioskValue⟩ := hvalue.2 (by decide)
  have hroutes := congrArg (List.map fun project => project.routes.keys)
    (hinj value hkioskValue (e ▸ hkioskValue))
  exact absurd hroutes (by decide)

end Report

end SiteSurvey
