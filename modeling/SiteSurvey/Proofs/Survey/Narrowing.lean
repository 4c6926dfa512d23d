import Mathlib.Data.List.Flatten
import SiteSurvey.Proofs.Survey.Project
import SiteSurvey.Proofs.Walk.Descent

/-!
# Narrower options

Options under which the walk from a project root goes less deep or ignores more directories only
take away from what is found there (`ofPath_narrowed`): namespaces, apps and models. The routes of
a namespace that is left may differ, but only where the wider walk alone comes to a route file that
declares the namespace behind all others.
-/

namespace SiteSurvey.Survey

/-! ## What is narrower -/

/-- The first options go at most as deep below a project root and ignore at least as much. -/
structure Narrower (first second : Options) : Prop where
  appDepth_le : first.appDepth ≤ second.appDepth
  patterns_subset : second.ignored.patterns ⊆ first.ignored.patterns

instance (first second : Options) : Decidable (Narrower first second) :=
  decidable_of_iff (first.appDepth ≤ second.appDepth ∧
    second.ignored.patterns ⊆ first.ignored.patterns)
    ⟨fun ⟨h, h'⟩ => ⟨h, h'⟩, fun ⟨h, h'⟩ => ⟨h, h'⟩⟩

/-- The walk from a project root comes to the directory that the names lead to. -/
def Meets (view : FileView) (options : Options) (root : Path) (names : List String) : Prop :=
  Reaches view options.ignored.ignores (fun _ _ => .descend) options.appDepth root names

/-- The route file of a directory can be read, and its routes belong to the namespace. -/
def DeclaredIn (view : FileView) (directory : Path) (space : Route.Namespace) : Prop :=
  ∃ listing text, view.list directory = .ok listing ∧ routeFileName ∈ listing.files ∧
    view.read (directory.join routeFileName) = .ok text ∧
    (Route.File.read text (directory.join routeFileName).text).space = space

/--
A directory that only the second walk comes to declares a namespace behind all directories of the
first walk that declare it.
-/
structure Overtakes (view : FileView) (first second : Options) (root : Path)
    (space : Route.Namespace) (names : List String) : Prop where
  meets : Meets view second root names
  not_meets : ¬ Meets view first root names
  /-- Where names are plain, the first walk does not come to it by other names either. -/
  apart : view.HasPlainListings → ∀ earlier, Meets view first root earlier →
    (root.place earlier).parts ≠ (root.place names).parts
  declared : DeclaredIn view (root.place names) space
  behind : ∀ earlier, Meets view first root earlier →
    DeclaredIn view (root.place earlier) space → Precedes view root earlier names

/-- A project as narrower options find it, and as wider ones do. -/
structure Project.IsNarrowed (view : FileView) (first second : Options) (less more : Project) :
    Prop where
  root_eq : less.root = more.root
  spaces_subset : less.routes.keys ⊆ more.routes.keys
  models_sublist : ∀ app models, less.models.get? app = some models →
    ∃ all, more.models.get? app = some all ∧ models.Sublist all
  routes_cases : ∀ space, less.routes.get? space = more.routes.get? space ∨
    ∃ names, Overtakes view first second less.root space names

theorem Narrower.ignores {first second : Options} (h : Narrower first second) (name : String)
    (hname : second.ignored.ignores name = true) : first.ignored.ignores name = true :=
  IgnoreSet.ignores_mono h.patterns_subset hname

/-! ## What each walk comes to -/

section Walk

variable (view : FileView) (options : Options) (root : Path)

/-- The names that lead to the directories that the walk from a project root comes to, in order. -/
def appAddresses : List (List String) :=
  descent view options.ignored.ignores options.appDepth root

theorem mem_appAddresses_iff (names : List String) :
    names ∈ appAddresses view options root ↔ Meets view options root names :=
  mem_descent_iff ..

theorem appEvents_eq :
    appEvents view options root =
      (appAddresses view options root).map fun names => eventAt view (root.place names) :=
  walkAll_eq ..

variable {options} in
theorem appAddresses_eq_filter {first : Options} (h : Narrower first options) :
    appAddresses view first root = (appAddresses view options root).filter
      (IsKept first.ignored.ignores first.appDepth ·) :=
  descent_eq_filter h.ignores h.appDepth_le root

end Walk

variable {view : FileView} {first second : Options} {root : Path}

theorem appEvents_sublist (h : Narrower first second) :
    (appEvents view first root).Sublist (appEvents view second root) := by
  rw [appEvents_eq, appEvents_eq, appAddresses_eq_filter view root h]
  exact List.filter_sublist.map _

/-! ## Models -/

theorem modelsOf_sublist (h : Narrower first second) (app : String) :
    (modelsOf (allAdminTexts view first root) app).Sublist
      (modelsOf (allAdminTexts view second root) app) :=
  (((appEvents_sublist h).flatMap _).filter _).flatMap _

theorem get?_models_narrowed (h : Narrower first second) {app : String} {models : List String}
    (hmodels : (projectAt view first root).models.get? app = some models) :
    ∃ all, (projectAt view second root).models.get? app = some all ∧ models.Sublist all := by
  rw [get?_models_projectAt] at hmodels ⊢
  split_ifs at hmodels with hnone
  cases hmodels
  have hsub : (modelsOf (allAdminTexts view first root) app).Sublist
      (modelsOf (allAdminTexts view second root) app) := modelsOf_sublist h app
  have hsome : modelsOf (allAdminTexts view second root) app ≠ [] := fun hnil =>
    hnone (List.sublist_nil.1 (hnil ▸ hsub))
  exact ⟨_, if_neg hsome, hsub⟩

/-! ## Routes -/

/-- The route file of a directory, if it declares the namespace. -/
def declaring? (view : FileView) (root : Path) (space : Route.Namespace) (names : List String) :
    Option RouteText :=
  (routeText? view (eventAt view (root.place names))).filter (·.space = space)

theorem routeText?_eventAt_eq_some_iff (view : FileView) (directory : Path) (file : RouteText) :
    routeText? view (eventAt view directory) = some file ↔
      ∃ listing, view.list directory = .ok listing ∧ routeFileName ∈ listing.files ∧
        view.read (directory.join routeFileName) = .ok file.text ∧
        file.path = directory.join routeFileName := by
  unfold eventAt
  rcases view.list directory with error | listing
  · simp [routeText?]
  · dsimp only
    rw [routeText?]
    by_cases hlisted : routeFileName ∈ listing.files
    · rw [if_pos hlisted]
      rcases view.read (directory.join routeFileName) with error | text
      · simp
      · obtain ⟨path, found⟩ := file
        simp [hlisted, and_comm, eq_comm]
    · simp [hlisted]

theorem isSome_declaring?_iff (view : FileView) (root : Path) (space : Route.Namespace)
    (names : List String) :
    (declaring? view root space names).isSome = true ↔
      DeclaredIn view (root.place names) space := by
  rw [declaring?, Option.isSome_filter, Option.any_eq_true]
  simp only [routeText?_eventAt_eq_some_iff, decide_eq_true_eq]
  constructor
  · rintro ⟨⟨path, text⟩, ⟨listing, hl, hlisted, hread, rfl⟩, hspace⟩
    exact ⟨listing, text, hl, hlisted, hread, hspace⟩
  · rintro ⟨listing, text, hl, hlisted, hread, hspace⟩
    exact ⟨⟨_, text⟩, ⟨listing, hl, hlisted, hread, rfl⟩, hspace⟩

theorem filter_routeTexts (view : FileView) (options : Options) (root : Path)
    (space : Route.Namespace) :
    (routeTexts view options root).filter (·.space = space) =
      (appAddresses view options root).filterMap (declaring? view root space) := by
  rw [routeTexts, appEvents_eq, List.filterMap_map, List.filter_filterMap]
  rfl

/-- Members that are left out change what the last one gives only if one of them comes last. -/
theorem getLast?_filterMap_filter {α β : Type} {R : α → α → Prop} (f : α → Option β)
    (keep : α → Bool) {xs : List α} (hxs : xs.Pairwise R) :
    ((xs.filter keep).filterMap f).getLast? = (xs.filterMap f).getLast? ∨
      ∃ x ∈ xs, keep x = false ∧ (f x).isSome = true ∧
        ∀ y ∈ xs.filter keep, (f y).isSome = true → R y x := by
  induction xs using List.reverseRecOn with
  | nil => exact Or.inl rfl
  | append_singleton xs x ih =>
    obtain ⟨hinit, -, hlast⟩ := List.pairwise_append.1 hxs
    rw [List.filter_append, List.filterMap_append, List.filterMap_append]
    cases hx : f x with
    | none =>
      have hnone (keep : α → Bool) : ([x].filter keep).filterMap f = [] := by
        cases hk : keep x <;> simp [hk, hx]
      rw [hnone, List.filterMap_cons_none hx, List.filterMap_nil, List.append_nil, List.append_nil]
      refine (ih hinit).imp_right fun ⟨z, hz, hkeep, hsome, hbehind⟩ => ?_
      refine ⟨z, List.mem_append_left _ hz, hkeep, hsome, fun y hy hy' => ?_⟩
      rcases List.mem_append.1 hy with hy | hy
      · exact hbehind y hy hy'
      · obtain rfl := List.mem_singleton.1 (List.mem_of_mem_filter hy)
        simp [hx] at hy'
    | some value =>
      cases hkeep : keep x with
      | true => exact Or.inl (by simp [hkeep, hx])
      | false =>
        refine Or.inr ⟨x, by simp, hkeep, by simp [hx], fun y hy _ => ?_⟩
        have hy : y ∈ xs := by
          rw [List.filter_cons_of_neg (by simp [hkeep]), List.filter_nil, List.append_nil] at hy
          exact List.mem_of_mem_filter hy
        exact hlast y hy x (List.mem_singleton_self x)

theorem keys_routes_subset (h : Narrower first second) :
    (projectAt view first root).routes.keys ⊆ (projectAt view second root).routes.keys := by
  have hsub : (routeTexts view first root).Sublist (routeTexts view second root) :=
    (appEvents_sublist h).filterMap _
  rw [keys_routes_projectAt, keys_routes_projectAt]
  intro space hspace
  rw [List.mem_eraseDups] at hspace ⊢
  exact (hsub.map _).subset hspace

theorem overtakes_of_not_isKept (h : Narrower first second) {space : Route.Namespace}
    {names : List String} (hmem : names ∈ appAddresses view second root)
    (hkept : ¬ IsKept first.ignored.ignores first.appDepth names)
    (hdeclared : DeclaredIn view (root.place names) space)
    (hbehind : ∀ earlier ∈ appAddresses view first root,
      DeclaredIn view (root.place earlier) space → Precedes view root earlier names) :
    Overtakes view first second root space names := by
  have hmeets := (mem_appAddresses_iff view second root names).1 hmem
  have hnot : ¬ Meets view first root names := fun hfirst => by
    rw [← mem_appAddresses_iff, appAddresses_eq_filter view root h] at hfirst
    exact hkept (of_decide_eq_true (List.mem_filter.1 hfirst).2)
  refine ⟨hmeets, hnot, fun hview earlier hearlier hparts => hnot ?_, hdeclared,
    fun earlier hearlier => hbehind earlier ((mem_appAddresses_iff ..).2 hearlier)⟩
  rwa [← Path.place_parts_injective root (hearlier.isPlain hview) (hmeets.isPlain hview) hparts]

theorem get?_routes_narrowed (h : Narrower first second) (space : Route.Namespace) :
    (projectAt view first root).routes.get? space =
        (projectAt view second root).routes.get? space ∨
      ∃ names, Overtakes view first second root space names := by
  have hpair : (appAddresses view second root).Pairwise (Precedes view root) :=
    pairwise_descent ..
  rw [get?_routes_projectAt, get?_routes_projectAt, filter_routeTexts, filter_routeTexts,
    appAddresses_eq_filter view root h]
  rcases getLast?_filterMap_filter (declaring? view root space)
    (IsKept first.ignored.ignores first.appDepth ·) hpair with
    hlast | ⟨names, hmem, hkept, hsome, hbehind⟩
  · exact Or.inl (congrArg _ hlast)
  · refine Or.inr ⟨names, overtakes_of_not_isKept h hmem (of_decide_eq_false hkept)
      ((isSome_declaring?_iff ..).1 hsome) fun earlier hearlier hdeclared => ?_⟩
    rw [appAddresses_eq_filter view root h] at hearlier
    exact hbehind earlier hearlier ((isSome_declaring?_iff ..).2 hdeclared)

/-! ## Narrowed projects -/

/--
Where narrower and wider options lead to the same project root, the narrower ones find a part of
what the wider ones find: no other namespace, no other app, and of each app's models a sublist. A
namespace has the same routes, unless a route file that only the wider walk comes to declares it
behind all route files of the narrower walk that do.
-/
theorem ofPath_narrowed (view : FileView) {first second : Options} (h : Narrower first second)
    {path root : Path} (hfirst : root? view first path = some root)
    (hsecond : root? view second path = some root) :
    ∃ less more, (ofPath view first path).projects = [less] ∧
      (ofPath view second path).projects = [more] ∧ less.root = root ∧
      Project.IsNarrowed view first second less more := by
  exact ⟨projectAt view first root, projectAt view second root,
    ofPath_projects_of_root? view first root hfirst,
    ofPath_projects_of_root? view second root hsecond, rfl, rfl,
    keys_routes_subset h, fun _ _ => get?_models_narrowed h, get?_routes_narrowed h⟩

/-- A project where a directory and a deep route file may be left out. -/
def fairground : FileView where
  list path :=
    match path.text with
    | "f" => .ok ⟨["manage.py", "urls.py"], ["old", "rides"]⟩
    | "f/old" => .ok ⟨["urls.py"], ["rides"]⟩
    | "f/old/rides" => .ok ⟨["admin.py"], []⟩
    | "f/rides" => .ok ⟨["admin.py"], ["wheel"]⟩
    | "f/rides/wheel" => .ok ⟨["urls.py"], []⟩
    | _ => .error (.absent path)
  read path :=
    match path.text with
    | "f/urls.py" => .ok "app_name = 'fair'\nx = [p('', v, name='gate')]"
    | "f/old/urls.py" => .ok "app_name = 'past'\nx = [p('', v, name='booth')]"
    | "f/old/rides/admin.py" => .ok "from django.contrib import admin\nadmin.site.register(Swing)"
    | "f/rides/admin.py" => .ok "from django.contrib import admin\nadmin.site.register(Wheel)"
    | "f/rides/wheel/urls.py" => .ok "app_name = 'fair'\nx = [p('', v, name='spin')]"
    | _ => .error (.absent path)

/-- Options that do not enter directories named `old`, nor directories inside others. -/
def shallow : Options where
  appDepth := 1
  ignored := ⟨[[.char 'o', .char 'l', .char 'd']]⟩

theorem ofPath_narrowed_fairground :
    (Narrower shallow {} ∧ root? fairground shallow ⟨"f"⟩ = some ⟨"f"⟩ ∧
      root? fairground {} ⟨"f"⟩ = some ⟨"f"⟩) ∧
    ∃ less more, (ofPath fairground shallow ⟨"f"⟩).projects = [less] ∧
      (ofPath fairground {} ⟨"f"⟩).projects = [more] ∧ less.root = ⟨"f"⟩ ∧
      Project.IsNarrowed fairground shallow {} less more ∧
      less.routes.keys = [.app "fair"] ∧ more.routes.keys = [.app "fair", .app "past"] ∧
      less.routes.get? (.app "fair") ≠ more.routes.get? (.app "fair") ∧
      less.models.get? "rides" = some ["Wheel"] ∧
      more.models.get? "rides" = some ["Swing", "Wheel"] := by
  have hnarrower : Narrower shallow {} := by decide
  have hshallow : root? fairground shallow ⟨"f"⟩ = some ⟨"f"⟩ := by decide +kernel
  have hdeep : root? fairground {} ⟨"f"⟩ = some ⟨"f"⟩ := by decide +kernel
  obtain ⟨less, more, hless, hmore, hroot, hnarrowed⟩ :=
    ofPath_narrowed fairground hnarrower hshallow hdeep
  have hfirst : (ofPath fairground shallow ⟨"f"⟩).projects.map (fun project =>
      (project.routes.entries, project.models.get? "rides")) =
        [([(.app "fair", [⟨"gate", false, [], "fair:gate"⟩])], some ["Wheel"])] := by
    decide +kernel
  have hsecond : (ofPath fairground {} ⟨"f"⟩).projects.map (fun project =>
      (project.routes.entries, project.models.get? "rides")) =
        [([(.app "fair", [⟨"spin", false, [], "fair:spin"⟩]),
          (.app "past", [⟨"booth", false, [], "past:booth"⟩])], some ["Swing", "Wheel"])] := by
    decide +kernel
  rw [hless, List.map_singleton, List.singleton_inj, Prod.mk.injEq] at hfirst
  rw [hmore, List.map_singleton, List.singleton_inj, Prod.mk.injEq] at hsecond
  refine ⟨⟨hnarrower, hshallow, hdeep⟩, less, more, hless, hmore, hroot, hnarrowed, ?_, ?_, ?_,
    hfirst.2, hsecond.2⟩
  · rw [OrderedMap.keys, hfirst.1]
    rfl
  · rw [OrderedMap.keys, hsecond.1]
    rfl
  · rw [OrderedMap.get?, hfirst.1, OrderedMap.get?, hsecond.1]
    decide

end SiteSurvey.Survey
