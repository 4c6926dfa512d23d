import Mathlib.Data.List.MinMax
import SiteSurvey.Proofs.Report.Rows

/-!
# Where arguments begin

The arguments of a project's routes begin in one column. The padding behind a name is what the name
lacks to the widest name of the project, so the width of that name can always be taken from the
column (`isWidest_nameWidth`), and no other project of a report has a part in it
(`arguments_aligned`).
-/

namespace SiteSurvey.Report

/-! ## The widest name -/

/-- No route has a wider name than `width`, and some route has one as wide, if there is any. -/
structure IsWidest (measure : String → Nat) (routes : List Route) (width : Nat) : Prop where
  bounds : ∀ route ∈ routes, measure route.qualifiedName ≤ width
  attained : routes = [] ∧ width = 0 ∨ ∃ route ∈ routes, measure route.qualifiedName = width

theorem isWidest_foldr_max (measure : String → Nat) (routes : List Route) :
    IsWidest measure routes
      ((routes.map fun route => measure route.qualifiedName).foldr max 0) where
  bounds route hroute := List.le_max_of_le' 0 (List.mem_map_of_mem hroute) le_rfl
  attained := by
    induction routes with
    | nil => exact Or.inl ⟨rfl, rfl⟩
    | cons route routes ih =>
      right
      rw [List.map_cons, List.foldr_cons]
      rcases le_total (measure route.qualifiedName)
        ((routes.map fun route => measure route.qualifiedName).foldr max 0) with hle | hle
      · rw [max_eq_right hle]
        rcases ih with ⟨rfl, -⟩ | ⟨widest, hwidest, hwidth⟩
        · exact ⟨route, List.mem_cons_self, Nat.le_zero.1 hle⟩
        · exact ⟨widest, List.mem_cons_of_mem _ hwidest, hwidth⟩
      · rw [max_eq_left hle]
        exact ⟨route, List.mem_cons_self, rfl⟩

theorem isWidest_nameWidth (measure : String → Nat) (table : Route.Table) :
    IsWidest measure table.values.flatten (nameWidth measure table) :=
  isWidest_foldr_max measure table.values.flatten

/-! ## Laying a project out -/

/-- The line of a route, with `padding` blanks and two more between its name and its arguments. -/
def paddedLine (padding : Nat) (route : Route) : List Span :=
  if route.hasArgs then
    [plain ("    " ++ route.qualifiedName ++ String.ofList (List.replicate padding ' ') ++ "  "),
      dim (argumentsText route.args), plain "\n"]
  else [plain ("    " ++ route.qualifiedName ++ "\n")]

theorem routeLine_of_add_eq {measure : String → Nat} {route : Route} {padding width : Nat}
    (h : measure route.qualifiedName + padding = width) :
    routeLine measure width route = paddedLine padding route := by
  rw [routeLine, paddedLine, Nat.sub_eq_of_eq_add' h.symm]

/-- The lines of a namespace whose routes have `padding` blanks behind their names. -/
def paddedNamespace (padding : Route → Nat) (entry : Route.Namespace × List Route) : List Span :=
  [plain "  ", colored .cyan (namespaceText entry.1), plain "\n"] ++
    (if entry.2.isEmpty then [plain "    ", dim "(no named routes)", plain "\n"] else []) ++
    entry.2.flatMap fun route => paddedLine (padding route) route

theorem spansOf_namespaceRows_of_add_eq {measure : String → Nat} {padding : Route → Nat}
    {width : Nat} {entry : Route.Namespace × List Route}
    (h : ∀ route ∈ entry.2, measure route.qualifiedName + padding route = width) :
    spansOf (namespaceRows measure width entry) = paddedNamespace padding entry := by
  have hroutes : entry.2.flatMap (fun route => (routeRow measure width route).spans) =
      entry.2.flatMap fun route => paddedLine (padding route) route :=
    List.flatMap_congr fun route hroute => routeLine_of_add_eq (h route hroute)
  rw [namespaceRows, paddedNamespace, spansOf_append, spansOf_append, spansOf_map, hroutes]
  split <;> rfl

/-- The lines of a project whose routes have `padding` blanks behind their names. -/
def paddedProject (padding : Route → Nat) (project : Survey.Project) : List Span :=
  [bold project.root.text, plain "\n"] ++
    project.routes.entries.flatMap (paddedNamespace padding) ++
    spansOf (modelRows project.models) ++ [plain "\n"]

theorem spansOf_projectRows_of_add_eq {measure : String → Nat} {padding : Route → Nat}
    {project : Survey.Project}
    (h : ∀ route ∈ project.routes.values.flatten,
      measure route.qualifiedName + padding route = nameWidth measure project.routes) :
    spansOf (projectRows measure project) = paddedProject padding project := by
  have hspaces : project.routes.entries.flatMap (fun entry =>
      spansOf (namespaceRows measure (nameWidth measure project.routes) entry)) =
        project.routes.entries.flatMap (paddedNamespace padding) :=
    List.flatMap_congr fun entry hentry => spansOf_namespaceRows_of_add_eq fun route hroute =>
      h route (List.mem_flatten_of_mem (List.mem_map_of_mem hentry) hroute)
  rw [projectRows, paddedProject, spansOf_append, spansOf_append, spansOf_append, spansOf_flatMap,
    hspaces]
  rfl

/-! ## Whole reports -/

/--
Whatever function measures names, each project of a report is written as if it were the only one.
Each of its routes, with arguments or not, has a padding that makes its name as wide as the widest
name of all routes of the project, and these paddings stand in the lines of the project.
-/
theorem arguments_aligned (measure : String → Nat) (projects : List Survey.Project) :
    projectsLines measure projects =
      projects.flatMap (fun project => projectsLines measure [project]) ∧
    ∀ project : Survey.Project, ∃ (width : Nat) (padding : Route → Nat),
      IsWidest measure project.routes.values.flatten width ∧
      (∀ route ∈ project.routes.values.flatten,
        measure route.qualifiedName + padding route = width) ∧
      projectsLines measure [project] = paddedProject padding project := by
  have hsingle (project : Survey.Project) :
      projectsLines measure [project] = spansOf (projectRows measure project) := by
    rw [projectsLines, projectsRows, List.flatMap_singleton]
  simp only [hsingle]
  refine ⟨spansOf_flatMap .., fun project => ?_⟩
  have hwidest := isWidest_nameWidth measure project.routes
  have hpadding : ∀ route ∈ project.routes.values.flatten, measure route.qualifiedName +
      (nameWidth measure project.routes - measure route.qualifiedName) =
        nameWidth measure project.routes :=
    fun route hroute => Nat.add_sub_of_le (hwidest.bounds route hroute)
  exact ⟨_, _, hwidest, hpadding, spansOf_projectRows_of_add_eq hpadding⟩

/-- Seven blanks stand behind a name of one wide character, beside one of nine narrow characters. -/
theorem arguments_aligned_harbour :
    let boat : Route := ⟨"船", true, [⟨"pk", some .integer⟩], "船"⟩
    let login : Route := ⟨"login", false, [], "sea:login"⟩
    let harbour : Survey.Project :=
      ⟨⟨"h"⟩, ⟨[(.file "h/urls.py", [boat]), (.app "sea", [login])], by decide⟩, ∅⟩
    let castle : Survey.Project :=
      ⟨⟨"c"⟩, ⟨[(.app "castle", [⟨"gate", true, [], "castle:gate-of-the-north"⟩])], by decide⟩, ∅⟩
    boat ∈ harbour.routes.values.flatten ∧
    ∃ padding : Route → Nat, padding boat = 7 ∧
      projectsLines Text.displayWidth [harbour, castle] =
        paddedProject padding harbour ++ projectsLines Text.displayWidth [castle] := by
  intro boat login harbour castle
  have hboat : boat ∈ harbour.routes.values.flatten := by decide
  have hlogin : login ∈ harbour.routes.values.flatten := by decide
  obtain ⟨hprojects, hproject⟩ := arguments_aligned Text.displayWidth [harbour, castle]
  obtain ⟨width, padding, hwidest, hpadding, hlines⟩ := hproject harbour
  have hnarrow : Text.displayWidth boat.qualifiedName = 2 := by decide +kernel
  have hwide : Text.displayWidth login.qualifiedName = 9 := by decide +kernel
  have hwidth : width = 9 := by
    have hbound := hwidest.bounds login hlogin
    rcases hwidest.attained with ⟨hempty, -⟩ | ⟨route, hroute, hattained⟩
    · exact absurd hempty (List.ne_nil_of_mem hboat)
    · have hcases : route = boat ∨ route = login := by
        simpa [harbour, OrderedMap.values] using hroute
      rcases hcases with rfl | rfl <;> omega
  refine ⟨hboat, padding, ?_, ?_⟩
  · have := hpadding boat hboat
    omega
  · rw [hprojects, List.flatMap_cons, List.flatMap_singleton, hlines]

end SiteSurvey.Report
