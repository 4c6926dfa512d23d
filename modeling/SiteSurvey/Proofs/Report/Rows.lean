import Mathlib.Data.List.TakeWhile
import SiteSurvey.Report.Text

/-!
# Rows of reports

What is written of a report is the beginning of all its lines (`written_isPrefix`), and all of them
if none needs too much filling (`written_of_all`). Only the rows of routes with arguments are filled
(`all_isWritable_projectsRows_iff`).
-/

namespace SiteSurvey.Report

/-! ## Spans of rows -/

@[simp]
theorem spansOf_append (rows later : List Row) :
    spansOf (rows ++ later) = spansOf rows ++ spansOf later :=
  List.flatMap_append

@[simp]
theorem spansOf_cons (row : Row) (rows : List Row) :
    spansOf (row :: rows) = row.spans ++ spansOf rows :=
  List.flatMap_cons

@[simp]
theorem spansOf_flatMap {α : Type} (rows : α → List Row) (xs : List α) :
    spansOf (xs.flatMap rows) = xs.flatMap fun x => spansOf (rows x) :=
  List.flatMap_assoc

@[simp]
theorem spansOf_map {α : Type} (row : α → Row) (xs : List α) :
    spansOf (xs.map row) = xs.flatMap fun x => (row x).spans :=
  List.flatMap_map ..

/-! ## What is written -/

theorem written_of_all {rows : List Row} (h : rows.all Row.isWritable) :
    written rows = spansOf rows := by
  rw [written, List.takeWhile_eq_self_iff.2 (List.all_eq_true.1 h)]

theorem written_isPrefix (rows : List Row) : written rows <+: spansOf rows := by
  obtain ⟨later, hrows⟩ := List.takeWhile_prefix Row.isWritable (l := rows)
  exact ⟨spansOf later, by rw [written, ← spansOf_append, hrows]⟩

/-! ## Rows that can be written -/

/-- The arguments of the project's routes can be moved into one column. -/
def IsAlignable (measure : String → Nat) (project : Survey.Project) : Prop :=
  ∀ route ∈ project.routes.values.flatten, route.hasArgs →
    nameWidth measure project.routes - measure route.qualifiedName ≤ fillingBound

instance (measure : String → Nat) (project : Survey.Project) :
    Decidable (IsAlignable measure project) :=
  inferInstanceAs (Decidable (∀ route ∈ project.routes.values.flatten, _))

theorem isWritable_of_filling_eq_zero {row : Row} (h : row.filling = 0) : row.isWritable := by
  rw [Row.isWritable, h]
  exact decide_eq_true (Nat.zero_le _)

theorem isWritable_routeRow_iff {measure : String → Nat} {width : Nat} {route : Route} :
    (routeRow measure width route).isWritable ↔
      (route.hasArgs → width - measure route.qualifiedName ≤ fillingBound) := by
  rw [Row.isWritable, decide_eq_true_iff, routeRow]
  split_ifs with h <;> simp [h]

theorem all_isWritable_namespaceRows_iff {measure : String → Nat} {width : Nat}
    {entry : Route.Namespace × List Route} :
    (namespaceRows measure width entry).all Row.isWritable ↔
      ∀ route ∈ entry.2, route.hasArgs →
        width - measure route.qualifiedName ≤ fillingBound := by
  have hhead : ([{ spans := [plain "  ", colored .cyan (namespaceText entry.1), plain "\n"] }] :
      List Row).all Row.isWritable := by
    simp [isWritable_of_filling_eq_zero]
  have hempty : (if entry.2.isEmpty then
      [({ spans := [plain "    ", dim "(no named routes)", plain "\n"] } : Row)]
      else []).all Row.isWritable := by
    split <;> simp [isWritable_of_filling_eq_zero]
  rw [namespaceRows, List.all_append, List.all_append, hhead, hempty, Bool.true_and,
    Bool.true_and, List.all_map, List.all_eq_true]
  simp only [Function.comp_apply, isWritable_routeRow_iff]

theorem all_isWritable_modelRows (models : Survey.ModelTable) :
    (modelRows models).all Row.isWritable := by
  rw [modelRows]
  split
  · rfl
  · simp [modelRow, isWritable_of_filling_eq_zero]

theorem all_isWritable_projectRows_iff {measure : String → Nat} {project : Survey.Project} :
    (projectRows measure project).all Row.isWritable ↔ IsAlignable measure project := by
  have hroutes : (project.routes.entries.flatMap
      (namespaceRows measure (nameWidth measure project.routes))).all Row.isWritable ↔
        IsAlignable measure project := by
    simp only [List.all_flatMap, List.all_eq_true (l := project.routes.entries),
      all_isWritable_namespaceRows_iff]
    constructor
    · intro h route hroute
      obtain ⟨routes, hroutes, hmem⟩ := List.mem_flatten.1 hroute
      obtain ⟨entry, hentry, rfl⟩ := List.mem_map.1 hroutes
      exact h entry hentry route hmem
    · intro h entry hentry route hroute
      exact h route (List.mem_flatten_of_mem (List.mem_map_of_mem hentry) hroute)
  have hends : ∀ spans, ([{ spans := spans }] : List Row).all Row.isWritable := fun spans => by
    simp [isWritable_of_filling_eq_zero]
  rw [projectRows, List.all_append, List.all_append, List.all_append, hends, hends,
    all_isWritable_modelRows, Bool.true_and, Bool.and_true, Bool.and_true, hroutes]

/-- A report is written to its end if and only if all its projects can be laid out. -/
theorem all_isWritable_projectsRows_iff {measure : String → Nat} {projects : List Survey.Project} :
    (projectsRows measure projects).all Row.isWritable ↔
      ∀ project ∈ projects, IsAlignable measure project := by
  rw [projectsRows, List.all_flatMap, List.all_eq_true]
  simp only [all_isWritable_projectRows_iff]

end SiteSurvey.Report
