import Mathlib.Data.List.Perm.Basic
import SiteSurvey.Proofs.Survey.Diagnostics
import SiteSurvey.Proofs.Walk.Descent

/-!
# What a directory refuses

A directory that a walk comes to may refuse to be listed, and its route file and its admin modules
may refuse to be read. The route file of a package of admin modules is asked for twice, any other
file once (`perm_asked`). Where listings are orderly, a report belongs to one directory of a walk
only (`BelongsTo.unique`).
-/

namespace SiteSurvey

/-- Each listing names its entries by plain names, and no name twice. -/
structure FileView.IsOrderly (view : FileView) : Prop where
  nodup : ∀ path listing, view.list path = .ok listing → (listing.files ++ listing.dirs).Nodup
  isPlain : ∀ path listing, view.list path = .ok listing →
    ∀ name ∈ listing.files ++ listing.dirs, Path.IsPlain name

theorem FileView.IsOrderly.hasPlainListings {view : FileView} (h : view.IsOrderly) :
    view.HasPlainListings := by
  intro path listing hl
  exact ⟨(h.nodup path listing hl).of_append_right,
    fun name hname => h.isPlain path listing hl name (List.mem_append_right _ hname)⟩

namespace Survey

/-! ## The files of a level that are asked for -/

/-- The name of the route file of a level, if it has one. -/
def routeNames (files : List String) : List String :=
  if routeFileName ∈ files then [routeFileName] else []

/-- The route file of a level where it is a module of a package of admin modules as well. -/
def sharedNames (level : Path) (files : List String) : List String :=
  if level.fileName? = some adminPackageName ∧ packageMarker ∈ files then routeNames files else []

/-- The route file and the admin modules of a level, each once. -/
def singleNames (level : Path) (files : List String) : List String :=
  if level.fileName? = some adminPackageName ∧ packageMarker ∈ files then moduleNames level files
  else routeNames files ++ moduleNames level files

section Names

variable {level : Path} {files : List String}

theorem routeNames_subset : routeNames files ⊆ files := by
  unfold routeNames
  split_ifs with h
  · simpa using h
  · exact List.nil_subset _

theorem moduleNames_subset : moduleNames level files ⊆ files := by
  unfold moduleNames
  split_ifs with hpackage hfile
  · exact List.filter_subset_self _
  · simpa using hfile
  · exact List.nil_subset _

theorem singleNames_subset : singleNames level files ⊆ files := by
  unfold singleNames
  split_ifs
  · exact moduleNames_subset
  · exact List.append_subset.2 ⟨routeNames_subset, moduleNames_subset⟩

/-- A shared route file is among the modules of its package. -/
theorem sharedNames_subset : sharedNames level files ⊆ singleNames level files := by
  unfold sharedNames singleNames routeNames
  split_ifs with hpackage hfile
  · have hmodule : routeFileName ∈ moduleNames level files := by
      rw [moduleNames, if_pos hpackage]
      exact List.mem_filter.2 ⟨hfile, by decide⟩
    simpa using hmodule
  · exact List.nil_subset _
  · exact List.nil_subset _
  · exact List.nil_subset _

theorem nodup_routeNames : (routeNames files).Nodup := by
  unfold routeNames
  split_ifs
  · exact List.nodup_singleton _
  · exact List.nodup_nil

theorem nodup_sharedNames : (sharedNames level files).Nodup := by
  unfold sharedNames
  split_ifs
  · exact nodup_routeNames
  · exact List.nodup_nil

theorem nodup_singleNames (hfiles : files.Nodup) : (singleNames level files).Nodup := by
  unfold singleNames moduleNames routeNames
  split_ifs
  · exact hfiles.filter _
  · decide
  · decide
  · decide
  · decide

/-- What is asked for is each file once and the shared ones once more. -/
theorem perm_asked (level : Path) (files : List String) :
    (routeNames files ++ moduleNames level files).Perm
      (singleNames level files ++ sharedNames level files) := by
  unfold singleNames sharedNames
  split_ifs
  · exact List.perm_append_comm
  · rw [List.append_nil]

end Names

/-! ## What is reported of a level -/

/-- The paths that are reported as unreadable. -/
def unreadablePaths (diagnostics : List Diagnostic) : List Path :=
  diagnostics.filterMap fun
    | .unreadable path _ => some path
    | _ => none

/-- Whether a file cannot be read. -/
def refuses (view : FileView) (path : Path) : Bool :=
  match view.read path with
  | .ok _ => false
  | .error _ => true

theorem unreadablePaths_append (first later : List Diagnostic) :
    unreadablePaths (first ++ later) = unreadablePaths first ++ unreadablePaths later :=
  List.filterMap_append

theorem length_unreadablePaths (diagnostics : List Diagnostic) :
    (unreadablePaths diagnostics).length = diagnostics.countP (·.isUnreadable) := by
  rw [unreadablePaths, List.length_filterMap_eq_countP]
  refine List.countP_congr fun diagnostic _ => ?_
  cases diagnostic <;> simp [Diagnostic.isUnreadable]

section Level

variable (view : FileView) (root : Path)

/-- A directory that cannot be listed, by the names that lead to it. -/
def refusedLevel (names : List String) : List (List String) :=
  match view.list (root.place names) with
  | .error _ => [names]
  | .ok _ => []

/-- The files of a selection that cannot be read, by the names that lead to them. -/
def refusedFiles (select : Path → List String → List String) (names : List String) :
    List (List String) :=
  match view.list (root.place names) with
  | .error _ => []
  | .ok listing =>
    ((select (root.place names) listing.files).filter fun name =>
      refuses view ((root.place names).join name)).map fun name => names ++ [name]

theorem place_concat (names : List String) (name : String) :
    root.place (names ++ [name]) = (root.place names).join name :=
  Path.place_append root names [name]

theorem unreadablePaths_routeReport? (path : Path) :
    unreadablePaths (routeReport? view path).toList = if refuses view path then [path] else [] := by
  unfold routeReport? refuses
  rcases view.read path with error | text
  · rfl
  · cases h : (Route.File.read text path.text).fault <;> simp [h, unreadablePaths]

theorem unreadablePaths_readReports (level : Path) (names : List String) :
    unreadablePaths (names.filterMap fun name => readReport? view (level.join name)) =
      (names.filter fun name => refuses view (level.join name)).map level.join := by
  induction names with
  | nil => rfl
  | cons name names ih =>
    rcases hread : view.read (level.join name) with error | text
    · rw [List.filterMap_cons_some (by rw [readReport?, hread]),
        List.filter_cons_of_pos (by rw [refuses, hread]), List.map_cons, ← ih]
      rfl
    · rw [List.filterMap_cons_none (by rw [readReport?, hread]),
        List.filter_cons_of_neg (by simp [refuses, hread]), ih]

theorem unreadablePaths_levelReports (level : Path) (files : List String) :
    unreadablePaths (levelReports view (.level level files)) =
      ((routeNames files ++ moduleNames level files).filter fun name =>
        refuses view (level.join name)).map level.join := by
  rw [levelReports, unreadablePaths_append, unreadablePaths_readReports, List.filter_append,
    List.map_append]
  congr 1
  unfold routeNames
  split_ifs with hfile
  · rw [unreadablePaths_routeReport?]
    split_ifs with h <;> simp [h]
  · rfl

/-- The reports of a directory of a walk. -/
theorem unreadablePaths_eventAt (names : List String) :
    unreadablePaths (levelReports view (eventAt view (root.place names))) =
      (refusedLevel view root names ++
        refusedFiles view root (fun level files => routeNames files ++ moduleNames level files)
          names).map root.place := by
  unfold refusedLevel refusedFiles eventAt
  rcases view.list (root.place names) with error | listing
  · rfl
  · dsimp only
    rw [unreadablePaths_levelReports, List.nil_append, List.map_map]
    refine List.map_congr_left fun name _ => ?_
    exact (place_concat root names name).symm

theorem perm_refusedFiles (names : List String) :
    (refusedFiles view root (fun level files => routeNames files ++ moduleNames level files)
      names).Perm
      (refusedFiles view root singleNames names ++ refusedFiles view root sharedNames names) := by
  unfold refusedFiles
  rcases view.list (root.place names) with error | listing
  · exact .nil
  · dsimp only
    rw [← List.map_append, ← List.filter_append]
    exact ((perm_asked _ _).filter _).map _

end Level

/-! ## Each report belongs to one directory -/

section Belongs

variable {view : FileView} {root : Path}

/-- A directory that cannot be listed, or a file of the directory, by the names that lead to it. -/
inductive BelongsTo (view : FileView) (root : Path) (names : List String) : List String → Prop where
  | itself {error : AccessError} (hl : view.list (root.place names) = .error error) :
    BelongsTo view root names names
  | file {listing : Listing} (hl : view.list (root.place names) = .ok listing) {name : String}
    (hname : name ∈ listing.files) : BelongsTo view root names (names ++ [name])

theorem belongsTo_of_mem_refusedLevel {names entry : List String}
    (h : entry ∈ refusedLevel view root names) : BelongsTo view root names entry := by
  unfold refusedLevel at h
  split at h
  · next hl =>
    obtain rfl := List.mem_singleton.1 h
    exact .itself hl
  · cases h

theorem belongsTo_of_mem_refusedFiles {select : Path → List String → List String}
    (hselect : ∀ level files, select level files ⊆ files) {names entry : List String}
    (h : entry ∈ refusedFiles view root select names) : BelongsTo view root names entry := by
  unfold refusedFiles at h
  split at h
  · cases h
  · next hl =>
    obtain ⟨name, hname, rfl⟩ := List.mem_map.1 h
    exact .file hl (hselect _ _ (List.mem_filter.1 hname).1)

/-- A directory that a walk enters is named in the listing that it lies in. -/
theorem mem_dirs_of_reaches {ignored : String → Bool} {choose : Path → List String → Choice}
    {depth : Nat} {names : List String} {name : String}
    (h : Reaches view ignored choose depth root (names ++ [name])) {listing : Listing}
    (hl : view.list (root.place names) = .ok listing) : name ∈ listing.dirs := by
  obtain ⟨listing', hl', hmem, -⟩ := h.enters names.length (by simp)
  rw [List.take_left, hl] at hl'
  cases hl'
  simpa using hmem

theorem BelongsTo.unique (hview : view.IsOrderly) {ignored : String → Bool} {depth : Nat}
    {names names' entry : List String} (hn : names ∈ descent view ignored depth root)
    (hn' : names' ∈ descent view ignored depth root) (h : BelongsTo view root names entry)
    (h' : BelongsTo view root names' entry) : names = names' := by
  -- a directory that is entered is no file of the directory that it lies in
  have hfile {names : List String} {name : String} {listing : Listing}
      (hn : names ++ [name] ∈ descent view ignored depth root)
      (hl : view.list (root.place names) = .ok listing) : name ∉ listing.files := fun hname =>
    (List.disjoint_of_nodup_append (hview.nodup _ _ hl)) hname
      (mem_dirs_of_reaches ((mem_descent_iff ..).1 hn) hl)
  cases h with
  | itself hl =>
    cases h' with
    | itself hl' => rfl
    | file hl' hname' => exact absurd hname' (hfile hn hl')
  | file hl hname =>
    generalize he : names ++ [_] = entry at h'
    cases h' with
    | itself hl' =>
      subst he
      exact absurd hname (hfile hn' hl)
    | file hl' hname' => exact List.append_inj_left' he rfl

theorem nodup_flatMap_descent (hview : view.IsOrderly) {ignored : String → Bool} {depth : Nat}
    {reports : List String → List (List String)}
    (hbelongs : ∀ names, ∀ entry ∈ reports names, BelongsTo view root names entry)
    (hnodup : ∀ names, (reports names).Nodup) :
    ((descent view ignored depth root).flatMap reports).Nodup := by
  rw [List.nodup_flatMap]
  refine ⟨fun names _ => hnodup names, ?_⟩
  refine (nodup_descent hview.hasPlainListings depth root).imp_of_mem ?_
  intro names names' hn hn' hne entry h h'
  exact hne ((hbelongs names entry h).unique hview hn hn' (hbelongs names' entry h'))

theorem nodup_refusedFiles (hview : view.IsOrderly) {select : Path → List String → List String}
    (hselect : ∀ level files, files.Nodup → (select level files).Nodup) (names : List String) :
    (refusedFiles view root select names).Nodup := by
  unfold refusedFiles
  split
  · exact List.nodup_nil
  · next listing hl =>
    have hfiles : listing.files.Nodup := (hview.nodup _ _ hl).of_append_left
    refine ((hselect _ _ hfiles).filter _).map fun name name' h => ?_
    simpa using h

theorem refusedFiles_subset {select select' : Path → List String → List String}
    (hselect : ∀ level files, select level files ⊆ select' level files) (names : List String) :
    refusedFiles view root select names ⊆ refusedFiles view root select' names := by
  unfold refusedFiles
  split
  · exact List.nil_subset _
  · exact List.map_subset _ (List.filter_subset _ (hselect _ _))

theorem BelongsTo.isPlain (hview : view.IsOrderly) {names entry : List String}
    (hnames : ∀ name ∈ names, Path.IsPlain name) (h : BelongsTo view root names entry) :
    ∀ name ∈ entry, Path.IsPlain name := by
  cases h with
  | itself _ => exact hnames
  | file hl hname =>
    rw [List.forall_mem_append]
    exact ⟨hnames, List.forall_mem_singleton.2
      (hview.isPlain _ _ hl _ (List.mem_append_left _ hname))⟩

end Belongs

end Survey

end SiteSurvey
