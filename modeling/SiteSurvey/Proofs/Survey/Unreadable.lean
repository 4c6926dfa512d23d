import Mathlib.Data.Finset.Card
import SiteSurvey.Proofs.Survey.Independence
import SiteSurvey.Proofs.Survey.Refusals
import SiteSurvey.Report.Text

/-!
# Unreadable paths

What a survey of one path reports as unreadable are directories that the search for the root or the
walk from it cannot list, and files that it cannot read. Each is reported once, but for the route
file of a package of admin modules: it is one of the package's modules as well, and is reported
once as either (`ofPaths_unreadable`).
-/

namespace SiteSurvey.Survey

/-! ## The search and the walk together -/

section Apart

variable (view : FileView) (options : Options) (path : Path)

/-- The names that lead to the directories that the search for the root comes to, in order. -/
def searched : List (List String) :=
  visits view options.ignored.ignores seekMarker options.projectDepth path

theorem rootTrace_events :
    (rootTrace view options path).events =
      (searched view options path).map fun names => eventAt view (path.place names) :=
  congrArg Trace.events (walk_eq_visits view options.ignored.ignores seekMarker
    options.projectDepth path)

theorem unreadablePaths_rootDiagnostics :
    unreadablePaths (rootDiagnostics view options path) =
      ((searched view options path).flatMap (refusedLevel view path)).map path.place := by
  rw [rootDiagnostics, rootTrace_events, unreadablePaths]
  generalize searched view options path = visited
  induction visited with
  | nil => rfl
  | cons names visited ih =>
    rw [List.flatMap_cons, List.map_append, ← ih, List.map_cons]
    unfold refusedLevel eventAt
    rcases hl : view.list (path.place names) with error | listing <;> rfl

variable {view options path}

/-- The root is the last directory that the search comes to. -/
theorem exists_searched_of_root? {root : Path} (h : root? view options path = some root) :
    ∃ before names listing, searched view options path = before ++ [names] ∧
      root = path.place names ∧ view.list root = .ok listing := by
  unfold root? stopLevel? at h
  split at h
  · next _ root' files _ hlast =>
    cases h
    rw [rootTrace_events, List.getLast?_map] at hlast
    obtain ⟨names, hnames, hevent⟩ := Option.map_eq_some_iff.1 hlast
    obtain ⟨before, hbefore⟩ := List.getLast?_eq_some_iff.1 hnames
    unfold eventAt at hevent
    split at hevent
    · cases hevent
    · next listing hl =>
      cases hevent
      exact ⟨before, names, listing, hbefore, rfl, hl⟩
  · cases h

/-! ### Apart -/

variable (view options path)

/-- The directories that the search cannot list. -/
def searchEntries : List (List String) :=
  (searched view options path).flatMap (refusedLevel view path)

/-- What the walk from a root reports once, and what it reports once more. -/
def singleEntries (root : Path) : List (List String) :=
  (descent view options.ignored.ignores options.appDepth root).flatMap fun names =>
    refusedLevel view root names ++ refusedFiles view root singleNames names

def sharedEntries (root : Path) : List (List String) :=
  (descent view options.ignored.ignores options.appDepth root).flatMap
    (refusedFiles view root sharedNames)

variable {view options path}

theorem eq_of_mem_refusedLevel {root : Path} {names entry : List String}
    (h : entry ∈ refusedLevel view root names) :
    entry = names ∧ ∃ error, view.list (root.place names) = .error error := by
  unfold refusedLevel at h
  split at h
  · next error hl => exact ⟨List.mem_singleton.1 h, error, hl⟩
  · cases h

theorem nodup_refusedLevel (root : Path) (names : List String) :
    (refusedLevel view root names).Nodup := by
  unfold refusedLevel
  split
  · exact List.nodup_singleton _
  · exact List.nodup_nil

theorem nodup_searchEntries (hview : view.IsOrderly) :
    (searchEntries view options path).Nodup := by
  rw [searchEntries, List.nodup_flatMap]
  refine ⟨fun names _ => nodup_refusedLevel path names, ?_⟩
  refine (pairwise_visits ..).imp fun h entry he he' => ?_
  exact h.ne hview.hasPlainListings
    ((eq_of_mem_refusedLevel he).1.symm.trans (eq_of_mem_refusedLevel he').1)

theorem belongsTo_of_mem_single {root : Path} (names : List String) :
    ∀ entry ∈ refusedLevel view root names ++ refusedFiles view root singleNames names,
      BelongsTo view root names entry := by
  intro entry h
  rcases List.mem_append.1 h with h | h
  · exact belongsTo_of_mem_refusedLevel h
  · exact belongsTo_of_mem_refusedFiles (fun _ _ => singleNames_subset) h

theorem nodup_singleEntries (hview : view.IsOrderly) (root : Path) :
    (singleEntries view options root).Nodup := by
  refine nodup_flatMap_descent hview belongsTo_of_mem_single fun names => ?_
  refine List.nodup_append'.2 ⟨nodup_refusedLevel root names,
    nodup_refusedFiles hview (fun _ _ => nodup_singleNames) names, fun entry h h' => ?_⟩
  obtain ⟨-, error, hl⟩ := eq_of_mem_refusedLevel h
  rw [refusedFiles, hl] at h'
  cases h'

theorem nodup_sharedEntries (hview : view.IsOrderly) (root : Path) :
    (sharedEntries view options root).Nodup :=
  nodup_flatMap_descent hview
    (fun _ _ h => belongsTo_of_mem_refusedFiles
      (fun _ _ => List.Subset.trans sharedNames_subset singleNames_subset) h)
    fun names => nodup_refusedFiles hview (fun _ _ _ => nodup_sharedNames) names

theorem sharedEntries_subset (root : Path) :
    sharedEntries view options root ⊆ singleEntries view options root := by
  intro entry h
  obtain ⟨names, hnames, h⟩ := List.mem_flatMap.1 h
  refine List.mem_flatMap.2 ⟨names, hnames, List.mem_append_right _ ?_⟩
  exact refusedFiles_subset (fun _ _ => sharedNames_subset) names h

/-- The search comes to no directory at or below the root before the root. -/
theorem not_mem_searchEntries (hview : view.IsOrderly) {before : List (List String)}
    {names : List String} {listing : Listing}
    (hsearched : searched view options path = before ++ [names])
    (hl : view.list (path.place names) = .ok listing) (more : List String) :
    names ++ more ∉ searchEntries view options path := by
  intro h
  obtain ⟨visited, hvisited, h⟩ := List.mem_flatMap.1 h
  obtain ⟨rfl, error, herror⟩ := eq_of_mem_refusedLevel h
  have hpair : (before ++ [names]).Pairwise (Precedes view path) :=
    hsearched ▸ pairwise_visits ..
  rcases more with _ | ⟨name, more⟩
  · rw [List.append_nil, hl] at herror
    cases herror
  · have hne : names ++ name :: more ≠ names := by simp
    rw [hsearched] at hvisited
    have hbefore : names ++ name :: more ∈ before :=
      (List.mem_append.1 hvisited).resolve_right fun h => hne (List.mem_singleton.1 h)
    have hlt := (List.pairwise_append.1 hpair).2.2 _ hbefore names (by simp)
    exact hlt.asymm hview.hasPlainListings (Precedes.append_cons ..)

theorem isPlain_of_mem_searched (hview : view.IsOrderly) {names : List String}
    (h : names ∈ searched view options path) : ∀ name ∈ names, Path.IsPlain name :=
  (Reaches.of_mem_visits h).isPlain hview.hasPlainListings

theorem isPlain_of_mem_singleEntries (hview : view.IsOrderly) {root : Path} {entry : List String}
    (h : entry ∈ singleEntries view options root) : ∀ name ∈ entry, Path.IsPlain name := by
  obtain ⟨names, hnames, h⟩ := List.mem_flatMap.1 h
  exact (belongsTo_of_mem_single names entry h).isPlain hview
    (((mem_descent_iff ..).1 hnames).isPlain hview.hasPlainListings)

theorem unreadablePaths_ofRoot (root : Path) :
    (unreadablePaths (ofRoot view options root).diagnostics).Perm
      ((singleEntries view options root ++ sharedEntries view options root).map root.place) := by
  have hreports : unreadablePaths (ofRoot view options root).diagnostics =
      ((descent view options.ignored.ignores options.appDepth root).flatMap fun names =>
        refusedLevel view root names ++ refusedFiles view root
          (fun level files => routeNames files ++ moduleNames level files) names).map
        root.place := by
    rw [ofRoot_diagnostics, appEvents, walkAll_eq, unreadablePaths, List.filterMap_flatMap,
      List.flatMap_map, List.map_flatMap]
    exact List.flatMap_congr fun names _ => unreadablePaths_eventAt view root names
  rw [hreports]
  refine List.Perm.map _ ?_
  refine .trans (List.Perm.flatMap_left _ fun names _ => ?_) (List.flatMap_append_perm _ _ _).symm
  rw [List.append_assoc]
  exact (perm_refusedFiles view root names).append_left _

end Apart

/-! ## Reports of a path -/

/-- The route files of packages of admin modules at a level that cannot be read. -/
def sharedRefusals (view : FileView) : Event → List Path
  | .failure _ _ => []
  | .level level files =>
    ((sharedNames level files).filter fun name => refuses view (level.join name)).map level.join

/-- The paths that a survey of one path reports as unreadable, by their parts. -/
def reportedKeys (view : FileView) (options : Options) (path : Path) : List (List Path.Part) :=
  (unreadablePaths (ofPaths view options [path]).diagnostics).map Path.parts

/-- The route files of packages in the project of a path that cannot be read, by their parts. -/
def sharedKeys (view : FileView) (options : Options) (path : Path) : List (List Path.Part) :=
  ((root? view options path).toList.flatMap fun root =>
    (appEvents view options root).flatMap (sharedRefusals view)).map Path.parts

section Reports

variable {view : FileView} {options : Options} {path : Path}

theorem sharedRefusals_eventAt (root : Path) (names : List String) :
    sharedRefusals view (eventAt view (root.place names)) =
      (refusedFiles view root sharedNames names).map root.place := by
  unfold refusedFiles eventAt
  rcases view.list (root.place names) with error | listing
  · rfl
  · dsimp only
    rw [sharedRefusals, List.map_map]
    exact List.map_congr_left fun name _ => (place_concat root names name).symm

theorem flatMap_sharedRefusals (root : Path) :
    (appEvents view options root).flatMap (sharedRefusals view) =
      (sharedEntries view options root).map root.place := by
  rw [appEvents, walkAll_eq, List.flatMap_map, sharedEntries, List.map_flatMap]
  exact List.flatMap_congr fun names _ => sharedRefusals_eventAt root names

/-- Keys that come once, with some of them a second time behind them. -/
structure OnceAndAgain {α : Type} (keys once again : List α) : Prop where
  perm : keys.Perm (once ++ again)
  nodup_once : once.Nodup
  nodup_again : again.Nodup
  subset : again ⊆ once

theorem OnceAndAgain.map {α β : Type} {keys once again : List α} {f : α → β}
    (h : OnceAndAgain keys once again) (hf : ∀ x ∈ once, ∀ y ∈ once, f x = f y → x = y) :
    OnceAndAgain (keys.map f) (once.map f) (again.map f) where
  perm := by
    rw [← List.map_append]
    exact h.perm.map f
  nodup_once := h.nodup_once.map_on hf
  nodup_again := h.nodup_again.map_on fun x hx y hy => hf x (h.subset hx) y (h.subset hy)
  subset := List.map_subset f h.subset

theorem OnceAndAgain.append_left {α : Type} {earlier keys once again : List α}
    (h : OnceAndAgain keys once again) (hearlier : earlier.Nodup)
    (hapart : earlier.Disjoint once) :
    OnceAndAgain (earlier ++ keys) (earlier ++ once) again where
  perm := by
    rw [List.append_assoc]
    exact h.perm.append_left earlier
  nodup_once := List.nodup_append'.2 ⟨hearlier, h.nodup_once, hapart⟩
  nodup_again := h.nodup_again
  subset := List.subset_append_of_subset_right _ h.subset

theorem OnceAndAgain.count_eq {α : Type} [BEq α] [LawfulBEq α] {keys once again : List α}
    (h : OnceAndAgain keys once again) {key : α} (hkey : key ∈ keys) :
    keys.count key = if key ∈ again then 2 else 1 := by
  have honce : key ∈ once :=
    (List.mem_append.1 (h.perm.subset hkey)).elim id fun hagain => h.subset hagain
  rw [h.perm.count_eq, List.count_append, List.count_eq_one_of_mem h.nodup_once honce]
  split_ifs with hagain
  · rw [List.count_eq_one_of_mem h.nodup_again hagain]
  · rw [List.count_eq_zero_of_not_mem hagain]

theorem OnceAndAgain.length_eq {α : Type} [DecidableEq α] {keys once again : List α}
    (h : OnceAndAgain keys once again) :
    keys.length = keys.toFinset.card + again.length := by
  have hset : keys.toFinset = once.toFinset := by
    ext key
    rw [List.mem_toFinset, List.mem_toFinset, h.perm.mem_iff, List.mem_append]
    exact ⟨fun hkey => hkey.elim id fun hagain => h.subset hagain, Or.inl⟩
  rw [hset, List.toFinset_card_of_nodup h.nodup_once, h.perm.length_eq, List.length_append]

theorem onceAndAgain_entries (hview : view.IsOrderly) (options : Options) (root : Path) :
    OnceAndAgain (singleEntries view options root ++ sharedEntries view options root)
      (singleEntries view options root) (sharedEntries view options root) where
  perm := .refl _
  nodup_once := nodup_singleEntries hview root
  nodup_again := nodup_sharedEntries hview root
  subset := sharedEntries_subset root

/-- What the search and the walk from the root it finds report, by the names that lead there. -/
theorem exists_entries (hview : view.IsOrderly) (options : Options) (path : Path) :
    ∃ keys once again, OnceAndAgain keys once again ∧
      (∀ entry ∈ once, ∀ name ∈ entry, Path.IsPlain name) ∧
      (unreadablePaths (ofPath view options path).diagnostics).Perm (keys.map path.place) ∧
      ((root? view options path).toList.flatMap fun root =>
        (appEvents view options root).flatMap (sharedRefusals view)) = again.map path.place := by
  have hsearch : ∀ entry ∈ searchEntries view options path, ∀ name ∈ entry, Path.IsPlain name := by
    intro entry h
    obtain ⟨names, hnames, h⟩ := List.mem_flatMap.1 h
    rw [(eq_of_mem_refusedLevel h).1]
    exact isPlain_of_mem_searched hview hnames
  rw [ofPath, append_diagnostics, unreadablePaths_append, unreadablePaths_rootDiagnostics]
  rcases hroot : root? view options path with _ | root
  · refine ⟨searchEntries view options path, searchEntries view options path, [],
      ⟨by rw [List.append_nil], nodup_searchEntries hview, List.nodup_nil, List.nil_subset _⟩,
      hsearch, ?_, rfl⟩
    exact .of_eq (List.append_nil _)
  · obtain ⟨before, names, listing, hsearched, rfl, hl⟩ := exists_searched_of_root? hroot
    have hplace (entries : List (List String)) : entries.map (path.place names).place =
        (entries.map (names ++ ·)).map path.place := by
      rw [List.map_map]
      exact List.map_congr_left fun more _ => (Path.place_append path names more).symm
    have hwalk := (onceAndAgain_entries hview options (path.place names)).map
      (f := (names ++ ·)) fun _ _ _ _ => List.append_cancel_left
    have hapart : (searchEntries view options path).Disjoint
        ((singleEntries view options (path.place names)).map (names ++ ·)) := by
      intro entry h h'
      obtain ⟨more, -, rfl⟩ := List.mem_map.1 h'
      exact not_mem_searchEntries hview hsearched hl more h
    refine ⟨_, _, _, hwalk.append_left (nodup_searchEntries hview) hapart, ?_, ?_, ?_⟩
    · rw [List.forall_mem_append]
      refine ⟨hsearch, fun entry h => ?_⟩
      obtain ⟨more, hmore, rfl⟩ := List.mem_map.1 h
      rw [List.forall_mem_append]
      have hnames : names ∈ searched view options path := by rw [hsearched]; simp
      exact ⟨isPlain_of_mem_searched hview hnames, isPlain_of_mem_singleEntries hview hmore⟩
    · rw [List.map_append, ← hplace]
      exact (unreadablePaths_ofRoot _).append_left _
    · rw [← hplace]
      exact (List.append_nil _).trans (flatMap_sharedRefusals _)

theorem exists_onceAndAgain (hview : view.IsOrderly) (options : Options) (path : Path) :
    ∃ once, OnceAndAgain (reportedKeys view options path) once (sharedKeys view options path) := by
  obtain ⟨keys, once, again, h, hplain, hkeys, hagain⟩ := exists_entries hview options path
  have hparts : OnceAndAgain (keys.map fun entry => (path.place entry).parts)
      (once.map fun entry => (path.place entry).parts)
      (again.map fun entry => (path.place entry).parts) :=
    h.map fun x hx y hy => Path.place_parts_injective path (hplain x hx) (hplain y hy)
  have hreported : (reportedKeys view options path).Perm
      (keys.map fun entry => (path.place entry).parts) := by
    have hmap := hkeys.map Path.parts
    rw [List.map_map] at hmap
    rwa [reportedKeys, (ofPaths_singleton ..).2]
  have hshared : sharedKeys view options path =
      again.map fun entry => (path.place entry).parts := by
    rw [sharedKeys, hagain, List.map_map]
    rfl
  rw [hshared]
  exact ⟨_, hreported.trans hparts.perm, hparts.nodup_once, hparts.nodup_again, hparts.subset⟩

theorem length_reportedKeys (options : Options) (path : Path) :
    (reportedKeys view options path).length =
      (ofPaths view options [path]).diagnostics.countP (·.isUnreadable) := by
  rw [reportedKeys, List.length_map, length_unreadablePaths]

end Reports

/--
A survey of one path reports each path that it cannot read once, and twice if it is the route file
of a package of admin modules. The line that stands for these reports counts the paths, those that
are reported twice a second time; without any, it counts the distinct paths.
-/
theorem ofPaths_unreadable {view : FileView} (hview : view.IsOrderly) (options : Options)
    (path : Path) :
    (∀ key ∈ reportedKeys view options path, (reportedKeys view options path).count key =
      if key ∈ sharedKeys view options path then 2 else 1) ∧
    (sharedKeys view options path = [] → (reportedKeys view options path).Nodup) ∧
    ∃ count, count = (reportedKeys view options path).toFinset.card +
        (sharedKeys view options path).length ∧
      Report.diagnosticsLines false (ofPaths view options [path]).diagnostics =
        ((ofPaths view options [path]).diagnostics.filter (!·.isUnreadable)).flatMap
          Report.diagnosticLine ++ if count = 0 then [] else Report.unreadableLine count := by
  obtain ⟨once, h⟩ := exists_onceAndAgain hview options path
  refine ⟨fun key hkey => h.count_eq hkey, fun hnone => ?_, _, rfl, ?_⟩
  · have hperm := h.perm
    rw [hnone, List.append_nil] at hperm
    exact hperm.nodup_iff.2 h.nodup_once
  · rw [← h.length_eq, length_reportedKeys]
    rfl

/-- A package of admin modules with a barred route file, beside a barred directory. -/
def abbey : FileView where
  list path :=
    match path.text with
    | "a" => .ok ⟨["manage.py"], ["admin", "crypt"]⟩
    | "a/admin" => .ok ⟨["__init__.py", "urls.py"], []⟩
    | _ => .error (.denied path)
  read path :=
    match path.text with
    | "a/manage.py" | "a/admin/__init__.py" => .ok ""
    | _ => .error (.denied path)

theorem abbey_isOrderly : abbey.IsOrderly where
  nodup path listing hl := by
    simp only [abbey] at hl
    split at hl <;> cases hl <;> decide
  isPlain path listing hl := by
    simp only [abbey] at hl
    split at hl <;> cases hl <;> decide

theorem ofPaths_unreadable_abbey :
    abbey.IsOrderly ∧
      (reportedKeys abbey {} ⟨"a"⟩).count [.name "a", .name "admin", .name "urls.py"] = 2 ∧
      (reportedKeys abbey {} ⟨"a"⟩).count [.name "a", .name "crypt"] = 1 ∧
      Report.diagnosticsLines false (ofPaths abbey {} [⟨"a"⟩]).diagnostics =
        Report.unreadableLine (2 + 1) ∧
      (reportedKeys abbey {} ⟨"a/crypt"⟩).Nodup := by
  have hkeys : reportedKeys abbey {} ⟨"a"⟩ =
      [[.name "a", .name "admin", .name "urls.py"], [.name "a", .name "admin", .name "urls.py"],
        [.name "a", .name "crypt"]] := by decide +kernel
  have hshared : sharedKeys abbey {} ⟨"a"⟩ = [[.name "a", .name "admin", .name "urls.py"]] := by
    decide +kernel
  obtain ⟨hcount, -, count, hn, hlines⟩ := ofPaths_unreadable abbey_isOrderly {} ⟨"a"⟩
  rw [hkeys, hshared] at hcount
  have hother : ((ofPaths abbey {} [⟨"a"⟩]).diagnostics.filter (!·.isUnreadable)) = [] := by
    decide +kernel
  have hthree : count = 2 + 1 := by
    rw [hn, hkeys, hshared]
    decide
  rw [hother, hthree] at hlines
  obtain ⟨-, hnodup, -⟩ := ofPaths_unreadable abbey_isOrderly {} ⟨"a/crypt"⟩
  refine ⟨abbey_isOrderly, ?_, ?_, hlines, hnodup (by decide +kernel)⟩
  · rw [hkeys]
    exact hcount _ (by simp)
  · rw [hkeys]
    exact hcount _ (by simp)

/-- The line counts three paths where only two cannot be read. -/
theorem not_nodup_unreadablePaths_abbey :
    abbey.IsOrderly ∧
      unreadablePaths (ofPaths abbey {} [⟨"a"⟩]).diagnostics =
        [⟨"a/admin/urls.py"⟩, ⟨"a/admin/urls.py"⟩, ⟨"a/crypt"⟩] ∧
      ¬ (unreadablePaths (ofPaths abbey {} [⟨"a"⟩]).diagnostics).Nodup ∧
      Report.diagnosticsLines false (ofPaths abbey {} [⟨"a"⟩]).diagnostics =
        Report.unreadableLine 3 := by
  have hpaths : unreadablePaths (ofPaths abbey {} [⟨"a"⟩]).diagnostics =
      [⟨"a/admin/urls.py"⟩, ⟨"a/admin/urls.py"⟩, ⟨"a/crypt"⟩] := by decide +kernel
  refine ⟨abbey_isOrderly, hpaths, ?_, by decide +kernel⟩
  rw [hpaths]
  decide

end SiteSurvey.Survey
