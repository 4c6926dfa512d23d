import SiteSurvey.Proofs.Walk.Footprint
import SiteSurvey.Survey.Scan

/-!
# The project root

The search for a project root is a walk that stops at the first level with the project marker. It
finds the first such level of the walk that never stops, and reports the failures that this walk
meets before it (`root?_first_marker`).
-/

namespace SiteSurvey

/-- The directory at which an event happens. -/
def Event.path : Event → Path
  | level path _ => path
  | failure path _ => path

/-- What an observer of a walk is told: the directories that cannot be listed, with the reasons. -/
def failures (events : List Event) : List (Path × AccessError) :=
  events.filterMap fun
    | .level _ _ => none
    | .failure path error => some (path, error)

namespace Survey

/-- Whether an event is a level with a file of the marker's name. -/
def holdsMarker : Event → Bool
  | .level _ files => files.contains projectMarker
  | .failure _ _ => false

/-- How the search for a project root goes on after a level. -/
def seekMarker (_ : Path) (files : List String) : Choice :=
  if files.contains projectMarker then .stop else .descend

theorem stops_seekMarker : Event.stops seekMarker = holdsMarker := by
  funext event
  cases event with
  | level path files =>
    rw [Event.stops, seekMarker, holdsMarker]
    split_ifs with h
    · rw [h]
      rfl
    · rw [Bool.not_eq_true] at h
      rw [h]
      rfl
  | failure path error => rfl

theorem seekMarker_of_ne_stop (path : Path) (files : List String)
    (h : seekMarker path files ≠ .stop) : Choice.descend = seekMarker path files := by
  unfold seekMarker at h ⊢
  split_ifs at h ⊢ with hm
  · exact absurd rfl h
  · rfl

section Search

variable (view : FileView) (options : Options) (path : Path)

/-- What the search for a project root would meet if nothing stopped it. -/
def searchEvents : List Event :=
  walkAll view options.ignored.ignores options.projectDepth path

theorem rootTrace_eq :
    rootTrace view options path =
      ⟨upToFirst holdsMarker (searchEvents view options path),
        (searchEvents view options path).any holdsMarker⟩ := by
  have h : rootTrace view options path =
      (walk view options.ignored.ignores (fun _ _ => .descend) options.projectDepth path).cut
        (Event.stops seekMarker) :=
    walk_eq_cut (fun _ _ => by decide) seekMarker_of_ne_stop options.projectDepth path
  rw [h, stops_seekMarker]
  rfl

theorem root?_eq_find? :
    root? view options path =
      ((searchEvents view options path).find? holdsMarker).map Event.path := by
  rw [root?, rootTrace_eq]
  rcases hf : (searchEvents view options path).find? holdsMarker with _ | event
  · have hany : (searchEvents view options path).any holdsMarker = false := by
      rw [List.find?_eq_none] at hf
      simpa using hf
    simp [stopLevel?, hany]
  · have hmarker := List.find?_some hf
    have hany : (searchEvents view options path).any holdsMarker = true :=
      List.any_eq_true.2 ⟨event, List.mem_of_find?_eq_some hf, hmarker⟩
    have hlast : (upToFirst holdsMarker (searchEvents view options path)).getLast? =
        some event := by
      rw [upToFirst, hf]
      exact List.getLast?_concat
    cases event with
    | level level files => simp [stopLevel?, hany, hlast, Event.path]
    | failure level error => simp [holdsMarker] at hmarker

/-- Levels with the marker are no failures, so the failures before the first one are all. -/
theorem failures_upToFirst (events : List Event) :
    failures (upToFirst holdsMarker events) = failures (events.takeWhile (!holdsMarker ·)) := by
  rw [failures, failures, upToFirst, List.filterMap_append]
  rcases hf : events.find? holdsMarker with _ | event
  · simp
  · have hmarker := List.find?_some hf
    cases event with
    | level level files => simp
    | failure level error => simp [holdsMarker] at hmarker

theorem rootDiagnostics_eq :
    rootDiagnostics view options path = (failures (rootTrace view options path).events).map
      fun failure => .unreadable failure.1 failure.2.message := by
  rw [rootDiagnostics, failures, List.map_filterMap]
  congr 1
  funext event
  cases event <;> rfl

end Search

/-- The root lies at or below the path, and its listing has the marker. -/
theorem exists_reaches_of_root? {view : FileView} {options : Options} {path root : Path}
    (h : root? view options path = some root) :
    ∃ names listing,
      Reaches view options.ignored.ignores (fun _ _ => .descend) options.projectDepth path names ∧
        root = path.place names ∧ view.list root = .ok listing ∧
          projectMarker ∈ listing.files := by
  rw [root?_eq_find?] at h
  obtain ⟨event, hevent, rfl⟩ := Option.map_eq_some_iff.1 h
  have hmarker := List.find?_some hevent
  cases event with
  | failure level error => cases hmarker
  | level level files =>
    obtain ⟨names, listing, hnames, hlevel, hl, rfl⟩ :=
      exists_listing_of_mem_events (List.mem_of_find?_eq_some hevent)
    exact ⟨names, listing, hnames, hlevel, hl, by simpa [holdsMarker] using hmarker⟩

/--
The root that the search finds is the first level with the marker in the walk that never stops, and
none if that walk meets no such level. The search is told of the failures before that level only.
-/
theorem root?_first_marker (view : FileView) (options : Options) (path : Path) :
    (root? view options path = none ↔ ∀ level files,
        .level level files ∈ searchEvents view options path → projectMarker ∉ files) ∧
      root? view options path =
        ((searchEvents view options path).find? holdsMarker).map Event.path ∧
      failures (rootTrace view options path).events =
        failures ((searchEvents view options path).takeWhile (!holdsMarker ·)) ∧
      rootDiagnostics view options path =
        (failures ((searchEvents view options path).takeWhile (!holdsMarker ·))).map
          fun failure => .unreadable failure.1 failure.2.message := by
  have hfail : failures (rootTrace view options path).events =
      failures ((searchEvents view options path).takeWhile (!holdsMarker ·)) := by
    rw [rootTrace_eq]
    exact failures_upToFirst _
  refine ⟨?_, root?_eq_find? .., hfail, by rw [rootDiagnostics_eq, hfail]⟩
  rw [root?_eq_find?, Option.map_eq_none_iff, List.find?_eq_none]
  constructor
  · intro h level files hmem
    simpa [holdsMarker] using h _ hmem
  · intro h event hmem
    cases event with
    | level level files => simpa [holdsMarker] using h level files hmem
    | failure level error => simp [holdsMarker]

end Survey

end SiteSurvey
