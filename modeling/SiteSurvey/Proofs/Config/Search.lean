import SiteSurvey.Proofs.Config.Patterns
import SiteSurvey.Proofs.Disk.Resolution

/-!
# The nearest configuration decides

The search for a configuration goes from a directory to its ancestors. It ends in the first one that
has the file or, without the file, holds a repository (`Stops`), and nothing above that matters
(`findAmong?_congr`). The file that is found is the only one that is read, and it must be sound
(`load_eq_ok_iff`): neither defaults nor a configuration farther up stand in for it.
-/

namespace SiteSurvey.Config

/-! ## Directories on the way -/

section Directories

variable (view : DiskView) (directory : Path)

/-- A file of the proper name is in the directory, itself or through links. -/
def HasFile : Prop :=
  view.isFile (directory.join fileName) = true

/-- Something in the directory marks it as the top of a repository. -/
def HasMarker : Prop :=
  view.isPresent (directory.join repositoryMarker) = true

/-- The search does not go above the directory. -/
def Stops : Prop :=
  HasFile view directory ∨ HasMarker view directory

instance : Decidable (HasFile view directory) :=
  inferInstanceAs (Decidable (_ = true))

instance : Decidable (HasMarker view directory) :=
  inferInstanceAs (Decidable (_ = true))

/-- Two views show a search the same in the directory: the file, and without it the marker. -/
structure SearchedAlike (view' : DiskView) : Prop where
  hasFile_iff : HasFile view' directory ↔ HasFile view directory
  hasMarker_iff : ¬ HasFile view directory → (HasMarker view' directory ↔ HasMarker view directory)

theorem searchedAlike_iff (view' : DiskView) :
    SearchedAlike view directory view' ↔
      (HasFile view' directory ↔ HasFile view directory) ∧
        (¬ HasFile view directory → (HasMarker view' directory ↔ HasMarker view directory)) :=
  ⟨fun h => ⟨h.1, h.2⟩, fun h => ⟨h.1, h.2⟩⟩

instance (view' : DiskView) : Decidable (SearchedAlike view directory view') :=
  decidable_of_iff _ (searchedAlike_iff view directory view').symm

end Directories

variable {view view' : DiskView} {directory : Path}

/-! ## Searching -/

theorem findAmong?_of_hasFile (h : HasFile view directory) (above : List Path) :
    findAmong? view (directory :: above) = some (directory.join fileName) :=
  if_pos h

theorem findAmong?_of_hasMarker (hfile : ¬ HasFile view directory)
    (hmarker : HasMarker view directory) (above : List Path) :
    findAmong? view (directory :: above) = none :=
  (if_neg hfile).trans (if_pos hmarker)

theorem findAmong?_of_not_stops (h : ¬ Stops view directory) (above : List Path) :
    findAmong? view (directory :: above) = findAmong? view above :=
  (if_neg fun hfile => h (Or.inl hfile)).trans (if_neg fun hmarker => h (Or.inr hmarker))

theorem findAmong?_append {nearer : List Path} (h : ∀ other ∈ nearer, ¬ Stops view other)
    (above : List Path) : findAmong? view (nearer ++ above) = findAmong? view above := by
  induction nearer with
  | nil => rfl
  | cons first nearer ih =>
    rw [List.forall_mem_cons] at h
    rw [List.cons_append, findAmong?_of_not_stops h.1, ih h.2]

theorem findAmong?_eq_some_iff {directories : List Path} {path : Path} :
    findAmong? view directories = some path ↔
      ∃ nearer directory above, directories = nearer ++ directory :: above ∧
        path = directory.join fileName ∧ HasFile view directory ∧
        ∀ other ∈ nearer, ¬ Stops view other := by
  constructor
  · intro h
    induction directories with
    | nil => cases h
    | cons first directories ih =>
      by_cases hfile : HasFile view first
      · rw [findAmong?_of_hasFile hfile] at h
        cases h
        exact ⟨[], first, directories, rfl, rfl, hfile, List.forall_mem_nil _⟩
      by_cases hmarker : HasMarker view first
      · rw [findAmong?_of_hasMarker hfile hmarker] at h
        cases h
      · have hfirst : ¬ Stops view first := not_or.2 ⟨hfile, hmarker⟩
        rw [findAmong?_of_not_stops hfirst] at h
        obtain ⟨nearer, found, above, rfl, hpath, hfound, hnearer⟩ := ih h
        exact ⟨first :: nearer, found, above, rfl, hpath, hfound,
          List.forall_mem_cons.2 ⟨hfirst, hnearer⟩⟩
  · rintro ⟨nearer, directory, above, rfl, rfl, hfile, hnearer⟩
    rw [findAmong?_append hnearer, findAmong?_of_hasFile hfile]

/-- What lies farther up matters only where the search does not stop. -/
theorem findAmong?_cons_congr (h : SearchedAlike view directory view') {above : List Path}
    (habove : ¬ Stops view directory → findAmong? view' above = findAmong? view above) :
    findAmong? view' (directory :: above) = findAmong? view (directory :: above) := by
  by_cases hfile : HasFile view directory
  · rw [findAmong?_of_hasFile hfile, findAmong?_of_hasFile (h.hasFile_iff.2 hfile)]
  have hfile' : ¬ HasFile view' directory := fun hfile' => hfile (h.hasFile_iff.1 hfile')
  by_cases hmarker : HasMarker view directory
  · rw [findAmong?_of_hasMarker hfile hmarker,
      findAmong?_of_hasMarker hfile' ((h.hasMarker_iff hfile).2 hmarker)]
  · have hmarker' : ¬ HasMarker view' directory := fun hmarker' =>
      hmarker ((h.hasMarker_iff hfile).1 hmarker')
    have hstops : ¬ Stops view directory := not_or.2 ⟨hfile, hmarker⟩
    rw [findAmong?_of_not_stops hstops, findAmong?_of_not_stops (not_or.2 ⟨hfile', hmarker'⟩),
      habove hstops]

theorem findAmong?_congr {nearer : List Path} (above : List Path) (hstops : Stops view directory)
    (halike : ∀ other ∈ nearer ++ [directory], SearchedAlike view other view') :
    findAmong? view' (nearer ++ directory :: above) =
      findAmong? view (nearer ++ directory :: above) := by
  induction nearer with
  | nil =>
    have hdirectory := halike directory List.mem_cons_self
    exact findAmong?_cons_congr hdirectory fun h => absurd hstops h
  | cons first nearer ih =>
    rw [List.cons_append, List.forall_mem_cons] at halike
    exact findAmong?_cons_congr halike.1 fun _ => ih halike.2

/-! ## Loading -/

theorem load_of_find?_eq_none {start : Path} (h : find? view start = none) :
    load view start = .ok {} := by
  rw [load, h]

/-- Only the file that is found is read, and nothing stands in for it. -/
theorem load_eq_ok_iff {start path : Path} (h : find? view start = some path) {loaded : Loaded} :
    load view start = .ok loaded ↔
      loaded.fromFile = true ∧ ∃ text, view.read path = .ok text ∧
        read text = .ok loaded.config ∧
        ∀ pattern ∈ loaded.config.ignores, Glob.IsSound pattern := by
  rw [load, h, ← ofFile_eq_ok_iff]
  dsimp only
  rcases ofFile view path with error | config
  · exact iff_of_false nofun fun h => nomatch h.2
  · obtain ⟨config', fromFile⟩ := loaded
    constructor
    · intro h
      cases h
      exact ⟨rfl, rfl⟩
    · rintro ⟨rfl, h⟩
      cases h
      rfl

theorem load_congr {start : Path} (hfind : find? view' start = find? view start)
    (hread : ∀ path, find? view start = some path → view'.read path = view.read path) :
    load view' start = load view start := by
  rw [load, load, hfind]
  cases hpath : find? view start with
  | none => rfl
  | some path =>
    dsimp only
    rw [ofFile, ofFile, hread path hpath]

/-! ## The nearest configuration -/

/--
On every disk the search looks at a directory and at its ancestors in turn. What it finds is the
file of the nearest of them that has one, unless one that is nearer holds a repository. Without a
file the defaults hold; a file that is found must be readable, describe a configuration and have
sound patterns, or there is no configuration. Nothing above the directory where the search stops
changes what is found, and nothing but the file that is found what is loaded.
-/
theorem nearest_file_decides :
    (∀ (disk : Disk) working path,
      ((disk.view working).isFile path = true ↔
        ∃ place text, disk.lookup working path = .ok (place, .file text)) ∧
      ((disk.view working).isPresent path = true ↔
        ∃ found, disk.lookup working path = .ok found)) ∧
    ∀ (view : DiskView) (start : Path),
      start.ancestors = start :: (start.parent?.map Path.ancestors).getD [] ∧
      (∀ path, find? view start = some path ↔
        ∃ nearer directory above, start.ancestors = nearer ++ directory :: above ∧
          path = directory.join fileName ∧ HasFile view directory ∧
          ∀ other ∈ nearer, ¬ HasFile view other ∧ ¬ HasMarker view other) ∧
      (find? view start = none → load view start = .ok ⟨⟨[], 3, 2, ["."]⟩, false⟩) ∧
      (∀ path, find? view start = some path → ∀ loaded, load view start = .ok loaded ↔
        loaded.fromFile = true ∧ ∃ text, view.read path = .ok text ∧
          read text = .ok loaded.config ∧
          ∀ pattern ∈ loaded.config.ignores, Glob.IsSound pattern) ∧
      ∀ view' : DiskView,
        (∀ nearer directory above, start.ancestors = nearer ++ directory :: above →
          HasFile view directory ∨ HasMarker view directory →
          (∀ other ∈ nearer ++ [directory], SearchedAlike view other view') →
          find? view' start = find? view start) ∧
        (find? view' start = find? view start →
          (∀ path, find? view start = some path → view'.read path = view.read path) →
          load view' start = load view start) := by
  refine ⟨fun disk working path =>
    ⟨disk.isFile_view_iff working path, disk.isPresent_view_iff working path⟩,
    fun view start => ⟨Path.ancestors_eq start, fun path => ?_, load_of_find?_eq_none,
      fun _ h _ => load_eq_ok_iff h, fun view' => ⟨?_, load_congr⟩⟩⟩
  · simp only [find?, findAmong?_eq_some_iff, Stops, not_or]
  · intro nearer directory above hancestors hstops halike
    rw [find?, find?, hancestors]
    exact findAmong?_congr above hstops halike

/-- A repository with a configuration, the directory `app` in it that has a directory of this name,
and a faulty configuration above. -/
def vaultEntries : List (Place × Entry) :=
  [(["repo"], .dir), (["repo", repositoryMarker], .dir), (["repo", "app"], .dir),
    (["repo", "app", fileName], .dir),
    (["repo", fileName], .file (some "\x7b\"appDepth\": 4\x7d")),
    ([fileName], .file (some "\x7b"))]

/-- The configuration of the repository decides, also without the one above; without its own there
are the defaults. -/
theorem nearest_file_decides_vault :
    let vault : DiskView := Disk.view ⟨⟨vaultEntries, by decide⟩⟩ []
    let alone : DiskView := Disk.view ⟨⟨vaultEntries.dropLast, by decide⟩⟩ []
    let bare : DiskView := Disk.view ⟨⟨vaultEntries.eraseIdx 4, by decide⟩⟩ []
    let found : Path := ⟨"repo/.routescoutrc.json"⟩
    find? vault ⟨"repo/app"⟩ = some found ∧
      load vault ⟨"repo/app"⟩ = .ok ⟨{ appDepth := 4 }, true⟩ ∧
      load alone ⟨"repo/app"⟩ = load vault ⟨"repo/app"⟩ ∧
      find? bare ⟨"repo/app"⟩ = none ∧ load bare ⟨"repo/app"⟩ = .ok ⟨{}, false⟩ := by
  intro vault alone bare found
  obtain ⟨-, hall⟩ := nearest_file_decides
  obtain ⟨-, hfind, -, hload, hframe⟩ := hall vault ⟨"repo/app"⟩
  have hancestors : Path.ancestors ⟨"repo/app"⟩ = [⟨"repo/app"⟩] ++ ⟨"repo"⟩ :: [⟨""⟩] := by
    decide
  have hfound : find? vault ⟨"repo/app"⟩ = some found :=
    (hfind found).2 ⟨_, _, _, hancestors, by decide, by decide +kernel, by decide +kernel⟩
  obtain ⟨hsearch, hread⟩ := hframe alone
  have hsame := hsearch _ _ _ hancestors (by decide +kernel) (by decide +kernel)
  have hbare : find? bare ⟨"repo/app"⟩ = none := by decide +kernel
  have hloaded : load vault ⟨"repo/app"⟩ = .ok ⟨{ appDepth := 4 }, true⟩ :=
    (hload found hfound _).2 ⟨rfl, "\x7b\"appDepth\": 4\x7d", by decide +kernel,
      by decide +kernel, List.forall_mem_nil _⟩
  refine ⟨hfound, hloaded, ?_, hbare, (hall bare _).2.2.1 hbare⟩
  refine hread hsame fun path hpath => ?_
  rw [hfound] at hpath
  cases hpath
  decide +kernel

end SiteSurvey.Config
