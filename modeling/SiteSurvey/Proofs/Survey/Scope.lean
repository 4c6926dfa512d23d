import SiteSurvey.Proofs.Survey.Findings
import SiteSurvey.Proofs.Survey.Root

/-!
# The scope of a survey

A survey looks at the directories below a path that no ignored name leads to, and there at the route
files and admin modules. Whatever else two views differ in, the survey is the same
(`ofPaths_congr_scope`).
-/

namespace SiteSurvey.Survey

/-! ## Directories and files in scope -/

/--
A directory in scope, by the names that lead to it: each is listed in the directory before it, and
none of them is ignored. The root itself is in scope whatever its name is.
-/
structure InScope (view : FileView) (ignored : IgnoreSet) (root : Path) (names : List String) :
    Prop where
  listed : ∀ k (h : k < names.length), ∃ listing,
    view.list (root.place (names.take k)) = .ok listing ∧ names[k] ∈ listing.dirs
  kept : ∀ name ∈ names, ignored.ignores name = false

/--
A file of a directory that is mined: a route file, an admin module by its name, or a module of a
package of admin modules.
-/
def IsMined (view : FileView) (directory : Path) (name : String) : Prop :=
  ∃ listing, view.list directory = .ok listing ∧ name ∈ listing.files ∧
    (name = routeFileName ∨ name = adminFileName ∨
      ".py".toList.isSuffixOf name.toList ∧ directory.fileName? = some adminPackageName ∧
        packageMarker ∈ listing.files)

section Scope

variable {view : FileView} {ignored : IgnoreSet} {choose : Path → List String → Choice}
  {depth : Nat} {root level : Path} {names more : List String}

/-- A walk from a directory in scope stays in scope. -/
theorem InScope.append_reaches (h : InScope view ignored root names)
    (hmore : Reaches view ignored.ignores choose depth (root.place names) more) :
    InScope view ignored root (names ++ more) := by
  refine ⟨fun k hk => ?_, fun name hname => ?_⟩
  · by_cases hlt : k < names.length
    · rw [List.take_append_of_le_length (Nat.le_of_lt hlt), List.getElem_append_left hlt]
      exact h.listed k hlt
    · have hle : names.length ≤ k := Nat.le_of_not_lt hlt
      rw [List.length_append] at hk
      obtain ⟨listing, hl, hmem, -⟩ := hmore.enters (k - names.length) (by omega)
      rw [List.take_append, List.take_of_length_le hle, Path.place_append,
        List.getElem_append_right hle]
      exact ⟨listing, hl, hmem⟩
  · rcases List.mem_append.1 hname with hname | hname
    · exact h.kept name hname
    · obtain ⟨k, hk, rfl⟩ := List.getElem_of_mem hname
      obtain ⟨_, -, -, hkept, -⟩ := hmore.enters k hk
      exact hkept

theorem inScope_nil (view : FileView) (ignored : IgnoreSet) (root : Path) :
    InScope view ignored root [] :=
  ⟨fun _ h => absurd h (Nat.not_lt_zero _), fun _ h => absurd h List.not_mem_nil⟩

theorem isMined_of_mem_adminFiles {listing : Listing} (hl : view.list level = .ok listing)
    {name : String} (h : name ∈ adminFiles level listing.files) : IsMined view level name := by
  unfold adminFiles isAdminPackage at h
  split_ifs at h with hpackage hfile
  · obtain ⟨hmem, hsuffix⟩ := List.mem_filter.1 h
    simp only [Bool.and_eq_true, beq_iff_eq, List.contains_iff_mem] at hpackage
    exact ⟨listing, hl, hmem, Or.inr (Or.inr ⟨hsuffix, hpackage⟩)⟩
  · obtain rfl := List.mem_singleton.1 h
    exact ⟨listing, hl, by simpa using hfile, Or.inr (Or.inl rfl)⟩
  · exact absurd h List.not_mem_nil

end Scope

/-! ## Nothing else counts -/

/-- The directories in scope are listed alike, and the mined files there read alike. -/
structure AlikeInScope (ignored : IgnoreSet) (root : Path) (first second : FileView) : Prop where
  list_eq : ∀ names, InScope first ignored root names →
    first.list (root.place names) = second.list (root.place names)
  read_eq : ∀ names, InScope first ignored root names →
    ∀ name, IsMined first (root.place names) name →
      first.read ((root.place names).join name) = second.read ((root.place names).join name)

theorem findAt_congr_mined {first second : FileView} {level : Path} {listing : Listing}
    (hl : first.list level = .ok listing)
    (h : ∀ name, IsMined first level name →
      first.read (level.join name) = second.read (level.join name)) :
    findAt first (.level level listing.files) = findAt second (.level level listing.files) := by
  have hroutes (hmem : routeFileName ∈ listing.files) : IsMined first level routeFileName :=
    ⟨listing, hl, hmem, Or.inl rfl⟩
  rw [findAt, findAt, findLevelRoutes_congr fun hmem => h routeFileName (hroutes hmem),
    findLevelModels_congr fun name hname => h name (isMined_of_mem_adminFiles hl hname)]

namespace AlikeInScope

variable {first second : FileView} {options : Options} {path : Path} {names : List String}
  (hview : AlikeInScope options.ignored path first second)
include hview

theorem walk_eq (h : InScope first options.ignored path names)
    (choose : Path → List String → Choice) (depth : Nat) :
    walk first options.ignored.ignores choose depth (path.place names) =
      walk second options.ignored.ignores choose depth (path.place names) := by
  refine walk_congr fun more hmore => ?_
  rw [← Path.place_append]
  exact hview.list_eq _ (h.append_reaches hmore)

theorem rootTrace_eq : rootTrace first options path = rootTrace second options path :=
  hview.walk_eq (inScope_nil ..) _ _

theorem appEvents_eq (h : InScope first options.ignored path names) :
    appEvents first options (path.place names) = appEvents second options (path.place names) :=
  congrArg Trace.events (hview.walk_eq h _ _)

theorem findAll_eq (h : InScope first options.ignored path names) :
    findAll first (appEvents first options (path.place names)) =
      findAll second (appEvents second options (path.place names)) := by
  rw [← hview.appEvents_eq h]
  refine findAll_congr fun event hevent => ?_
  cases event with
  | failure level error => rfl
  | level level files =>
    obtain ⟨more, listing, hmore, rfl, hl, rfl⟩ := exists_listing_of_mem_events hevent
    rw [← Path.place_append] at hl ⊢
    exact findAt_congr_mined hl (hview.read_eq _ (h.append_reaches hmore))

theorem ofPath_eq : ofPath first options path = ofPath second options path := by
  have hroot : root? first options path = root? second options path := by
    rw [root?, root?, hview.rootTrace_eq]
  rw [ofPath, ofPath, rootDiagnostics, rootDiagnostics, hview.rootTrace_eq, ← hroot]
  rcases h : root? first options path with _ | root
  · rfl
  · obtain ⟨names, -, hnames, rfl, -⟩ := exists_reaches_of_root? h
    have hscope : InScope first options.ignored path names :=
      (inScope_nil ..).append_reaches hnames
    dsimp only
    rw [ofRoot, ofRoot, hview.findAll_eq hscope]

end AlikeInScope

/--
Two views that list the directories in scope alike, and read the mined files there alike, give the
same survey of a path, with the same diagnostics.
-/
theorem ofPaths_congr_scope {first second : FileView} {options : Options} {path : Path}
    (hview : AlikeInScope options.ignored path first second) :
    ofPaths first options [path] = ofPaths second options [path] := by
  rw [ofPaths, ofPaths, hview.ofPath_eq]
  rfl

/-- A project whose ignored directories and whose files that are not mined hold anything. -/
def quarry (other : String) (below : Except AccessError Listing) : FileView where
  list path :=
    match path.text with
    | "q" => .ok ⟨["manage.py", "urls.py"], ["app", "tests", "usr"]⟩
    | "q/app" => .ok ⟨["admin.py", "urls.py", "views.py"], []⟩
    | "q/tests" | "q/usr" => below
    | _ => .error (.absent path)
  read path :=
    match path.text with
    | "q/urls.py" => .ok "app_name='q'\nx = [p('', v, name='pit')]"
    | "q/app/admin.py" => .ok "from django.contrib import admin\nadmin.site.register(Stone)"
    | "q/app/urls.py" => .error (.denied path)
    | _ => .ok other

/-- Ignores what begins with a `u`; a route file does, but is no directory. -/
def ignoringU : Options :=
  { ignored := ⟨[[.char 'u', .anyText]]⟩ }

theorem eq_of_inScope_quarry {other : String} {below : Except AccessError Listing}
    {names : List String} (h : InScope (quarry other below) ignoringU.ignored ⟨"q"⟩ names) :
    names = [] ∨ names = ["app"] := by
  rcases names with _ | ⟨name, names⟩
  · exact Or.inl rfl
  obtain ⟨listing, hl, hname⟩ := h.listed 0 (Nat.succ_pos _)
  cases hl
  have happ : name = "app" := by
    have hkept := h.kept name List.mem_cons_self
    simp only [List.getElem_cons_zero, List.mem_cons, List.not_mem_nil, or_false] at hname
    rcases hname with rfl | rfl | rfl
    · rfl
    · exact absurd hkept (by decide)
    · exact absurd hkept (by decide)
  subst happ
  rcases names with _ | ⟨name, names⟩
  · exact Or.inr rfl
  · obtain ⟨listing, hl, hname⟩ := h.listed 1 (by simp)
    cases hl
    exact absurd hname List.not_mem_nil

theorem alikeInScope_quarry (other other' : String) (below below' : Except AccessError Listing) :
    AlikeInScope ignoringU.ignored ⟨"q"⟩ (quarry other below) (quarry other' below') where
  list_eq names h := by
    rcases eq_of_inScope_quarry h with rfl | rfl
    · rfl
    · rfl
  read_eq := by
    rintro names h name ⟨listing, hl, hmem, hkind⟩
    rcases eq_of_inScope_quarry h with rfl | rfl
    · cases hl
      simp only [List.mem_cons, List.not_mem_nil, or_false] at hmem
      rcases hmem with rfl | rfl
      · exact absurd hkind (by decide)
      · rfl
    · cases hl
      simp only [List.mem_cons, List.not_mem_nil, or_false] at hmem
      rcases hmem with rfl | rfl | rfl
      · rfl
      · rfl
      · exact absurd hkind (by decide)

theorem ofPaths_congr_scope_quarry :
    (quarry "" (.ok ⟨["urls.py"], ["app"]⟩)).read ⟨"q/manage.py"⟩ ≠
        (quarry "x" (.error .notText)).read ⟨"q/manage.py"⟩ ∧
      (quarry "" (.ok ⟨["urls.py"], ["app"]⟩)).list ⟨"q/usr"⟩ ≠
        (quarry "x" (.error .notText)).list ⟨"q/usr"⟩ ∧
      ofPaths (quarry "" (.ok ⟨["urls.py"], ["app"]⟩)) ignoringU [⟨"q"⟩] =
        ofPaths (quarry "x" (.error .notText)) ignoringU [⟨"q"⟩] :=
  ⟨by decide, by decide, ofPaths_congr_scope (alikeInScope_quarry ..)⟩

end SiteSurvey.Survey
