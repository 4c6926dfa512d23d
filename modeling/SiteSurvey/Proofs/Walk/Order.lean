import Mathlib.Data.List.Nodup
import SiteSurvey.Proofs.Path
import SiteSurvey.Proofs.Walk.Truncation

/-!
# The order of a walk

A directory below the root of a walk is given by the names that lead to it. `Reaches` says which
directories a walk may come to and `Precedes` which of two comes first; `walk_course` says that a
walk meets exactly the reachable directories in this order, each once, up to the first level at
which the choice stops.
-/

namespace SiteSurvey

/-! ## Reachable directories -/

/-- Each listing names its directories once, by plain names. -/
def FileView.HasPlainListings (view : FileView) : Prop :=
  ∀ path listing, view.list path = .ok listing →
    listing.dirs.Nodup ∧ ∀ name ∈ listing.dirs, Path.IsPlain name

section Reach

variable (view : FileView) (ignored : String → Bool) (choose : Path → List String → Choice)

/-- A walk that is at a path may go on to a directory there. -/
def Enters (path : Path) (name : String) : Prop :=
  ∃ listing, view.list path = .ok listing ∧ name ∈ listing.dirs ∧ ignored name = false ∧
    choose path listing.files = .descend

/-- A walk of some depth from a root may come to the directory that the names lead to. -/
structure Reaches (depth : Nat) (root : Path) (names : List String) : Prop where
  length_le : names.length ≤ depth
  enters : ∀ k (h : k < names.length),
    Enters view ignored choose (root.place (names.take k)) names[k]

/-- The choice stops at the level of a path. -/
def StopsAt (path : Path) : Prop :=
  ∃ listing, view.list path = .ok listing ∧ choose path listing.files = .stop

theorem reaches_nil (depth : Nat) (root : Path) : Reaches view ignored choose depth root [] :=
  ⟨Nat.zero_le _, fun _ h => absurd h (Nat.not_lt_zero _)⟩

theorem reaches_cons_iff (depth : Nat) (root : Path) (name : String) (names : List String) :
    Reaches view ignored choose (depth + 1) root (name :: names) ↔
      Enters view ignored choose root name ∧
        Reaches view ignored choose depth (root.join name) names := by
  constructor
  · rintro ⟨hlength, h⟩
    refine ⟨h 0 (by simp), Nat.le_of_succ_le_succ hlength, fun k hk => ?_⟩
    exact h (k + 1) (Nat.succ_lt_succ hk)
  · rintro ⟨hname, hlength, h⟩
    refine ⟨Nat.succ_le_succ hlength, fun k hk => ?_⟩
    cases k with
    | zero => exact hname
    | succ k => exact h k (Nat.lt_of_succ_lt_succ hk)

theorem stops_eventAt_iff (path : Path) :
    (eventAt view path).stops choose = true ↔ StopsAt view choose path := by
  unfold StopsAt eventAt
  rcases view.list path with error | listing
  · simp [Event.stops]
  · simp [Event.stops]

variable {view ignored choose}

theorem Reaches.isPlain (hview : view.HasPlainListings) {depth : Nat} {root : Path}
    {names : List String} (h : Reaches view ignored choose depth root names) :
    ∀ name ∈ names, Path.IsPlain name := by
  intro name hname
  obtain ⟨k, hk, rfl⟩ := List.getElem_of_mem hname
  obtain ⟨listing, hl, hmem, -⟩ := h.enters k hk
  exact (hview _ listing hl).2 _ hmem

end Reach

/-! ## Which directory comes first -/

/--
Below a root, the directory that the first names lead to comes before the one that the other names
lead to: it is above it, or the two lie in or under directories that are listed in this order.
-/
inductive Precedes (view : FileView) : Path → List String → List String → Prop where
  | above {root : Path} {name : String} {names : List String} :
    Precedes view root [] (name :: names)
  | beside {root : Path} {listing : Listing} {first later : String} {names names' : List String}
    (hl : view.list root = .ok listing) (h : [first, later].Sublist listing.dirs) :
    Precedes view root (first :: names) (later :: names')
  | inside {root : Path} {name : String} {names names' : List String}
    (h : Precedes view (root.join name) names names') :
    Precedes view root (name :: names) (name :: names')

theorem not_sublist_swap {α : Type} {xs : List α} (hxs : xs.Nodup) {x y : α}
    (h : [x, y].Sublist xs) : ¬ [y, x].Sublist xs := by
  induction xs with
  | nil => exact absurd (h.subset (List.mem_cons_self ..)) List.not_mem_nil
  | cons z xs ih =>
    obtain ⟨hz, hxs⟩ := List.nodup_cons.1 hxs
    intro h'
    cases h with
    | cons _ h =>
      cases h' with
      | cons _ h' => exact ih hxs h h'
      | cons_cons _ _ => exact hz (h.subset (by simp))
    | cons_cons _ h =>
      cases h' with
      | cons _ h' => exact hz (h'.subset (by simp))
      | cons_cons _ _ => exact hz (h.subset (by simp))

theorem Precedes.asymm {view : FileView} (hview : view.HasPlainListings) {root : Path}
    {names names' : List String} (h : Precedes view root names names') :
    ¬ Precedes view root names' names := by
  have irrefl {root : Path} {listing : Listing} (hl : view.list root = .ok listing)
      (name : String) : ¬ [name, name].Sublist listing.dirs :=
    List.nodup_iff_sublist.1 (hview root listing hl).1 name
  induction h with
  | above => rintro ⟨⟩
  | beside hl h =>
    rintro (_ | ⟨hl', h'⟩ | _)
    · rw [hl] at hl'
      cases hl'
      exact not_sublist_swap (hview _ _ hl).1 h h'
    · exact irrefl hl _ h
  | inside h ih =>
    rintro (_ | ⟨hl', h'⟩ | h')
    · exact irrefl hl' _ h'
    · exact ih h'

theorem Precedes.ne {view : FileView} (hview : view.HasPlainListings) {root : Path}
    {names names' : List String} (h : Precedes view root names names') : names ≠ names' := by
  rintro rfl
  exact h.asymm hview h

/-! ## The directories of an unstopped walk in order -/

section Addresses

variable (view : FileView) (ignored : String → Bool) (choose : Path → List String → Choice)

/-- The names that lead to the directories that a walk comes to if it is not stopped. -/
def addresses : (depth : Nat) → (root : Path) → List (List String)
  | 0, _ => [[]]
  | depth + 1, root =>
    [] :: (entered view ignored choose (depth + 1) root).flatMap fun name =>
      (addresses depth (root.join name)).map (name :: ·)

theorem mem_addresses_iff (depth : Nat) (root : Path) (names : List String) :
    names ∈ addresses view ignored choose depth root ↔
      Reaches view ignored choose depth root names := by
  induction depth generalizing root names with
  | zero =>
    rw [addresses, List.mem_singleton]
    constructor
    · rintro rfl
      exact reaches_nil ..
    · intro h
      exact List.eq_nil_of_length_eq_zero (Nat.le_zero.1 h.length_le)
  | succ depth ih =>
    rw [addresses, List.mem_cons, List.mem_flatMap]
    cases names with
    | nil => exact iff_of_true (Or.inl rfl) (reaches_nil ..)
    | cons name names =>
      rw [reaches_cons_iff, ← ih (root.join name) names]
      simp [mem_entered_iff, Enters]

theorem pairwise_addresses (depth : Nat) (root : Path) :
    (addresses view ignored choose depth root).Pairwise (Precedes view root) := by
  induction depth generalizing root with
  | zero => exact List.pairwise_singleton _ _
  | succ depth ih =>
    rw [addresses, List.pairwise_cons, List.pairwise_flatMap]
    refine ⟨?_, fun name _ => ?_, ?_⟩
    · intro names h
      obtain ⟨name, -, h⟩ := List.mem_flatMap.1 h
      obtain ⟨names, -, rfl⟩ := List.mem_map.1 h
      exact .above
    · rw [List.pairwise_map]
      exact (ih (root.join name)).imp .inside
    · rw [List.pairwise_iff_forall_sublist]
      intro first later h x hx y hy
      obtain ⟨names, -, rfl⟩ := List.mem_map.1 hx
      obtain ⟨names', -, rfl⟩ := List.mem_map.1 hy
      rcases hl : view.list root with error | listing
      · simp [entered, hl] at h
      · exact .beside hl (h.trans (entered_sublist view ignored choose hl))

/-- The choice that passes by the directories of a level where `choose` stops. -/
def unstopped (path : Path) (files : List String) : Choice :=
  if choose path files = .stop then .prune else choose path files

theorem unstopped_ne_stop (path : Path) (files : List String) :
    unstopped choose path files ≠ .stop := by
  unfold unstopped
  split_ifs with h
  · decide
  · exact h

theorem unstopped_of_ne_stop {path : Path} {files : List String} (h : choose path files ≠ .stop) :
    unstopped choose path files = choose path files :=
  if_neg h

theorem entered_unstopped (depth : Nat) (path : Path) :
    entered view ignored (unstopped choose) depth path =
      entered view ignored choose depth path := by
  unfold entered
  rcases hl : view.list path with error | listing
  · cases depth <;> rfl
  · cases depth with
    | zero => rfl
    | succ depth =>
      dsimp only
      cases hc : choose path listing.files <;> simp [unstopped, hc]

theorem walk_unstopped_events (depth : Nat) (root : Path) :
    (walk view ignored (unstopped choose) depth root).events =
      (addresses view ignored choose depth root).map fun names =>
        eventAt view (root.place names) := by
  induction depth generalizing root with
  | zero =>
    rw [walk_events_eq (unstopped_ne_stop choose)]
    rfl
  | succ depth ih =>
    rw [walk_events_eq (unstopped_ne_stop choose), entered_unstopped, Nat.add_sub_cancel,
      addresses, List.map_cons, List.map_flatMap, Path.place_nil]
    congr 1
    refine List.flatMap_congr fun name _ => ?_
    rw [ih (root.join name), List.map_map]
    rfl

/-- The names that lead to the directories that a walk comes to, up to where it is stopped. -/
def visits (depth : Nat) (root : Path) : List (List String) :=
  upToFirst (fun names => (eventAt view (root.place names)).stops choose)
    (addresses view ignored choose depth root)

theorem walk_eq_visits (depth : Nat) (root : Path) :
    walk view ignored choose depth root =
      ⟨(visits view ignored choose depth root).map fun names => eventAt view (root.place names),
        (addresses view ignored choose depth root).any fun names =>
          (eventAt view (root.place names)).stops choose⟩ := by
  rw [walk_eq_cut (unstopped_ne_stop choose) fun _ _ h => unstopped_of_ne_stop choose h, Trace.cut,
    walk_unstopped_events, upToFirst_map, List.any_map]
  rfl

theorem pairwise_visits (depth : Nat) (root : Path) :
    (visits view ignored choose depth root).Pairwise (Precedes view root) :=
  (pairwise_addresses view ignored choose depth root).sublist (upToFirst_isPrefix _ _).sublist

variable {view ignored choose}

theorem Reaches.of_mem_visits {depth : Nat} {root : Path} {names : List String}
    (h : names ∈ visits view ignored choose depth root) :
    Reaches view ignored choose depth root names :=
  (mem_addresses_iff ..).1 ((upToFirst_isPrefix _ _).subset h)

theorem nodup_visits (hview : view.HasPlainListings) (depth : Nat) (root : Path) :
    ((visits view ignored choose depth root).map fun names =>
      (root.place names).parts).Nodup := by
  have hne : (visits view ignored choose depth root).Nodup :=
    (pairwise_visits view ignored choose depth root).imp fun h => h.ne hview
  refine hne.map_on fun names h names' h' e => ?_
  exact Path.place_parts_injective root ((Reaches.of_mem_visits h).isPlain hview)
    ((Reaches.of_mem_visits h').isPlain hview) e

/-- A level where the choice stops is the last one. -/
theorem visits_eq_append_of_stopsAt {depth : Nat} {root : Path} {names : List String}
    (h : names ∈ visits view ignored choose depth root)
    (hstop : StopsAt view choose (root.place names)) :
    ∃ before, visits view ignored choose depth root = before ++ [names] := by
  obtain ⟨before, hb, -⟩ := eq_append_of_mem_upToFirst _ h ((stops_eventAt_iff ..).2 hstop)
  exact ⟨before, hb⟩

theorem mem_visits_iff (hview : view.HasPlainListings) (depth : Nat) (root : Path)
    (names : List String) :
    names ∈ visits view ignored choose depth root ↔
      Reaches view ignored choose depth root names ∧
        ∀ earlier ∈ visits view ignored choose depth root, Precedes view root earlier names →
          ¬ StopsAt view choose (root.place earlier) := by
  constructor
  · refine fun h => ⟨.of_mem_visits h, fun earlier he hlt hstop => ?_⟩
    obtain ⟨before, hb⟩ := visits_eq_append_of_stopsAt he hstop
    have hpair := pairwise_visits view ignored choose depth root
    rw [hb] at h hpair
    rcases List.mem_append.1 h with h | h
    · exact hlt.asymm hview ((List.pairwise_append.1 hpair).2.2 names h earlier (by simp))
    · exact hlt.ne hview (List.mem_singleton.1 h).symm
  · rintro ⟨hreach, hstop⟩
    rcases mem_upToFirst_or _ ((mem_addresses_iff ..).2 hreach) with h | ⟨earlier, he, hs, hlt⟩
    · exact h
    · refine absurd ((stops_eventAt_iff ..).1 hs) (hstop earlier he ?_)
      exact List.pairwise_iff_forall_sublist.1 (pairwise_addresses ..) hlt

theorem walk_stopped_iff (depth : Nat) (root : Path) :
    (walk view ignored choose depth root).stopped = true ↔
      ∃ names ∈ visits view ignored choose depth root, StopsAt view choose (root.place names) := by
  rw [walk_eq_visits]
  dsimp only
  rw [List.any_eq_true]
  constructor
  · rintro ⟨names, h, hs⟩
    rcases mem_upToFirst_or _ h with h | ⟨earlier, he, hs', -⟩
    · exact ⟨names, h, (stops_eventAt_iff ..).1 hs⟩
    · exact ⟨earlier, he, (stops_eventAt_iff ..).1 hs'⟩
  · rintro ⟨names, h, hs⟩
    exact ⟨names, (upToFirst_isPrefix _ _).subset h, (stops_eventAt_iff ..).2 hs⟩

end Addresses

/-! ## The trace of a walk -/

/--
The directories that a walk comes to, by the names that lead to them: each reachable one once, in
order, up to the first level at which the choice stops.
-/
structure IsCourse (view : FileView) (ignored : String → Bool)
    (choose : Path → List String → Choice) (depth : Nat) (root : Path) (trace : Trace)
    (visited : List (List String)) : Prop where
  /-- A directory that cannot be listed is one failure, every other one a level with its files. -/
  events : trace.events = visited.map fun names => eventAt view (root.place names)
  once : (visited.map fun names => (root.place names).parts).Nodup
  ordered : visited.Pairwise (Precedes view root)
  mem_iff : ∀ names, names ∈ visited ↔ Reaches view ignored choose depth root names ∧
    ∀ earlier ∈ visited, Precedes view root earlier names →
      ¬ StopsAt view choose (root.place earlier)
  stopped_iff : trace.stopped = true ↔ ∃ names ∈ visited, StopsAt view choose (root.place names)
  last : ∀ names ∈ visited, StopsAt view choose (root.place names) →
    visited.getLast? = some names

theorem walk_course {view : FileView} (hview : view.HasPlainListings) (ignored : String → Bool)
    (choose : Path → List String → Choice) (depth : Nat) (root : Path) :
    ∃ visited, IsCourse view ignored choose depth root (walk view ignored choose depth root)
      visited := by
  refine ⟨visits view ignored choose depth root, by rw [walk_eq_visits],
    nodup_visits hview depth root, pairwise_visits .., mem_visits_iff hview depth root,
    walk_stopped_iff depth root, ?_⟩
  intro names h hstop
  obtain ⟨before, hb⟩ := visits_eq_append_of_stopsAt h hstop
  rw [hb, List.getLast?_concat]

/-- A small tree: one directory is barred, one is too deep and one lies behind the stop. -/
def orchard : FileView where
  list path :=
    match path.text with
    | "r" => .ok ⟨["a.py"], [".git", "barred", "fig", "plum", "quince"]⟩
    | "r/fig" => .ok ⟨[], ["leaf"]⟩
    | "r/fig/leaf" => .ok ⟨["b.py"], ["vein"]⟩
    | "r/plum" => .ok ⟨["manage.py"], ["stone"]⟩
    | "r/quince" => .ok ⟨[], []⟩
    | _ => .error (.denied path)
  read path := .error (.absent path)

theorem orchard_hasPlainListings : orchard.HasPlainListings := by
  intro path listing hl
  simp only [orchard] at hl
  split at hl <;> cases hl <;> decide

theorem walk_course_orchard :
    orchard.HasPlainListings ∧ ∃ visited,
      IsCourse orchard (· == ".git")
        (fun _ files => if files.contains "manage.py" then .stop else .descend) 2 ⟨"r"⟩
        ⟨[.level ⟨"r"⟩ ["a.py"], .failure ⟨"r/barred"⟩ (.denied ⟨"r/barred"⟩), .level ⟨"r/fig"⟩ [],
          .level ⟨"r/fig/leaf"⟩ ["b.py"], .level ⟨"r/plum"⟩ ["manage.py"]], true⟩ visited :=
  ⟨orchard_hasPlainListings, walk_course orchard_hasPlainListings _ _ _ _⟩

end SiteSurvey
