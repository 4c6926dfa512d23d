import Mathlib.Data.List.Induction
import SiteSurvey.Disk.Change
import SiteSurvey.Disk.View
import SiteSurvey.Proofs.OrderedMap
import SiteSurvey.Proofs.Path

/-!
# Where longer paths lead

Where a path leads to a directory, the path joined with a name leads to what stands under this name
in that directory, through the same links (`lookup_join`), as long as it is not too long to be
looked up. So the path of a place leads to it where all above are directories (`lookup_pathOf`), and
one name alone leads to what stands in the working directory (`lookup_name`).
-/

namespace SiteSurvey.Disk

/-! ## Names -/

/-- A name that an entry of a directory can have. -/
structure IsEntryName (name : String) : Prop extends Path.IsPlain name where
  short : name.utf8ByteSize ≤ nameBound
  no_nul : '\x00' ∉ name.toList

theorem isEntryName_iff (name : String) :
    IsEntryName name ↔
      Path.IsPlain name ∧ name.utf8ByteSize ≤ nameBound ∧ '\x00' ∉ name.toList :=
  ⟨fun h => ⟨h.toIsPlain, h.short, h.no_nul⟩, fun ⟨hplain, hshort, hnul⟩ => ⟨hplain, hshort, hnul⟩⟩

instance (name : String) : Decidable (IsEntryName name) :=
  decidable_of_iff _ (isEntryName_iff name).symm

/-! ## Segments -/

theorem segments_of_no_slash {name : String} (h : '/' ∉ name.toList) : segments name = [name] := by
  rw [segments, Text.splitAt_of_not_mem h, List.map_singleton, String.ofList_toList]

section Segments

variable (disk : Disk) {follow : Place → List String → Except SystemFault Destination}

/-- The segments lead somewhere only from a directory. -/
theorem isDir_of_go {followLast : Bool} {place : Place} {segment : String} {later : List String}
    {found : Destination} (h : disk.go followLast follow place (segment :: later) = .ok found) :
    disk.entry? place = some .dir := by
  by_contra hplace
  rw [go, if_pos hplace] at h
  cases h

/-- Empty segments stay in a directory. -/
theorem go_void {place : Place} (hdir : disk.entry? place = some .dir) {void : List String}
    (hvoid : ∀ segment ∈ void, segment = "") :
    disk.go true follow place void = .ok ⟨place, false⟩ := by
  induction void with
  | nil => rfl
  | cons segment void ih =>
    have hempty := hvoid segment List.mem_cons_self
    rw [go, if_neg (not_not_intro hdir), if_pos (by simp [hempty])]
    exact ih fun s hs => hvoid s (List.mem_cons_of_mem _ hs)

/--
Where the segments of a path lead to a directory, putting a name in place of the slashes at its end
leads to that name in the directory.
-/
def LeadsBelow (name : String) (walk : Place → List String → Except SystemFault Destination) :
    Prop :=
  ∀ place later void found, (∀ segment ∈ void, segment = "") →
    walk place (later ++ void) = .ok found → disk.entry? found.place = some .dir →
    (∀ target, disk.entry? (found.place ++ [name]) ≠ some (.link target)) →
    walk place (later ++ [name]) = .ok ⟨found.place ++ [name], false⟩

variable {name : String} (hname : IsEntryName name)
include hname

theorem go_name {place : Place} (hdir : disk.entry? place = some .dir)
    (hlink : ∀ target, disk.entry? (place ++ [name]) ≠ some (.link target)) :
    disk.go true follow place [name] = .ok ⟨place ++ [name], false⟩ := by
  have hshort : ¬ nameBound < name.utf8ByteSize := Nat.not_lt.2 hname.short
  rw [go, if_neg (not_not_intro hdir), if_neg (by simp [hname.ne_empty, hname.ne_here]),
    if_neg hname.ne_up, if_neg hshort]
  dsimp only
  split
  · next target h => exact absurd h (hlink target)
  · rfl

theorem leadsBelow_go (hfollow : LeadsBelow disk name follow) :
    LeadsBelow disk name (disk.go true follow) := by
  intro place later void found hvoid hgo hdir hlink
  induction later generalizing place found with
  | nil =>
    have hplace : disk.entry? place = some .dir := by
      cases void with
      | nil =>
        cases hgo
        exact hdir
      | cons segment void => exact isDir_of_go disk hgo
    rw [List.nil_append, go_void disk hplace hvoid] at hgo
    cases hgo
    exact go_name disk hname hdir hlink
  | cons segment later ih =>
    have hplace := isDir_of_go disk hgo
    rw [List.cons_append, go, if_neg (not_not_intro hplace)] at hgo ⊢
    by_cases hstay : (segment = "" || segment = ".")
    · rw [if_pos hstay] at hgo ⊢
      exact ih place found hgo hdir hlink
    rw [if_neg hstay] at hgo ⊢
    by_cases hup : segment = ".."
    · rw [if_pos hup] at hgo ⊢
      exact ih place.dropLast found hgo hdir hlink
    rw [if_neg hup] at hgo ⊢
    by_cases hlong : nameBound < segment.utf8ByteSize
    · rw [if_pos hlong] at hgo
      cases hgo
    rw [if_neg hlong] at hgo ⊢
    dsimp only at hgo ⊢
    split at hgo
    · -- a link: the walk goes on with its target before what is left, as `hfollow` knows
      rw [if_neg (by simp), ← List.append_assoc] at hgo ⊢
      exact hfollow _ _ void found hvoid hgo hdir hlink
    · rw [if_neg (by simp [hname.ne_empty] : ¬ ((later ++ [name]).all (· == "")) = true)]
      by_cases hall : (later ++ void).all (· == "")
      · -- the slashes end the path, so the name comes next behind them
        rw [if_pos hall] at hgo
        cases hgo
        have hempty : ∀ s ∈ later ++ void, s = "" := fun s hs =>
          beq_iff_eq.1 (List.all_eq_true.1 hall s hs)
        rw [hdir]
        exact ih (place ++ [segment]) ⟨place ++ [segment], false⟩ (go_void disk hdir hempty) hdir
          hlink
      · rw [if_neg hall] at hgo
        by_cases hnone : (disk.entry? (place ++ [segment])).isNone
        · rw [if_pos hnone] at hgo
          cases hgo
        · rw [if_neg hnone] at hgo ⊢
          exact ih (place ++ [segment]) found hgo hdir hlink

theorem leadsBelow_goFollowing (links : Nat) :
    LeadsBelow disk name (disk.goFollowing true links) := by
  induction links with
  | zero => exact leadsBelow_go disk hname (fun _ _ _ _ _ h => nomatch h)
  | succ links ih => exact leadsBelow_go disk hname ih

end Segments

/-! ## Paths -/

section Paths

variable {disk : Disk} {directory place : Place} {path : Path}

theorem lookup_of_resolve (h : disk.resolve directory true path = .ok ⟨place, false⟩) :
    disk.lookup directory path =
      match disk.entry? place with
      | none => .error .missing
      | some entry => .ok (place, entry) := by
  rw [lookup, h]
  rfl

theorem resolve_of_lookup {entry : Entry} (h : disk.lookup directory path = .ok (place, entry)) :
    ∃ asDir, disk.resolve directory true path = .ok ⟨place, asDir⟩ ∧
      disk.entry? place = some entry := by
  rw [lookup] at h
  split at h
  · cases h
  next found hfound =>
  split at h
  · cases h
  next entry' hentry =>
  split at h
  · cases h
  cases h
  exact ⟨found.asDir, hfound, hentry⟩

variable {name : String} (hname : IsEntryName name)
include hname

theorem toList_join (hpath : path.text ≠ "") :
    (path.join name).text.toList =
      path.text.toList ++
        (if path.text.toList.getLast? = some '/' then name.toList else '/' :: name.toList) := by
  rw [Path.join, if_neg (by simpa using hname.head?_ne_slash)]
  by_cases hlast : path.text.toList.getLast? = some '/'
  · rw [if_pos (by simp [hlast]), if_pos hlast, String.toList_append]
  · rw [if_neg (by simp [hlast, hpath]), if_neg hlast]
    simp [String.toList_append]

/-- The segments of a joined path are those of the path but for slashes at its end, and the name. -/
theorem segments_join (hpath : path.text ≠ "") :
    ∃ later void, segments path.text = later ++ void ∧ (∀ segment ∈ void, segment = "") ∧
      segments (path.join name).text = later ++ [name] := by
  have hsegments := segments_of_no_slash hname.no_slash
  rw [segments] at hsegments
  rw [segments, segments, toList_join hname hpath]
  by_cases hlast : path.text.toList.getLast? = some '/'
  · have htext := (List.dropLast_append_getLast? '/' hlast).symm
    rw [if_pos hlast]
    refine ⟨segments (String.ofList path.text.toList.dropLast), [""], ?_, by simp, ?_⟩
    · rw [htext, Text.splitAt_append_cons]
      simp [segments, Text.splitAt]
    · rw [htext, List.append_assoc, List.singleton_append, Text.splitAt_append_cons,
        List.map_append, hsegments]
      simp [segments]
  · rw [if_neg hlast, Text.splitAt_append_cons, List.map_append, hsegments]
    exact ⟨_, [], (List.append_nil _).symm, List.forall_mem_nil _, rfl⟩

/-- A name joined to a path that leads to a directory leads below that directory. -/
theorem resolve_join {found : Destination} (h : disk.resolve directory true path = .ok found)
    (hdir : disk.entry? found.place = some .dir)
    (hlink : ∀ target, disk.entry? (found.place ++ [name]) ≠ some (.link target))
    (hshort : (path.join name).text.utf8ByteSize < pathBound) :
    disk.resolve directory true (path.join name) = .ok ⟨found.place ++ [name], false⟩ := by
  rw [resolve] at h
  split at h
  · cases h
  split at h
  · cases h
  split at h
  · cases h
  next hnul hempty hlong =>
  obtain ⟨hpath, hunicode⟩ : path.text ≠ "" ∧ path.isUnicode := by simpa using hempty
  have hjoin := toList_join hname hpath
  have hcons : path.text.toList ≠ [] := fun e => hpath (String.toList_eq_nil_iff.1 e)
  have horigin : origin directory (path.join name).text = origin directory path.text := by
    rw [origin, origin, hjoin, List.head?_append_of_ne_nil _ hcons]
  have hnul' : ¬ (path.join name).text.toList.contains '\x00' := by
    rw [List.contains_iff_mem] at hnul ⊢
    rw [hjoin, List.mem_append, not_or]
    refine ⟨hnul, ?_⟩
    split_ifs <;> simp [hname.no_nul]
  have hempty' : ¬ ((path.join name).text.isEmpty || !(path.join name).isUnicode) := by
    rw [Path.isUnicode_join path hname.head?_ne_slash, hunicode, Bool.not_true, Bool.or_false,
      String.isEmpty_iff, ← String.toList_eq_nil_iff, hjoin, List.append_eq_nil_iff]
    exact fun e => hcons e.1
  obtain ⟨later, void, hsegments, hvoid, hsegments'⟩ := segments_join hname hpath
  rw [resolve, if_neg hnul', if_neg hempty', if_neg (Nat.not_le.2 hshort), horigin, hsegments']
  rw [hsegments] at h
  exact leadsBelow_goFollowing disk hname _ _ _ _ _ hvoid h hdir hlink

theorem resolve_mk_name :
    disk.resolve directory true ⟨name⟩ = disk.goFollowing true linkBound directory [name] := by
  have hshort : ¬ pathBound ≤ name.utf8ByteSize :=
    Nat.not_le.2 (Nat.lt_of_le_of_lt hname.short (by decide))
  have hnul : ¬ name.toList.contains '\x00' := by
    rw [List.contains_iff_mem]
    exact hname.no_nul
  rw [resolve, if_neg hnul, if_neg (by simpa [Path.isUnicode] using hname.ne_empty),
    if_neg hshort, origin, if_neg (by simpa using hname.head?_ne_slash),
    segments_of_no_slash hname.no_slash]

/-- One name leads somewhere only from a directory. -/
theorem isDir_of_resolve_name {found : Destination}
    (h : disk.resolve directory true ⟨name⟩ = .ok found) : disk.entry? directory = some .dir := by
  rw [resolve_mk_name hname, linkBound, goFollowing] at h
  exact isDir_of_go disk h

/-- One name leads below the working directory. -/
theorem resolve_name (hdir : disk.entry? directory = some .dir)
    (hlink : ∀ target, disk.entry? (directory ++ [name]) ≠ some (.link target)) :
    disk.resolve directory true ⟨name⟩ = .ok ⟨directory ++ [name], false⟩ := by
  rw [resolve_mk_name hname]
  exact leadsBelow_goFollowing disk hname linkBound directory [] [] ⟨directory, false⟩
    (List.forall_mem_nil _) rfl hdir hlink

theorem lookup_name (hdir : disk.entry? directory = some .dir)
    (hlink : ∀ target, disk.entry? (directory ++ [name]) ≠ some (.link target)) :
    disk.lookup directory ⟨name⟩ =
      match disk.entry? (directory ++ [name]) with
      | none => .error .missing
      | some entry => .ok (directory ++ [name], entry) :=
  lookup_of_resolve (resolve_name hname hdir hlink)

theorem lookup_join (h : disk.lookup directory path = .ok (place, .dir))
    (hlink : ∀ target, disk.entry? (place ++ [name]) ≠ some (.link target))
    (hshort : (path.join name).text.utf8ByteSize < pathBound) :
    disk.lookup directory (path.join name) =
      match disk.entry? (place ++ [name]) with
      | none => .error .missing
      | some entry => .ok (place ++ [name], entry) := by
  obtain ⟨asDir, hresolve, hdir⟩ := resolve_of_lookup h
  exact lookup_of_resolve (resolve_join hname hresolve hdir hlink hshort)

end Paths

/-- A path that is too long leads nowhere. -/
theorem exists_lookup_of_long (disk : Disk) (directory : Place) {path : Path}
    (h : pathBound ≤ path.text.utf8ByteSize) :
    ∃ fault, disk.lookup directory path = .error fault := by
  rw [lookup, resolve]
  split_ifs
  · exact ⟨_, rfl⟩
  · exact ⟨_, rfl⟩
  · exact ⟨_, rfl⟩

/-! ## Paths from the root -/

theorem exists_text_pathOf (place : Place) (name : String) :
    ∃ above, (pathOf (place ++ [name])).text.toList = above ++ name.toList := by
  by_cases h : place = []
  · exact ⟨['/'], by simp [h, pathOf, String.toList_append]⟩
  · refine ⟨("/" ++ "/".intercalate place ++ "/").toList, ?_⟩
    rw [pathOf, String.intercalate_append_of_ne_nil h (List.cons_ne_nil _ _),
      String.intercalate_singleton]
    simp [String.toList_append]

theorem pathOf_concat {place : Place} {name : String} (hplace : ∀ n ∈ place, Path.IsPlain n)
    (hname : Path.IsPlain name) : pathOf (place ++ [name]) = (pathOf place).join name := by
  rw [Path.join, if_neg (by simpa using hname.head?_ne_slash)]
  rcases List.eq_nil_or_concat' place with rfl | ⟨above, last, rfl⟩
  · simp [pathOf]
  · have hlast := hplace last (by simp)
    obtain ⟨before, hbefore⟩ := exists_text_pathOf above last
    have hne : last.toList ≠ [] := fun e => hlast.ne_empty (String.toList_eq_nil_iff.1 e)
    have hslash : (pathOf (above ++ [last])).text.toList.getLast? ≠ some '/' := by
      rw [hbefore, List.getLast?_append_of_ne_nil _ hne]
      exact fun h => hlast.no_slash (List.mem_of_getLast? h)
    have hempty : (pathOf (above ++ [last])).text ≠ "" := by
      rw [ne_eq, ← String.toList_eq_nil_iff, hbefore, List.append_eq_nil_iff]
      exact fun e => hne e.2
    rw [if_neg (by simp [hslash, hempty]), pathOf,
      String.intercalate_append_of_ne_nil (List.concat_ne_nil last above) (List.cons_ne_nil _ _),
      String.intercalate_singleton, pathOf]
    simp only [String.append_assoc]

theorem size_pathOf {place : Place} (h : place ≠ []) :
    (pathOf place).text.utf8ByteSize = (place.map fun name => name.utf8ByteSize + 1).sum := by
  have hslash : "/".utf8ByteSize = 1 := rfl
  induction place with
  | nil => exact absurd rfl h
  | cons name place ih =>
    cases place with
    | nil => simp [pathOf, hslash, Nat.add_comm]
    | cons next place =>
      have hlater := ih (List.cons_ne_nil _ _)
      rw [List.map_cons, List.sum_cons, ← hlater]
      simp only [pathOf, String.intercalate_cons_cons, String.utf8ByteSize_append, hslash]
      omega

theorem size_pathOf_concat {place : Place} (h : place ≠ []) (name : String) :
    (pathOf (place ++ [name])).text.utf8ByteSize =
      (pathOf place).text.utf8ByteSize + (name.utf8ByteSize + 1) := by
  rw [size_pathOf (List.concat_ne_nil _ _), size_pathOf h, List.map_append, List.sum_append,
    List.map_singleton, List.sum_singleton]

theorem size_le_join (directory : Path) {name : String} (h : Path.IsPlain name) :
    directory.text.utf8ByteSize ≤ (directory.join name).text.utf8ByteSize := by
  rw [Path.join, if_neg (by simpa using h.head?_ne_slash)]
  split_ifs <;> simp only [String.utf8ByteSize_append] <;> omega

/-- The path of a place leads to it where all above it are directories. -/
theorem lookup_pathOf {disk : Disk} (directory : Place) {place : Place}
    (hplace : ∀ name ∈ place, IsEntryName name)
    (hdir : ∀ above, above <+: place → disk.entry? above = some .dir)
    (hshort : (pathOf place).text.utf8ByteSize < pathBound) :
    disk.lookup directory (pathOf place) = .ok (place, .dir) := by
  induction place using List.reverseRecOn with
  | nil => rfl
  | append_singleton place name ih =>
    have hnames : ∀ n ∈ place, IsEntryName n := fun n hn =>
      hplace n (List.mem_append_left _ hn)
    have hname := hplace name (by simp)
    have hentry := hdir _ List.prefix_rfl
    rw [pathOf_concat (fun n hn => (hnames n hn).toIsPlain) hname.toIsPlain] at hshort ⊢
    have habove := ih hnames (fun above h => hdir above (h.trans (List.prefix_append _ _)))
      (Nat.lt_of_le_of_lt (size_le_join _ hname.toIsPlain) hshort)
    rw [lookup_join hname habove (by simp [hentry]) hshort, hentry]

/-! ## Views -/

/-- A view shows a file where a path leads to one, not to a directory. -/
theorem isFile_view_iff (disk : Disk) (directory : Place) (path : Path) :
    (disk.view directory).isFile path = true ↔
      ∃ place text, disk.lookup directory path = .ok (place, .file text) := by
  rw [view]
  rcases h : disk.lookup directory path with fault | ⟨place, text | _ | _⟩ <;>
    simp [h, Except.toOption, isFileEntry]

theorem isPresent_view_iff (disk : Disk) (directory : Place) (path : Path) :
    (disk.view directory).isPresent path = true ↔
      ∃ found, disk.lookup directory path = .ok found := by
  rw [view]
  rcases h : disk.lookup directory path with fault | found <;> simp [h, Except.toOption]

/-! ## Entries -/

theorem entry?_of_ne_nil (disk : Disk) {place : Place} (h : place ≠ []) :
    disk.entry? place = disk.entries.get? place := by
  cases place with
  | nil => exact absurd rfl h
  | cons name names => rfl

theorem entry?_set (disk : Disk) {place : Place} (hplace : place ≠ []) (entry : Entry)
    (other : Place) :
    entry? (disk.set place entry) other =
      if other = place then some entry else disk.entry? other := by
  cases other with
  | nil => rw [if_neg hplace.symm]; rfl
  | cons name names => exact OrderedMap.get?_insert disk.entries place (name :: names) entry

end SiteSurvey.Disk
