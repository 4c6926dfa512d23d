import Mathlib.Data.List.Basic
import Mathlib.Data.List.TakeWhile
import SiteSurvey.Path
import SiteSurvey.Proofs.Text.Split

/-!
# Parts of joined paths

Joining a plain name to a directory adds one part to the directory's parts (`parts_join`), whatever
slashes the directory's text ends in. Hence the places below a root are told apart by the names that
lead to them (`place_parts_injective`). A path that ends in a name has a parent
(`exists_parent?_of_fileName?`). A parent has all parts but the last (`parts_parent?`), so the
ancestors of a path are reached from parent to parent (`ancestors_eq`).
-/

namespace SiteSurvey.Path

open Text

theorem eq_of_text {path other : Path} (h : path.isUnicode) (h' : other.isUnicode)
    (e : path.text = other.text) : path = other := by
  obtain ⟨⟨text, stray⟩⟩ := path
  obtain ⟨⟨text', stray'⟩⟩ := other
  obtain rfl : stray = [] := List.isEmpty_iff.1 h
  obtain rfl : stray' = [] := List.isEmpty_iff.1 h'
  cases e
  rfl

/-- A name that is one part of a path and leads to nothing but an entry of that name. -/
structure IsPlain (name : String) : Prop where
  ne_empty : name ≠ ""
  no_slash : '/' ∉ name.toList
  ne_here : name ≠ "."
  ne_up : name ≠ ".."

theorem IsPlain.head?_ne_slash {name : String} (h : IsPlain name) :
    name.toList.head? ≠ some '/' := fun e => h.no_slash (List.mem_of_mem_head? e)

theorem isPlain_iff (name : String) :
    IsPlain name ↔ name ≠ "" ∧ '/' ∉ name.toList ∧ name ≠ "." ∧ name ≠ ".." :=
  ⟨fun h => ⟨h.1, h.2, h.3, h.4⟩, fun ⟨h₁, h₂, h₃, h₄⟩ => ⟨h₁, h₂, h₃, h₄⟩⟩

instance (name : String) : Decidable (IsPlain name) :=
  decidable_of_iff _ (isPlain_iff name).symm

/-- The path reached from a root through the names of directories. -/
def place (root : Path) (names : List String) : Path :=
  names.foldl join root

@[simp]
theorem place_nil (root : Path) : root.place [] = root := rfl

@[simp]
theorem place_cons (root : Path) (name : String) (names : List String) :
    root.place (name :: names) = (root.join name).place names := rfl

theorem partOf?_of_isPlain {name : String} (h : IsPlain name) :
    partOf? name.toList = some (.name name) := by
  have h₁ : name.toList ≠ [] := fun e => h.ne_empty (String.toList_eq_nil_iff.1 e)
  have h₂ : name.toList ≠ ['.'] := fun e => h.ne_here (String.toList_inj.1 e)
  have h₃ : name.toList ≠ ['.', '.'] := fun e => h.ne_up (String.toList_inj.1 e)
  simp [partOf?, isVoid, h₁, h₂, h₃]

/-- Segments put at the end of a path's text, in place of void ones, add their parts. -/
theorem parts_of_splitAt {path longer : Path} (first : List Char)
    (rest void : List (List Char)) {more : List (List Char)}
    (habs : longer.isAbsolute = path.isAbsolute)
    (hp : splitAt '/' path.text.toList = first :: (rest ++ void))
    (hl : splitAt '/' longer.text.toList = first :: (rest ++ more))
    (hvoid : void.filterMap partOf? = []) :
    longer.parts = path.parts ++ more.filterMap partOf? := by
  have hrest : (rest ++ more).filterMap partOf? =
      (rest ++ void).filterMap partOf? ++ more.filterMap partOf? := by
    rw [List.filterMap_append, List.filterMap_append, hvoid, List.append_nil]
  have hall : (first :: (rest ++ more)).filterMap partOf? =
      (first :: (rest ++ void)).filterMap partOf? ++ more.filterMap partOf? := by
    simp only [List.filterMap_cons, hrest]
    split <;> rfl
  simp only [parts, start, segments, hasLeadingDot, habs, hp, hl, List.head?_cons]
  split_ifs <;> simp only [hrest, hall, List.append_assoc]

theorem parts_of_isPlain {name : String} (h : IsPlain name) :
    (Path.mk name).parts = [.name name] := by
  have hhead := h.head?_ne_slash
  have hdot : name.toList ≠ ['.'] := fun e => h.ne_here (String.toList_inj.1 e)
  have hpart := partOf?_of_isPlain h
  simp [parts, start, segments, hasLeadingDot, isAbsolute, splitAt_of_not_mem h.no_slash, hhead,
    hdot, hpart]

theorem parts_empty : (Path.mk "").parts = [] := by decide

/-- The parts of a path are those of its text. -/
theorem parts_mk_text (path : Path) : (Path.mk path.text).parts = path.parts := rfl

theorem parts_congr_text {path other : Path} (h : path.text = other.text) :
    path.parts = other.parts := by
  rw [← parts_mk_text path, h, parts_mk_text]

theorem fileName?_mk_text (path : Path) : (Path.mk path.text).fileName? = path.fileName? := rfl

theorem isUnicode_join (directory : Path) {name : String} (h : name.toList.head? ≠ some '/') :
    (directory.join name).isUnicode = directory.isUnicode := by
  rw [join, if_neg (by simpa using h)]
  split_ifs <;> rfl

theorem parts_join (directory : Path) {name : String} (h : IsPlain name) :
    (directory.join name).parts = directory.parts ++ [.name name] := by
  have hname := splitAt_of_not_mem h.no_slash
  have hpart : [name.toList].filterMap partOf? = [Part.name name] := by
    rw [List.filterMap_cons_some (partOf?_of_isPlain h), List.filterMap_nil]
  have hhead := h.head?_ne_slash
  rw [join, if_neg (by simpa using hhead), ← hpart]
  rcases List.eq_nil_or_concat directory.text.toList with he | ⟨text, c, he⟩
  · have hempty : directory.text = "" := String.toList_eq_nil_iff.1 he
    have htext : ({ directory with text := directory.text ++ name } : Path).text = name := by
      simp [hempty]
    have hparts : directory.parts = [] := by
      rw [← parts_mk_text, hempty, parts_empty]
    rw [if_pos (by simp [hempty]), hpart, hparts, List.nil_append, ← parts_of_isPlain h]
    exact parts_congr_text htext
  · have hne : ¬ directory.text.isEmpty := by
      rw [String.isEmpty_iff, ← String.toList_eq_nil_iff, he]
      simp
    by_cases hc : c = '/'
    · -- the slash at the end of the text is the one that joins
      obtain ⟨first, rest, hs⟩ := List.exists_cons_of_ne_nil (splitAt_ne_nil '/' text)
      rw [if_pos (by rw [he, hc]; simp)]
      refine parts_of_splitAt first rest [[]] ?_ ?_ ?_ rfl
      · cases text <;> simp [isAbsolute, he, hc]
      · rw [he, hc, List.concat_eq_append, splitAt_append_cons, hs]
        rfl
      · rw [String.toList_append, he, hc, List.concat_eq_append, List.append_assoc,
          List.singleton_append, splitAt_append_cons, hs, hname, List.cons_append]
    · obtain ⟨first, rest, hs⟩ :=
        List.exists_cons_of_ne_nil (splitAt_ne_nil '/' directory.text.toList)
      rw [if_neg (by rw [he]; simp [hne, hc])]
      refine parts_of_splitAt first rest [] ?_ ?_ ?_ rfl
      · cases text <;> simp [isAbsolute, he]
      · rw [hs, List.append_nil]
      · rw [String.toList_append, String.toList_append,
          show "/".toList = ['/'] from rfl, List.append_assoc, List.singleton_append,
          splitAt_append_cons, hs, hname, List.cons_append]

theorem parts_place (root : Path) {names : List String} (h : ∀ name ∈ names, IsPlain name) :
    (root.place names).parts = root.parts ++ names.map .name := by
  induction names generalizing root with
  | nil => simp
  | cons name names ih =>
    rw [place_cons, ih (root.join name) fun n hn => h n (List.mem_cons_of_mem _ hn),
      parts_join root (h name (by simp))]
    simp

theorem place_parts_injective (root : Path) {names names' : List String}
    (h : ∀ name ∈ names, IsPlain name) (h' : ∀ name ∈ names', IsPlain name)
    (e : (root.place names).parts = (root.place names').parts) : names = names' := by
  rw [parts_place root h, parts_place root h'] at e
  have hinj : Function.Injective Part.name := fun a b hab => Part.name.inj hab
  exact hinj.list_map (List.append_cancel_left e)

/-! ## Parents -/

theorem partOf?_of_isVoid {segment : List Char} (h : isVoid segment) : partOf? segment = none :=
  if_pos h

theorem dropVoidEnd_eq_nil_iff {segments : List (List Char)} :
    dropVoidEnd segments = [] ↔ ∀ segment ∈ segments, isVoid segment := by
  unfold dropVoidEnd
  rw [List.reverse_eq_nil_iff, List.dropWhile_eq_nil_iff]
  simp

/-- A path whose segments are all void ends in no name. -/
theorem exists_parts_of_fileName? {path : Path} {name : String}
    (h : path.fileName? = some name) : ∃ front, path.parts = front ++ [.name name] := by
  unfold fileName? at h
  split at h
  · next hlast =>
    obtain rfl := Option.some.inj h
    exact List.getLast?_eq_some_iff.1 hlast
  · cases h

theorem fileName?_of_dropVoidEnd {path : Path} (h : dropVoidEnd path.segments = []) :
    path.fileName? = none := by
  have hvoid : path.segments.filterMap partOf? = [] := by
    rw [List.filterMap_eq_nil_iff]
    intro segment hs
    exact partOf?_of_isVoid (dropVoidEnd_eq_nil_iff.1 h segment hs)
  unfold fileName? parts start
  rw [hvoid, List.append_nil]
  split_ifs <;> rfl

theorem exists_parent?_of_fileName? {path : Path} {name : String}
    (h : path.fileName? = some name) : ∃ parent, path.parent? = some parent := by
  unfold parent?
  split
  · next hvoid =>
    rw [fileName?_of_dropVoidEnd hvoid] at h
    cases h
  · exact ⟨_, rfl⟩

theorem dropVoidEnd_isPrefix (segments : List (List Char)) : dropVoidEnd segments <+: segments := by
  have hsuffix := List.dropWhile_suffix isVoid (l := segments.reverse)
  rwa [← List.reverse_prefix, List.reverse_reverse] at hsuffix

theorem filterMap_dropVoidEnd (segments : List (List Char)) :
    (dropVoidEnd segments).filterMap partOf? = segments.filterMap partOf? := by
  have hsplit := congrArg List.reverse
    (List.takeWhile_append_dropWhile (p := isVoid) (l := segments.reverse))
  rw [List.reverse_append, List.reverse_reverse] at hsplit
  have hvoid : (segments.reverse.takeWhile isVoid).reverse.filterMap partOf? = [] := by
    rw [List.filterMap_eq_nil_iff]
    exact fun segment hs =>
      partOf?_of_isVoid (List.mem_takeWhile_imp (List.mem_reverse.1 hs))
  calc
    (dropVoidEnd segments).filterMap partOf?
      = (dropVoidEnd segments).filterMap partOf? ++
          (segments.reverse.takeWhile isVoid).reverse.filterMap partOf? := by
        rw [hvoid, List.append_nil]
    _ = segments.filterMap partOf? := by
        rw [← List.filterMap_append]
        exact congrArg (List.filterMap partOf?) hsplit

/-- The last segment that is not void is the last part. -/
theorem exists_filterMap_eq {segments : List (List Char)} (h : dropVoidEnd segments ≠ []) :
    ∃ part, segments.filterMap partOf? =
      (dropVoidEnd segments).dropLast.filterMap partOf? ++ [part] := by
  have hlast : ¬ isVoid ((dropVoidEnd segments).getLast h) := by
    have hhead := List.head_dropWhile_not isVoid (l := segments.reverse)
      (fun e => h (by rw [dropVoidEnd, e, List.reverse_nil]))
    simp only [dropVoidEnd, List.getLast_reverse]
    rw [hhead]
    decide
  obtain ⟨part, hpart⟩ : ∃ part, partOf? ((dropVoidEnd segments).getLast h) = some part := by
    rw [partOf?, if_neg hlast]
    split_ifs <;> exact ⟨_, rfl⟩
  refine ⟨part, ?_⟩
  rw [← filterMap_dropVoidEnd segments]
  conv_lhs => rw [← List.dropLast_concat_getLast h]
  rw [List.filterMap_append, List.filterMap_cons_some hpart, List.filterMap_nil]

theorem splitAt_joinSegments {segments : List (List Char)} (hne : segments ≠ [])
    (h : ∀ segment ∈ segments, '/' ∉ segment) : splitAt '/' (joinSegments segments) = segments := by
  induction segments with
  | nil => exact absurd rfl hne
  | cons segment segments ih =>
    rw [List.forall_mem_cons] at h
    cases segments with
    | nil => exact splitAt_of_not_mem h.1
    | cons next segments =>
      rw [joinSegments, splitAt_append_cons, splitAt_of_not_mem h.1, ih (List.cons_ne_nil _ _) h.2,
        List.singleton_append]
      exact fun e => nomatch e

/-- Segments that a path without a beginning can have do not look like one. -/
def IsRelative (segments : List (List Char)) : Prop :=
  ∀ segment ∈ segments.head?, isVoid segment = false

theorem parts_ofSegments (start : Option Part) {segments : List (List Char)}
    (hstart : start = some .root ∨ start = some .here ∨ start = none ∧ IsRelative segments)
    (h : ∀ segment ∈ segments, '/' ∉ segment) :
    (ofSegments start segments).parts = start.toList ++ segments.filterMap partOf? := by
  have hsegments : (splitAt '/' (joinSegments segments)).filterMap partOf? =
      segments.filterMap partOf? := by
    by_cases hne : segments = []
    · subst hne
      rfl
    · rw [splitAt_joinSegments hne h]
  rcases hstart with rfl | rfl | ⟨rfl, hrelative⟩
  · have hsplit : splitAt '/' ('/' :: joinSegments segments) =
        [] :: splitAt '/' (joinSegments segments) := splitAt_append_cons '/' [] _
    simp [ofSegments, parts, Path.start, Path.segments, isAbsolute, hsplit, hsegments]
  · have hsplit : splitAt '/' (joinSegments (['.'] :: segments)) = ['.'] :: segments :=
      splitAt_joinSegments (List.cons_ne_nil _ _)
        (List.forall_mem_cons.2 ⟨by decide, h⟩)
    have habsolute : (joinSegments (['.'] :: segments)).head? = some '.' := by
      cases segments <;> rfl
    simp [ofSegments, parts, Path.start, Path.segments, isAbsolute, hasLeadingDot, hsplit,
      habsolute]
  · cases segments with
    | nil => exact parts_empty
    | cons segment segments =>
      have hvoid : segment ≠ [] ∧ segment ≠ ['.'] := by
        simpa [isVoid] using hrelative segment rfl
      have hsplit := splitAt_joinSegments (List.cons_ne_nil segment segments) h
      obtain ⟨c, rest, rfl⟩ := List.exists_cons_of_ne_nil hvoid.1
      have hc : c ≠ '/' := fun e => (List.forall_mem_cons.1 h).1 (by simp [e])
      have habsolute : (joinSegments ((c :: rest) :: segments)).head? = some c := by
        cases segments <;> rfl
      have hdot : ¬ (c = '.' ∧ rest = []) := by simpa using hvoid.2
      simp [ofSegments, parts, Path.start, Path.segments, isAbsolute, hasLeadingDot, hsplit,
        habsolute, hc, hdot]

theorem not_mem_of_mem_segments {path : Path} {segment : List Char} (h : segment ∈ path.segments) :
    '/' ∉ segment := by
  suffices hmem : segment ∈ splitAt '/' path.text.toList from not_mem_of_mem_splitAt hmem
  rw [segments] at h
  split at h
  · cases h
  · next first rest hsplit =>
    rw [hsplit]
    split_ifs at h
    · exact List.mem_cons_of_mem _ h
    · exact h

theorem isPlain_of_mem_parts {path : Path} {name : String} (h : .name name ∈ path.parts) :
    IsPlain name := by
  rw [parts, List.mem_append, List.mem_filterMap] at h
  rcases h with h | ⟨segment, hsegment, hpart⟩
  · unfold start at h
    split_ifs at h <;> simp at h
  · unfold partOf? at hpart
    split_ifs at hpart with hvoid hup
    · cases hpart
    · obtain rfl : String.ofList segment = name := Part.name.inj (Option.some.inj hpart)
      have hvoid' : segment ≠ [] ∧ segment ≠ ['.'] := by simpa [isVoid] using hvoid
      have hup' : segment ≠ ['.', '.'] := by simpa using hup
      refine ⟨?_, ?_, ?_, ?_⟩
      · rw [Ne, ← String.toList_eq_nil_iff, String.toList_ofList]
        exact hvoid'.1
      · rw [String.toList_ofList]
        exact not_mem_of_mem_segments hsegment
      · rw [Ne, ← String.toList_inj, String.toList_ofList]
        exact hvoid'.2
      · rw [Ne, ← String.toList_inj, String.toList_ofList]
        exact hup'

/-- A path that begins with neither a slash nor a dot begins with a part, if it has any. -/
theorem start_cases (path : Path) :
    path.start = some .root ∨ path.start = some .here ∨
      path.start = none ∧ (path.text = "" ∨ IsRelative path.segments) := by
  rw [start]
  split_ifs with habsolute hdot
  · exact Or.inl rfl
  · exact Or.inr (Or.inl rfl)
  · refine Or.inr (Or.inr ⟨rfl, ?_⟩)
    rcases htext : path.text.toList with _ | ⟨c, text⟩
    · exact Or.inl (String.toList_eq_nil_iff.1 htext)
    · right
      obtain ⟨first, rest, hsplit⟩ :=
        List.exists_cons_of_ne_nil (splitAt_ne_nil '/' path.text.toList)
      have hc : c ≠ '/' := by simpa [isAbsolute, htext] using habsolute
      have hfirst : first ≠ ['.'] := by simpa [hasLeadingDot, hsplit] using hdot
      have hempty : first ≠ [] := by
        obtain ⟨part, parts, hparts⟩ := List.exists_cons_of_ne_nil (splitAt_ne_nil '/' text)
        rw [htext, splitAt_cons_of_ne hc hparts] at hsplit
        cases hsplit
        exact List.cons_ne_nil _ _
      have hsegments : path.segments = first :: rest := by
        rw [segments, hsplit]
        simp [habsolute, hfirst]
      rw [hsegments]
      simpa [IsRelative, isVoid] using ⟨hempty, hfirst⟩

theorem isRelative_of_isPrefix {segments front : List (List Char)} (h : IsRelative segments)
    (hfront : front <+: segments) : IsRelative front := by
  obtain ⟨rest, rfl⟩ := hfront
  cases front with
  | nil => exact nofun
  | cons segment front => exact h

/-- A path with a parent has one part more than its parent. -/
theorem parts_keepStray (before path : Path) : (before.keepStray path).parts = before.parts :=
  parts_congr_text rfl

theorem parts_parent? {path parent : Path} (h : path.parent? = some parent) :
    path.parts ≠ [] ∧ parent.parts = path.parts.dropLast := by
  rw [parent?] at h
  split at h
  · next hvoid =>
    split_ifs at h with hhere
    cases h
    have hnone : path.segments.filterMap partOf? = [] := by
      rw [← filterMap_dropVoidEnd, hvoid, List.filterMap_nil]
    have hparts : path.parts = [.here] := by
      rw [parts, hnone, beq_iff_eq.1 hhere]
      rfl
    rw [hparts]
    exact ⟨List.cons_ne_nil _ _, parts_empty⟩
  · next front hfront =>
    cases h
    have hne : dropVoidEnd path.segments ≠ [] := hfront
    have hbefore : dropVoidEnd (dropVoidEnd path.segments).dropLast <+: path.segments :=
      (dropVoidEnd_isPrefix _).trans
        ((List.dropLast_prefix _).trans (dropVoidEnd_isPrefix _))
    have hstart : path.start = some .root ∨ path.start = some .here ∨ path.start = none ∧
        IsRelative (dropVoidEnd (dropVoidEnd path.segments).dropLast) := by
      refine (start_cases path).imp_right (Or.imp_right (And.imp_right ?_))
      rintro (hempty | hrelative)
      · have hvoid : dropVoidEnd path.segments = [] := by
          rw [segments, isAbsolute, hempty]
          decide
        exact absurd hvoid hne
      · exact isRelative_of_isPrefix hrelative hbefore
    obtain ⟨part, hparts⟩ := exists_filterMap_eq hne
    rw [parts_keepStray, parts_ofSegments _ hstart fun segment hs =>
      not_mem_of_mem_segments (hbefore.subset hs), filterMap_dropVoidEnd, parts, hparts,
      ← List.append_assoc, List.dropLast_concat]
    exact ⟨List.concat_ne_nil _ _, rfl⟩

theorem root_notMem_filterMap (segments : List (List Char)) :
    .root ∉ segments.filterMap partOf? := by
  intro hroot
  obtain ⟨segment, -, hsegment⟩ := List.mem_filterMap.1 hroot
  unfold partOf? at hsegment
  split_ifs at hsegment
  · cases hsegment
  · cases hsegment

theorem root_notMem_tail_parts (path : Path) : .root ∉ path.parts.tail := by
  intro hroot
  rw [parts] at hroot
  refine root_notMem_filterMap path.segments ?_
  cases hstart : path.start <;> rw [hstart] at hroot
  · exact List.mem_of_mem_tail hroot
  · exact hroot

/-- The root has no parent. -/
theorem parts_ne_root_of_parent? {path parent : Path} (h : path.parent? = some parent) :
    path.parts ≠ [.root] := by
  intro hroot
  rw [parent?] at h
  rw [parts] at hroot
  split at h
  · split_ifs at h with hhere
    rw [beq_iff_eq.1 hhere] at hroot
    cases hroot
  · next hne =>
    obtain ⟨part, hpart⟩ := exists_filterMap_eq hne
    have hlast := congrArg List.getLast? hroot
    rw [hpart, ← List.append_assoc, List.getLast?_concat] at hlast
    refine root_notMem_filterMap path.segments ?_
    rw [hpart, Option.some.inj hlast]
    exact List.mem_append_right _ List.mem_cons_self

/-- Only the empty path and the root have no parent. -/
theorem parts_of_parent?_eq_none {path : Path} (h : path.parent? = none) :
    path.parts = [] ∨ path.parts = [.root] := by
  rw [parent?] at h
  split at h
  · next hvoid =>
    have hsegments : path.segments.filterMap partOf? = [] := by
      rw [← filterMap_dropVoidEnd, hvoid, List.filterMap_nil]
    split_ifs at h with hhere
    rw [parts, hsegments, List.append_nil]
    rcases path.start_cases with hstart | hstart | ⟨hstart, -⟩
    · exact Or.inr (by rw [hstart]; rfl)
    · exact absurd hstart (by simpa using hhere)
    · exact Or.inl (by rw [hstart]; rfl)
  · cases h

/-- The ancestors are a path, its parent, the parent of that, and so on. -/
theorem ancestors_eq (path : Path) :
    path.ancestors = path :: (path.parent?.map ancestors).getD [] := by
  rw [ancestors]
  rcases hparent : path.parent? with _ | parent
  · cases path.parts.length with
    | zero => rfl
    | succ count =>
      rw [ancestorsUpTo, hparent]
      rfl
  · obtain ⟨hne, hparts⟩ := parts_parent? hparent
    have hlength : path.parts.length = parent.parts.length + 1 := by
      have hpos := List.length_pos_iff.2 hne
      rw [hparts, List.length_dropLast]
      omega
    rw [hlength, ancestorsUpTo, hparent]
    rfl

theorem exists_ancestors (path : Path) : ∃ above, path.ancestors = path :: above :=
  ⟨_, ancestors_eq path⟩

end SiteSurvey.Path
