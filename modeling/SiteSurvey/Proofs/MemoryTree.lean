import Mathlib.Data.List.Induction
import Mathlib.Data.List.Nodup
import SiteSurvey.MemoryTree
import SiteSurvey.Proofs.OrderedMap
import SiteSurvey.Proofs.Path
import SiteSurvey.Proofs.Text.ByteOrder

/-!
# Trees as they are built

A tree that is built on paths of names, step by step. Each step says which keys it adds as
directories, which file it gives a text and which path it bars, and the tree holds what its steps
say (`mem_dirs_ofSteps`, `get?_files_ofSteps`, `mem_barred_ofSteps`). A listing has a name once if
the tree has the key that the name makes below the listed one (`mem_namesBelow`,
`count_namesBelow`), so listings, texts and directories fit together (`ofSteps_consistent`).
-/

namespace SiteSurvey.MemoryTree

open SiteSurvey.Path (Part)

/-! ## Keys -/

theorem parentKey?_eq_some_iff {key above : List Part} :
    parentKey? key = some above ↔ key ≠ [] ∧ key ≠ [.root] ∧ above = key.dropLast := by
  unfold parentKey?
  split
  · simp
  · simp
  · next hne hroot =>
    rw [Option.some.injEq, eq_comm]
    exact ⟨fun h => ⟨hne, hroot, h⟩, fun h => h.2.2⟩

theorem parentKey?_concat_name (front : List Part) (name : String) :
    parentKey? (front ++ [.name name]) = some front := by
  refine parentKey?_eq_some_iff.2 ⟨List.concat_ne_nil _ _, fun h => ?_, List.dropLast_concat.symm⟩
  have hlast := congrArg List.getLast? h
  rw [List.getLast?_concat] at hlast
  cases hlast

theorem keyName_concat_name (front : List Part) (name : String) :
    keyName (front ++ [.name name]) = name := by
  rw [keyName, List.getLast?_concat]

/-- The key of a parent is the parent of a key. -/
theorem parentKey?_parts (path : Path) : parentKey? path.parts = path.parent?.map Path.parts := by
  rcases hparent : path.parent? with _ | parent
  · rcases Path.parts_of_parent?_eq_none hparent with h | h <;> rw [h] <;> rfl
  · obtain ⟨hne, hparts⟩ := Path.parts_parent? hparent
    exact parentKey?_eq_some_iff.2 ⟨hne, Path.parts_ne_root_of_parent? hparent, hparts⟩

theorem mem_keysAbove {parts key : List Part} :
    key ∈ keysAbove parts ↔
      key <+: parts ∧ key ≠ parts ∧ (parts.head? = some .root → key ≠ []) := by
  have hmem : key ∈ (List.range parts.length).reverse.map parts.take ↔
      key <+: parts ∧ key ≠ parts := by
    simp only [List.mem_map, List.mem_reverse, List.mem_range]
    constructor
    · rintro ⟨n, hn, rfl⟩
      refine ⟨List.take_prefix n parts, fun e => ?_⟩
      have hlength := congrArg List.length e
      rw [List.length_take] at hlength
      omega
    · rintro ⟨hbefore, hne⟩
      refine ⟨key.length, ?_, (List.prefix_iff_eq_take.1 hbefore).symm⟩
      exact Nat.lt_of_le_of_ne hbefore.length_le fun e => hne (hbefore.eq_of_length e)
  unfold keysAbove
  split
  · next h =>
    have hroot : parts.head? = some .root := by simpa using h
    rw [List.mem_filter, hmem]
    simp [hroot, and_assoc]
  · next h =>
    have hroot : parts.head? ≠ some .root := by simpa using h
    rw [hmem]
    simp [hroot]

/-- What is directly above a key, or above one above it, is above the key. -/
theorem parentKey?_mem_keysAbove {parts key above : List Part} (h : key ∈ parts :: keysAbove parts)
    (habove : parentKey? key = some above) : above ∈ keysAbove parts := by
  obtain ⟨hne, hroot, rfl⟩ := parentKey?_eq_some_iff.1 habove
  have hbefore : key <+: parts := by
    rcases List.mem_cons.1 h with rfl | h
    · exact List.prefix_rfl
    · exact (mem_keysAbove.1 h).1
  refine mem_keysAbove.2 ⟨(List.dropLast_prefix key).trans hbefore, fun e => ?_, fun hhead e => ?_⟩
  · have hlength := congrArg List.length e
    have hpos := List.length_pos_iff.2 hne
    have hle := hbefore.length_le
    rw [List.length_dropLast] at hlength
    omega
  · -- A key that is one part long, of an absolute path, is the root.
    obtain ⟨part, below, rfl⟩ := List.exists_cons_of_ne_nil hne
    obtain ⟨rest, rfl⟩ := hbefore
    obtain rfl : part = .root := by simpa using hhead
    have hbelow : below = [] := by simpa using congrArg List.length e
    exact hroot (by rw [hbelow])

/-! ## Names below a directory -/

/-- Each of the keys ends in a name, unless it is that of a path without a parent. -/
def EndInNames (keys : List (List Part)) : Prop :=
  ∀ key ∈ keys, key = [] ∨ key = [.root] ∨ ∃ front name, key = front ++ [.name name]

theorem exists_name_of_parentKey? {keys : List (List Part)} (h : EndInNames keys)
    {key parts : List Part} (hkey : key ∈ keys) (hparent : parentKey? key = some parts) :
    ∃ name, key = parts ++ [.name name] := by
  rcases h key hkey with rfl | rfl | ⟨front, name, rfl⟩
  · cases hparent
  · cases hparent
  · rw [parentKey?_concat_name, Option.some.injEq] at hparent
    exact ⟨name, by rw [hparent]⟩

section NamesBelow

variable {parts : List Part} {keys : List (List Part)}

theorem mem_namesBelow (h : EndInNames keys) {name : String} :
    name ∈ namesBelow parts keys ↔ parts ++ [.name name] ∈ keys := by
  rw [namesBelow, List.mem_mergeSort, List.mem_map]
  constructor
  · rintro ⟨key, hkey, rfl⟩
    obtain ⟨hmem, hparent⟩ := List.mem_filter.1 hkey
    obtain ⟨name, rfl⟩ := exists_name_of_parentKey? h hmem (by simpa using hparent)
    rwa [keyName_concat_name]
  · intro hmem
    refine ⟨_, List.mem_filter.2 ⟨hmem, ?_⟩, keyName_concat_name parts name⟩
    simp [parentKey?_concat_name]

theorem nodup_namesBelow (h : EndInNames keys) (hnodup : keys.Nodup) :
    (namesBelow parts keys).Nodup := by
  rw [namesBelow, (List.mergeSort_perm _ _).nodup_iff]
  refine (hnodup.filter _).map_on fun key hkey key' hkey' e => ?_
  obtain ⟨hmem, hparent⟩ := List.mem_filter.1 hkey
  obtain ⟨hmem', hparent'⟩ := List.mem_filter.1 hkey'
  obtain ⟨name, rfl⟩ := exists_name_of_parentKey? h hmem (by simpa using hparent)
  obtain ⟨name', rfl⟩ := exists_name_of_parentKey? h hmem' (by simpa using hparent')
  rw [keyName_concat_name, keyName_concat_name] at e
  rw [e]

theorem count_namesBelow (h : EndInNames keys) (hnodup : keys.Nodup) {name : String}
    (hname : parts ++ [.name name] ∈ keys) : (namesBelow parts keys).count name = 1 :=
  List.count_eq_one_of_mem (nodup_namesBelow h hnodup) ((mem_namesBelow h).2 hname)

theorem pairwise_le_mergeSort (names : List String) :
    names.mergeSort.Pairwise fun name other => name ≤ other := by
  have htrans (name next other : String) (h : decide (name ≤ next) = true)
      (h' : decide (next ≤ other) = true) : decide (name ≤ other) = true :=
    decide_eq_true (String.le_trans (of_decide_eq_true h) (of_decide_eq_true h'))
  have htotal (name other : String) : (decide (name ≤ other) || decide (other ≤ name)) = true := by
    simpa using String.le_total name other
  exact (List.pairwise_mergeSort htrans htotal names).imp of_decide_eq_true

/-- The names come in the order of their bytes. -/
theorem pairwise_namesBelow (h : EndInNames keys) (hnodup : keys.Nodup) :
    (namesBelow parts keys).Pairwise fun name other => Text.bytes name < Text.bytes other := by
  have hle : (namesBelow parts keys).Pairwise fun name other => name ≤ other :=
    pairwise_le_mergeSort _
  refine (hle.and (nodup_namesBelow h hnodup)).imp fun ⟨hle, hne⟩ => Text.bytes_lt ?_
  exact Std.lt_of_le_of_ne hle hne

theorem namesBelow_perm {keys' : List (List Part)} (h : keys.Perm keys') :
    namesBelow parts keys = namesBelow parts keys' := by
  have hperm : (namesBelow parts keys).Perm (namesBelow parts keys') :=
    (List.mergeSort_perm _ _).trans
      (((h.filter _).map keyName).trans (List.mergeSort_perm _ _).symm)
  exact hperm.eq_of_pairwise (fun _ _ _ _ => String.le_antisymm) (pairwise_le_mergeSort _)
    (pairwise_le_mergeSort _)

end NamesBelow

/-! ## Steps -/

/-- A step in which a tree is built. -/
inductive Step where
  | file (path : Path) (text : String)
  | dir (path : Path)
  | deny (path : Path)
  deriving DecidableEq

namespace Step

def path : Step → Path
  | file path _ | dir path | deny path => path

def apply (tree : MemoryTree) : Step → MemoryTree
  | file path text => tree.withFile path text
  | dir path => tree.withDir path
  | deny path => tree.deny path

/-- The keys of the directories that the step adds. -/
def dirKeys : Step → List (List Part)
  | file path _ => keysAbove path.parts
  | dir path => path.parts :: keysAbove path.parts
  | deny _ => []

/-- The text that the step gives the file of a key. -/
def textAt? (key : List Part) : Step → Option String
  | file path text => if path.parts = key then some text else none
  | _ => none

end Step

def ofSteps (steps : List Step) : MemoryTree :=
  steps.foldl Step.apply {}

/-- The texts that the steps give the file of a key, in order. -/
def textsAt (steps : List Step) (key : List Part) : List String :=
  steps.filterMap (Step.textAt? key)

theorem ofSteps_concat (steps : List Step) (step : Step) :
    ofSteps (steps ++ [step]) = step.apply (ofSteps steps) := by
  rw [ofSteps, List.foldl_append]
  rfl

/-! ### Directories -/

theorem mem_addKeys {dirs keys : List (List Part)} {key : List Part} :
    key ∈ addKeys dirs keys ↔ key ∈ dirs ∨ key ∈ keys := by
  induction keys generalizing dirs with
  | nil => simp [addKeys]
  | cons next keys ih =>
    have hrest : key ∈ addKeys (dirs.insert next) keys ↔ key ∈ dirs.insert next ∨ key ∈ keys := ih
    refine hrest.trans ?_
    rw [List.mem_insert_iff, List.mem_cons, or_left_comm, or_assoc]

theorem nodup_addKeys {dirs : List (List Part)} (h : dirs.Nodup) (keys : List (List Part)) :
    (addKeys dirs keys).Nodup := by
  induction keys generalizing dirs with
  | nil => exact h
  | cons next keys ih => exact ih h.insert

theorem mem_dirs_apply {tree : MemoryTree} {step : Step} {key : List Part} :
    key ∈ (step.apply tree).dirs ↔ key ∈ tree.dirs ∨ key ∈ step.dirKeys := by
  cases step with
  | file path text => exact mem_addKeys
  | dir path => exact mem_addKeys
  | deny path => simp [Step.apply, MemoryTree.deny, Step.dirKeys]

/-- The directories are those that some step adds. -/
theorem mem_dirs_ofSteps {steps : List Step} {key : List Part} :
    key ∈ (ofSteps steps).dirs ↔ ∃ step ∈ steps, key ∈ step.dirKeys := by
  induction steps using List.reverseRecOn with
  | nil => simp [ofSteps]
  | append_singleton steps step ih =>
    rw [ofSteps_concat, mem_dirs_apply, ih]
    simp only [List.mem_append, List.mem_singleton, or_and_right, exists_or, exists_eq_left]

theorem nodup_dirs_ofSteps (steps : List Step) : (ofSteps steps).dirs.Nodup := by
  induction steps using List.reverseRecOn with
  | nil => exact List.nodup_nil
  | append_singleton steps step ih =>
    rw [ofSteps_concat]
    cases step with
    | file path text => exact nodup_addKeys ih _
    | dir path => exact nodup_addKeys ih _
    | deny path => exact ih

/-! ### Files -/

theorem get?_files_apply (tree : MemoryTree) (step : Step) (key : List Part) :
    (step.apply tree).files.get? key = (step.textAt? key).or (tree.files.get? key) := by
  cases step with
  | file path text =>
    refine (OrderedMap.get?_insert ..).trans ?_
    by_cases h : key = path.parts
    · simp [Step.textAt?, h]
    · simp [Step.textAt?, h, Ne.symm h]
  | dir path => rfl
  | deny path => rfl

/-- A file has the last text that a step gives it. -/
theorem get?_files_ofSteps (steps : List Step) (key : List Part) :
    (ofSteps steps).files.get? key = (textsAt steps key).getLast? := by
  induction steps using List.reverseRecOn with
  | nil => rfl
  | append_singleton steps step ih =>
    rw [ofSteps_concat, get?_files_apply, ih, textsAt, textsAt, List.filterMap_append]
    cases h : step.textAt? key <;> simp [h]

theorem textsAt_ne_nil_iff {steps : List Step} {key : List Part} :
    textsAt steps key ≠ [] ↔ ∃ path text, .file path text ∈ steps ∧ path.parts = key := by
  constructor
  · intro h
    obtain ⟨text, htext⟩ := List.exists_mem_of_ne_nil _ h
    obtain ⟨step, hstep, hgiven⟩ := List.mem_filterMap.1 htext
    cases step with
    | file path text' =>
      by_cases hpath : path.parts = key
      · exact ⟨path, text', hstep, hpath⟩
      · simp [Step.textAt?, hpath] at hgiven
    | dir path => cases hgiven
    | deny path => cases hgiven
  · rintro ⟨path, text, hstep, hpath⟩
    exact List.ne_nil_of_mem (List.mem_filterMap.2 ⟨_, hstep, if_pos hpath⟩)

theorem textsAt_eq_nil {steps : List Step} {key : List Part}
    (h : ¬ ∃ path : Path, path.parts = key) : textsAt steps key = [] := by
  by_contra hne
  obtain ⟨path, _, -, hpath⟩ := textsAt_ne_nil_iff.1 hne
  exact h ⟨path, hpath⟩

theorem mem_files_ofSteps {steps : List Step} {key : List Part} :
    key ∈ (ofSteps steps).files.keys ↔ textsAt steps key ≠ [] := by
  rw [OrderedMap.mem_keys_iff, get?_files_ofSteps, ← Option.isSome_iff_exists,
    List.getLast?_isSome]

/-! ### Barred paths -/

theorem mem_barred_ofSteps {steps : List Step} {key : List Part} :
    key ∈ (ofSteps steps).barred ↔ ∃ path, .deny path ∈ steps ∧ path.parts = key := by
  induction steps using List.reverseRecOn with
  | nil => simp [ofSteps]
  | append_singleton steps step ih =>
    rw [ofSteps_concat]
    cases step with
    | file path text => simpa [Step.apply, withFile] using ih
    | dir path => simpa [Step.apply, withDir] using ih
    | deny path =>
      have happly : key ∈ (Step.apply (ofSteps steps) (.deny path)).barred ↔
          key = path.parts ∨ key ∈ (ofSteps steps).barred := List.mem_insert_iff
      rw [happly, ih]
      simp only [List.mem_append, List.mem_singleton, Step.deny.injEq, or_and_right, exists_or,
        exists_eq_left]
      rw [or_comm, eq_comm]

/-! ## Paths of names -/

/-- The path has nothing but names behind its root, if it has one, and at least one name. -/
def IsOfNames (path : Path) : Prop :=
  path.fileName?.isSome ∧ .here ∉ path.parts ∧ .up ∉ path.parts

instance (path : Path) : Decidable (IsOfNames path) :=
  inferInstanceAs (Decidable (_ ∧ _ ∧ _))

theorem IsOfNames.exists_concat {path : Path} (h : IsOfNames path) :
    ∃ front name, path.parts = front ++ [.name name] := by
  obtain ⟨name, hname⟩ := Option.isSome_iff_exists.1 h.1
  obtain ⟨front, hparts⟩ := Path.exists_parts_of_fileName? hname
  exact ⟨front, name, hparts⟩

theorem IsOfNames.cases_of_isPrefix {path : Path} (h : IsOfNames path) {key : List Part}
    (hkey : key <+: path.parts) :
    key = [] ∨ key = [.root] ∨ ∃ front name, key = front ++ [.name name] := by
  rcases List.eq_nil_or_concat' key with rfl | ⟨front, part, rfl⟩
  · exact Or.inl rfl
  · have hmem : part ∈ path.parts := hkey.subset (List.mem_append_right _ List.mem_cons_self)
    cases part with
    | root =>
      -- The root is the first part, if it is a part.
      obtain ⟨below, hbelow⟩ := hkey
      have hfront : front = [] := by
        by_contra hne
        refine path.root_notMem_tail_parts ?_
        rw [← hbelow, List.append_assoc, List.tail_append_of_ne_nil hne]
        exact List.mem_append_right _ List.mem_cons_self
      exact Or.inr (Or.inl (by rw [hfront, List.nil_append]))
    | here => exact absurd hmem h.2.1
    | up => exact absurd hmem h.2.2
    | name name => exact Or.inr (Or.inr ⟨front, name, rfl⟩)

theorem isPrefix_of_mem_dirKeys {step : Step} {key : List Part} (h : key ∈ step.dirKeys) :
    key <+: step.path.parts := by
  cases step with
  | file path text => exact (mem_keysAbove.1 h).1
  | dir path =>
    rcases List.mem_cons.1 h with rfl | h
    · exact List.prefix_refl _
    · exact (mem_keysAbove.1 h).1
  | deny path => cases h

theorem parentKey?_mem_dirKeys {step : Step} {key above : List Part} (h : key ∈ step.dirKeys)
    (habove : parentKey? key = some above) : above ∈ step.dirKeys := by
  cases step with
  | file path text => exact parentKey?_mem_keysAbove (List.mem_cons_of_mem _ h) habove
  | dir path => exact List.mem_cons_of_mem _ (parentKey?_mem_keysAbove h habove)
  | deny path => cases h

/-! ## What a tree shows -/

/-- The tree has a directory at the path. -/
def HasDir (tree : MemoryTree) (path : Path) : Prop :=
  path.parts ∈ tree.dirs

instance (tree : MemoryTree) (path : Path) : Decidable (tree.HasDir path) :=
  inferInstanceAs (Decidable (_ ∈ _))

/-- A step bars the path. -/
def IsDenied (steps : List Step) (path : Path) : Prop :=
  ∃ other, .deny other ∈ steps ∧ other.parts = path.parts

/-- The path has a parent, which is a directory whose listing has the name of the path once. -/
def IsListed (tree : MemoryTree) (names : Listing → List String) (path : Path) : Prop :=
  ∃ parent name, path.parent? = some parent ∧ path.fileName? = some name ∧ tree.HasDir parent ∧
    ∀ listing, tree.list parent = .ok listing → (names listing).count name = 1

/-- The listings and texts of a tree fit together, and fit the steps in which it was built. -/
structure IsConsistent (tree : MemoryTree) (steps : List Step) : Prop where
  hasDir_parent : ∀ path parent, tree.HasDir path → path.parent? = some parent →
    tree.HasDir parent
  list_iff : ∀ path, (∃ listing, tree.list path = .ok listing) ↔
    tree.HasDir path ∧ ¬ IsDenied steps path
  dir_listed : ∀ path, tree.HasDir path → path.parts ≠ [] → path.parts ≠ [.root] →
    tree.IsListed Listing.dirs path
  file_listed : ∀ path, textsAt steps path.parts ≠ [] → tree.IsListed Listing.files path
  ordered : ∀ path listing, tree.list path = .ok listing →
    (listing.files.Pairwise fun name other => Text.bytes name < Text.bytes other) ∧
      listing.dirs.Pairwise fun name other => Text.bytes name < Text.bytes other
  read_listed : ∀ path listing, tree.list path = .ok listing → ∀ name ∈ listing.files,
    ¬ IsDenied steps (path.join name) → ∃ text,
      (textsAt steps (path.join name).parts).getLast? = some text ∧
        tree.read (path.join name) = .ok text
  list_listed : ∀ path listing, tree.list path = .ok listing → ∀ name ∈ listing.dirs,
    ¬ IsDenied steps (path.join name) → ∃ below, tree.list (path.join name) = .ok below
  denied : ∀ path, IsDenied steps path →
    tree.list path = .error (.denied path) ∧ tree.read path = .error (.denied path)

theorem list_eq_ok_iff {tree : MemoryTree} {path : Path} {listing : Listing} :
    tree.list path = .ok listing ↔ path.parts ∉ tree.barred ∧ tree.HasDir path ∧
      listing = ⟨namesBelow path.parts tree.files.keys, namesBelow path.parts tree.dirs⟩ := by
  unfold list HasDir
  split_ifs with hbarred hdir <;> simp_all [eq_comm]

theorem exists_list_iff {tree : MemoryTree} {path : Path} :
    (∃ listing, tree.list path = .ok listing) ↔ tree.HasDir path ∧ path.parts ∉ tree.barred := by
  simp only [list_eq_ok_iff, exists_and_left, exists_eq, and_true]
  exact and_comm

theorem isDenied_iff {steps : List Step} {path : Path} :
    IsDenied steps path ↔ path.parts ∈ (ofSteps steps).barred :=
  mem_barred_ofSteps.symm

theorem read_ofSteps {steps : List Step} {path : Path} {text : String} (h : ¬ IsDenied steps path)
    (htext : (textsAt steps path.parts).getLast? = some text) :
    (ofSteps steps).read path = .ok text := by
  rw [isDenied_iff] at h
  rw [read, if_neg (by simpa using h), get?_files_ofSteps, htext]

/-- A path that ends in a name is listed where the key of its name is. -/
theorem isListed_of_concat {tree : MemoryTree} {names : Listing → List String} {path : Path}
    {front : List Part} {name : String} (hpath : path.parts = front ++ [.name name])
    (hfront : front ∈ tree.dirs)
    (h : ∀ parent listing, parent.parts = front → tree.list parent = .ok listing →
      (names listing).count name = 1) : tree.IsListed names path := by
  have hname : path.fileName? = some name := by rw [Path.fileName?, hpath, List.getLast?_concat]
  obtain ⟨parent, hparent⟩ := Path.exists_parent?_of_fileName? hname
  have hparts : parent.parts = front := by
    rw [(Path.parts_parent? hparent).2, hpath, List.dropLast_concat]
  exact ⟨parent, name, hparent, hname, by rwa [HasDir, hparts],
    fun listing hlisting => h parent listing hparts hlisting⟩

section Built

variable {steps : List Step}

theorem endInNames_dirs (h : ∀ step ∈ steps, IsOfNames step.path) :
    EndInNames (ofSteps steps).dirs := by
  intro key hkey
  obtain ⟨step, hstep, hmem⟩ := mem_dirs_ofSteps.1 hkey
  exact (h step hstep).cases_of_isPrefix (isPrefix_of_mem_dirKeys hmem)

theorem endInNames_files (h : ∀ step ∈ steps, IsOfNames step.path) :
    EndInNames (ofSteps steps).files.keys := by
  intro key hkey
  obtain ⟨path, text, hstep, rfl⟩ := textsAt_ne_nil_iff.1 (mem_files_ofSteps.1 hkey)
  exact (h _ hstep).cases_of_isPrefix (List.prefix_refl _)

theorem parts_join_of_isPrefix {path other : Path} {name : String}
    (h : path.parts ++ [.name name] <+: other.parts) :
    (path.join name).parts = path.parts ++ [.name name] :=
  Path.parts_join path (Path.isPlain_of_mem_parts (h.subset (List.mem_append_right _
    List.mem_cons_self)))

theorem hasDir_parent_ofSteps {path parent : Path} (h : (ofSteps steps).HasDir path)
    (hparent : path.parent? = some parent) : (ofSteps steps).HasDir parent := by
  have hkey : parentKey? path.parts = some parent.parts := by
    rw [parentKey?_parts, hparent, Option.map_some]
  obtain ⟨step, hstep, hmem⟩ := mem_dirs_ofSteps.1 h
  exact mem_dirs_ofSteps.2 ⟨step, hstep, parentKey?_mem_dirKeys hmem hkey⟩

theorem dir_listed_ofSteps (h : ∀ step ∈ steps, IsOfNames step.path) {path : Path}
    (hpath : (ofSteps steps).HasDir path) (hne : path.parts ≠ []) (hroot : path.parts ≠ [.root]) :
    (ofSteps steps).IsListed Listing.dirs path := by
  have hends := endInNames_dirs h
  rcases hends _ hpath with hnil | hnil | ⟨front, name, hparts⟩
  · exact absurd hnil hne
  · exact absurd hnil hroot
  · obtain ⟨step, hstep, hmem⟩ := mem_dirs_ofSteps.1 hpath
    have hkey : parentKey? path.parts = some front := hparts ▸ parentKey?_concat_name front name
    have hfront : front ∈ step.dirKeys := parentKey?_mem_dirKeys hmem hkey
    refine isListed_of_concat hparts (mem_dirs_ofSteps.2 ⟨step, hstep, hfront⟩) ?_
    rintro parent listing rfl hlisting
    obtain ⟨-, -, rfl⟩ := list_eq_ok_iff.1 hlisting
    exact count_namesBelow hends (nodup_dirs_ofSteps steps) (hparts ▸ hpath)

theorem file_listed_ofSteps (h : ∀ step ∈ steps, IsOfNames step.path) {path : Path}
    (hpath : textsAt steps path.parts ≠ []) : (ofSteps steps).IsListed Listing.files path := by
  have hends := endInNames_files h
  obtain ⟨other, text, hstep, hother⟩ := textsAt_ne_nil_iff.1 hpath
  obtain ⟨front, name, hparts⟩ : ∃ front name, other.parts = front ++ [.name name] :=
    (h _ hstep).exists_concat
  have hkey : parentKey? other.parts = some front := hparts ▸ parentKey?_concat_name front name
  have hfront : front ∈ keysAbove other.parts := parentKey?_mem_keysAbove List.mem_cons_self hkey
  rw [hother] at hparts
  refine isListed_of_concat hparts (mem_dirs_ofSteps.2 ⟨_, hstep, hfront⟩) ?_
  rintro parent listing rfl hlisting
  obtain ⟨-, -, rfl⟩ := list_eq_ok_iff.1 hlisting
  have hmem : parent.parts ++ [.name name] ∈ (ofSteps steps).files.keys :=
    hparts ▸ mem_files_ofSteps.2 hpath
  exact count_namesBelow hends (ofSteps steps).files.nodup_keys hmem

theorem ordered_ofSteps (h : ∀ step ∈ steps, IsOfNames step.path) {path : Path} {listing : Listing}
    (hlisting : (ofSteps steps).list path = .ok listing) :
    (listing.files.Pairwise fun name other => Text.bytes name < Text.bytes other) ∧
      listing.dirs.Pairwise fun name other => Text.bytes name < Text.bytes other := by
  obtain ⟨-, -, rfl⟩ := list_eq_ok_iff.1 hlisting
  exact ⟨pairwise_namesBelow (endInNames_files h) (ofSteps steps).files.nodup_keys,
    pairwise_namesBelow (endInNames_dirs h) (nodup_dirs_ofSteps steps)⟩

theorem read_listed_ofSteps (h : ∀ step ∈ steps, IsOfNames step.path) {path : Path}
    {listing : Listing} (hlisting : (ofSteps steps).list path = .ok listing) {name : String}
    (hname : name ∈ listing.files) (hfree : ¬ IsDenied steps (path.join name)) :
    ∃ text, (textsAt steps (path.join name).parts).getLast? = some text ∧
      (ofSteps steps).read (path.join name) = .ok text := by
  obtain ⟨-, -, rfl⟩ := list_eq_ok_iff.1 hlisting
  have hkey := mem_files_ofSteps.1 ((mem_namesBelow (endInNames_files h)).1 hname)
  obtain ⟨other, _, -, hother⟩ := textsAt_ne_nil_iff.1 hkey
  have hbefore : path.parts ++ [.name name] <+: other.parts := hother ▸ List.prefix_rfl
  have hparts := parts_join_of_isPrefix hbefore
  obtain ⟨text, htext⟩ := Option.isSome_iff_exists.1 (List.getLast?_isSome.2 (hparts ▸ hkey))
  exact ⟨text, htext, read_ofSteps hfree htext⟩

theorem list_listed_ofSteps (h : ∀ step ∈ steps, IsOfNames step.path) {path : Path}
    {listing : Listing} (hlisting : (ofSteps steps).list path = .ok listing) {name : String}
    (hname : name ∈ listing.dirs) (hfree : ¬ IsDenied steps (path.join name)) :
    ∃ below, (ofSteps steps).list (path.join name) = .ok below := by
  obtain ⟨-, -, rfl⟩ := list_eq_ok_iff.1 hlisting
  have hkey := (mem_namesBelow (endInNames_dirs h)).1 hname
  obtain ⟨step, -, hmem⟩ := mem_dirs_ofSteps.1 hkey
  have hparts : (path.join name).parts = path.parts ++ [.name name] :=
    parts_join_of_isPrefix (isPrefix_of_mem_dirKeys hmem)
  exact exists_list_iff.2 ⟨by rwa [HasDir, hparts], fun hbarred => hfree (isDenied_iff.2 hbarred)⟩

theorem isConsistent_ofSteps (h : ∀ step ∈ steps, IsOfNames step.path) :
    (ofSteps steps).IsConsistent steps where
  hasDir_parent _ _ := hasDir_parent_ofSteps
  list_iff path := by rw [exists_list_iff, isDenied_iff]
  dir_listed _ := dir_listed_ofSteps h
  file_listed _ := file_listed_ofSteps h
  ordered _ _ := ordered_ofSteps h
  read_listed _ _ hlisting _ := read_listed_ofSteps h hlisting
  list_listed _ _ hlisting _ := list_listed_ofSteps h hlisting
  denied path hpath := by
    have hbarred : path.parts ∈ (ofSteps steps).barred := isDenied_iff.1 hpath
    exact ⟨if_pos (by simpa using hbarred), if_pos (by simpa using hbarred)⟩

/-! ## The order of steps -/

/-- Trees show the same if they have the same directories, files and barred paths. -/
theorem view_congr {tree other : MemoryTree} (hdirs : tree.dirs.Perm other.dirs)
    (hkeys : tree.files.keys.Perm other.files.keys)
    (hfiles : ∀ key, tree.files.get? key = other.files.get? key)
    (hbarred : ∀ key, key ∈ tree.barred ↔ key ∈ other.barred) : tree.view = other.view := by
  have hbarred' (path : Path) :
      tree.barred.contains path.parts = other.barred.contains path.parts := by
    rw [Bool.eq_iff_iff, List.contains_iff_mem, List.contains_iff_mem, hbarred]
  have hdirs' (path : Path) : tree.dirs.contains path.parts = other.dirs.contains path.parts := by
    rw [Bool.eq_iff_iff, List.contains_iff_mem, List.contains_iff_mem, hdirs.mem_iff]
  have hlist : tree.list = other.list := by
    funext path
    rw [list, list, hbarred', hdirs', namesBelow_perm hdirs, namesBelow_perm hkeys]
  have hread : tree.read = other.read := by
    funext path
    rw [read, read, hbarred', hfiles]
  rw [view, view, hlist, hread]

theorem mem_dirs_perm {steps' : List Step} (h : steps.Perm steps') {key : List Part} :
    key ∈ (ofSteps steps).dirs ↔ key ∈ (ofSteps steps').dirs := by
  rw [mem_dirs_ofSteps, mem_dirs_ofSteps]
  simp only [h.mem_iff]

theorem view_perm {steps' : List Step} (h : steps.Perm steps')
    (hlast : ∀ path : Path, (textsAt steps path.parts).getLast? =
      (textsAt steps' path.parts).getLast?) :
    (ofSteps steps).view = (ofSteps steps').view := by
  have hfiles (key : List Part) : (ofSteps steps).files.get? key =
      (ofSteps steps').files.get? key := by
    rw [get?_files_ofSteps, get?_files_ofSteps]
    by_cases hkey : ∃ path : Path, path.parts = key
    · obtain ⟨path, rfl⟩ := hkey
      exact hlast path
    · rw [textsAt_eq_nil hkey, textsAt_eq_nil hkey]
  have hkeys (key : List Part) :
      key ∈ (ofSteps steps).files.keys ↔ key ∈ (ofSteps steps').files.keys := by
    rw [OrderedMap.mem_keys_iff, OrderedMap.mem_keys_iff, hfiles]
  have hbarred (key : List Part) :
      key ∈ (ofSteps steps).barred ↔ key ∈ (ofSteps steps').barred := by
    rw [mem_barred_ofSteps, mem_barred_ofSteps]
    simp only [h.mem_iff]
  -- What is listed may come from the keys in another order.
  refine view_congr ?_ ?_ hfiles hbarred
  · exact (List.perm_ext_iff_of_nodup (nodup_dirs_ofSteps _) (nodup_dirs_ofSteps _)).2
      fun _ => mem_dirs_perm h
  · exact (List.perm_ext_iff_of_nodup (OrderedMap.nodup_keys _) (OrderedMap.nodup_keys _)).2 hkeys

end Built

/--
A tree built in any number of steps on paths of names is consistent. Its directories, listings and
texts do not depend on the order of the steps, if each file is given the same text at last.
-/
theorem ofSteps_consistent {steps : List Step} (h : ∀ step ∈ steps, IsOfNames step.path) :
    (ofSteps steps).IsConsistent steps ∧
    ∀ steps', steps.Perm steps' →
      (∀ path : Path, (textsAt steps path.parts).getLast? =
        (textsAt steps' path.parts).getLast?) →
      (∀ path, (ofSteps steps).HasDir path ↔ (ofSteps steps').HasDir path) ∧
        (ofSteps steps).view = (ofSteps steps').view :=
  ⟨isConsistent_ofSteps h, fun _ hperm hlast =>
    ⟨fun _ => mem_dirs_perm hperm, view_perm hperm hlast⟩⟩

/-- A tree with a file that is a directory as well, a text given twice and a barred directory. -/
theorem ofSteps_consistent_attic :
    let steps : List Step := [.file ⟨"attic/box"⟩ "old", .deny ⟨"attic/safe"⟩, .dir ⟨"/attic"⟩,
      .file ⟨"attic/safe/ring"⟩ "gold", .file ⟨"attic/box/hat"⟩ "felt", .file ⟨"attic/box"⟩ "new"]
    let steps' : List Step := [.file ⟨"attic/box/hat"⟩ "felt", .dir ⟨"/attic"⟩,
      .file ⟨"attic/box"⟩ "old", .file ⟨"attic/safe/ring"⟩ "gold", .file ⟨"attic/box"⟩ "new",
      .deny ⟨"attic/safe"⟩]
    (∀ step ∈ steps, IsOfNames step.path) ∧ (ofSteps steps).IsConsistent steps ∧
      textsAt steps (⟨"attic/box"⟩ : Path).parts = ["old", "new"] ∧
      (ofSteps steps).read ⟨"attic/box"⟩ = .ok "new" ∧
      (ofSteps steps).HasDir ⟨"attic/box"⟩ ∧
      (ofSteps steps).HasDir ⟨"attic/safe"⟩ ∧ IsDenied steps ⟨"attic/safe"⟩ ∧
      (∀ path, (ofSteps steps).HasDir path ↔ (ofSteps steps').HasDir path) ∧
      (ofSteps steps).view = (ofSteps steps').view := by
  intro steps steps'
  have hnames : ∀ step ∈ steps, IsOfNames step.path := by decide +kernel
  have hperm : steps.Perm steps' := by decide +kernel
  have hlast (path : Path) : (textsAt steps path.parts).getLast? =
      (textsAt steps' path.parts).getLast? := by
    by_cases hhat : (⟨"attic/box/hat"⟩ : Path).parts = path.parts
    · rw [← hhat]
      decide +kernel
    · have htexts : textsAt steps path.parts = textsAt steps' path.parts := by
        simp [textsAt, List.filterMap_cons, Step.textAt?, steps, steps', hhat]
      rw [htexts]
  obtain ⟨hconsistent, horder⟩ := ofSteps_consistent hnames
  obtain ⟨hdirs, hview⟩ := horder steps' hperm hlast
  exact ⟨hnames, hconsistent, by decide +kernel, by decide +kernel, by decide +kernel,
    by decide +kernel, ⟨⟨"attic/safe"⟩, by decide +kernel, rfl⟩, hdirs, hview⟩

end SiteSurvey.MemoryTree
