import Mathlib.Data.String.Basic
import SiteSurvey.Proofs.Source.Bracket

/-!
# Groups as slices of bytes

Groups can be cut by the byte offsets of their outermost brackets. Every slice between such offsets
begins and ends between characters, whatever the characters of the text are, and the slices are the
groups, with or without their brackets (`exists_sliced`).
-/

namespace SiteSurvey.Source

/-! ## Slices -/

/--
The part of a text between two byte offsets; none unless both stand before or behind a character of
the text, the first of them not behind the second.
-/
def slice? (text : String) (first last : Nat) : Option String :=
  if String.Pos.Raw.IsValid text ⟨first⟩ ∧ String.Pos.Raw.IsValid text ⟨last⟩ ∧ first ≤ last then
    some (String.Pos.Raw.extract text ⟨first⟩ ⟨last⟩)
  else none

/-- The byte offsets of the opener and the closer of a group in a text. -/
structure Extent where
  opener : Nat
  closer : Nat
  deriving DecidableEq, Repr

namespace Extent

/-- The group itself. -/
def group? (text : String) (extent : Extent) : Option String :=
  slice? text extent.opener (extent.closer + 1)

/-- The group without its brackets. -/
def content? (text : String) (extent : Extent) : Option String :=
  slice? text (extent.opener + 1) extent.closer

end Extent

theorem isValid_append (before after : List Char) :
    String.Pos.Raw.IsValid (String.ofList (before ++ after)) ⟨String.utf8Len before⟩ := by
  rw [String.Pos.Raw.isValid_iff_exists_append]
  exact ⟨String.ofList before, String.ofList after, String.ofList_append,
    (String.rawEndPos_ofList before).symm⟩

theorem slice?_append (before part after : List Char) :
    slice? (String.ofList (before ++ part ++ after)) (String.utf8Len before)
      (String.utf8Len before + String.utf8Len part) = some (String.ofList part) := by
  have hfirst := isValid_append before (part ++ after)
  have hlast := isValid_append (before ++ part) after
  rw [← List.append_assoc] at hfirst
  rw [String.utf8Len_append] at hlast
  rw [slice?, if_pos ⟨hfirst, hlast, Nat.le_add_right ..⟩, String.extract_of_valid]

/-! ## Cutting by offsets -/

namespace Bracket

variable {bracket : Bracket}

/--
The extents of the groups that close in the rest of a text, and the unmatched closer that ends the
cutting if there is one, given the byte offset of the rest, the depth reached before it and the
offset of the last outermost opener.
-/
def cutsFrom (bracket : Bracket) :
    (offset depth start : Nat) → List Char → List Extent × Option Unmatched
  | _, _, _, [] => ([], none)
  | offset, depth, start, c :: rest =>
    if c = bracket.opener then
      cutsFrom bracket (offset + c.utf8Size) (depth + 1) (if depth = 0 then offset else start) rest
    else if c = bracket.closer then
      match depth with
      | 0 => ([], some ⟨c, offset⟩)
      | 1 =>
        let later := cutsFrom bracket (offset + c.utf8Size) 0 start rest
        (⟨start, offset⟩ :: later.1, later.2)
      | depth + 2 => cutsFrom bracket (offset + c.utf8Size) (depth + 1) start rest
    else cutsFrom bracket (offset + c.utf8Size) depth start rest

/-- The extents that are sliced out of a text, and the unmatched closer that ends the cutting. -/
def cuts (bracket : Bracket) (text : List Char) : List Extent × Option Unmatched :=
  cutsFrom bracket 0 0 0 text

section Steps

variable (offset depth start : Nat) (rest : List Char)

theorem cutsFrom_opener :
    bracket.cutsFrom offset depth start (bracket.opener :: rest) =
      bracket.cutsFrom (offset + bracket.opener.utf8Size) (depth + 1)
        (if depth = 0 then offset else start) rest := by
  rw [cutsFrom.eq_def]
  exact if_pos rfl

theorem cutsFrom_closer_zero :
    bracket.cutsFrom offset 0 start (bracket.closer :: rest) =
      ([], some ⟨bracket.closer, offset⟩) := by
  rw [cutsFrom.eq_def]
  exact (if_neg (opener_ne_closer bracket).symm).trans (if_pos rfl)

theorem cutsFrom_closer_one :
    bracket.cutsFrom offset 1 start (bracket.closer :: rest) =
      (⟨start, offset⟩ :: (bracket.cutsFrom (offset + bracket.closer.utf8Size) 0 start rest).1,
        (bracket.cutsFrom (offset + bracket.closer.utf8Size) 0 start rest).2) := by
  rw [cutsFrom.eq_def]
  exact (if_neg (opener_ne_closer bracket).symm).trans (if_pos rfl)

theorem cutsFrom_closer_succ :
    bracket.cutsFrom offset (depth + 2) start (bracket.closer :: rest) =
      bracket.cutsFrom (offset + bracket.closer.utf8Size) (depth + 1) start rest := by
  rw [cutsFrom.eq_def]
  exact (if_neg (opener_ne_closer bracket).symm).trans (if_pos rfl)

theorem cutsFrom_other {c : Char} (ho : c ≠ bracket.opener) (hc : c ≠ bracket.closer) :
    bracket.cutsFrom offset depth start (c :: rest) =
      bracket.cutsFrom (offset + c.utf8Size) depth start rest := by
  rw [cutsFrom.eq_def]
  exact (if_neg ho).trans (if_neg hc)

end Steps

/-! ## The slices are the groups -/

/-- The slices of a text by an extent are a group and its inside. -/
structure IsExtentOf (text : List Char) (extent : Extent) (group : List Char) : Prop where
  group_eq : extent.group? (String.ofList text) = some (String.ofList group)
  content_eq : extent.content? (String.ofList text) = some (String.ofList (inside group))

theorem utf8Size_opener (bracket : Bracket) : bracket.opener.utf8Size = 1 := by
  cases bracket <;> decide

theorem utf8Size_closer (bracket : Bracket) : bracket.closer.utf8Size = 1 := by
  cases bracket <;> decide

theorem isExtentOf_append (before inner after : List Char) :
    IsExtentOf (before ++ (bracket.opener :: inner) ++ bracket.closer :: after)
      ⟨String.utf8Len before, String.utf8Len before + String.utf8Len (bracket.opener :: inner)⟩
      (bracket.opener :: inner ++ [bracket.closer]) := by
  constructor
  · have hslice := slice?_append before (bracket.opener :: inner ++ [bracket.closer]) after
    rw [String.utf8Len_append, String.utf8Len_cons bracket.closer, utf8Size_closer,
      String.utf8Len_nil, Nat.zero_add, ← Nat.add_assoc] at hslice
    simpa [Extent.group?] using hslice
  · have hslice := slice?_append (before ++ [bracket.opener]) inner (bracket.closer :: after)
    rw [String.utf8Len_append, String.utf8Len_cons bracket.opener [], utf8Size_opener,
      String.utf8Len_nil, Nat.zero_add, Nat.add_assoc, Nat.add_comm 1] at hslice
    simpa [Extent.content?, inside, utf8Size_opener] using hslice

/-- The cutting of a text stands behind `before` and `held`, the part of the open group. -/
structure StandsBehind (bracket : Bracket) (text before held rest : List Char)
    (offset depth start : Nat) : Prop where
  text_eq : text = before ++ held.reverse ++ rest
  offset_eq : offset = String.utf8Len before + String.utf8Len held.reverse
  outside : depth = 0 → held = []
  start_eq : 0 < depth → start = String.utf8Len before
  opened : 0 < depth → ∃ inner, held.reverse = bracket.opener :: inner

section Advance

variable {text before held rest : List Char} {offset depth start : Nat} {c : Char}

theorem standsBehind_outside (htext : text = before ++ rest)
    (hoffset : offset = String.utf8Len before) (start : Nat) :
    bracket.StandsBehind text before [] rest offset 0 start :=
  ⟨by rw [htext, List.reverse_nil, List.append_nil], hoffset, fun _ => rfl,
    fun h => absurd h (Nat.lt_irrefl 0), fun h => absurd h (Nat.lt_irrefl 0)⟩

/-- One character more of an open group. -/
theorem StandsBehind.hold
    (h : bracket.StandsBehind text before held (c :: rest) offset depth start) (hpos : 0 < depth)
    {depth' : Nat} (hpos' : 0 < depth') :
    bracket.StandsBehind text before (c :: held) rest (offset + c.utf8Size) depth' start := by
  obtain ⟨inner, hinner⟩ := h.opened hpos
  refine ⟨?_, ?_, fun e => absurd e hpos'.ne', fun _ => h.start_eq hpos,
    fun _ => ⟨inner ++ [c], ?_⟩⟩
  · rw [h.text_eq, List.reverse_cons]
    simp
  · rw [h.offset_eq, List.reverse_cons, String.utf8Len_append, Nat.add_assoc]
    simp
  · rw [List.reverse_cons, hinner, List.cons_append]

theorem StandsBehind.opener
    (h : bracket.StandsBehind text before held (bracket.opener :: rest) offset depth start) :
    bracket.StandsBehind text before (bracket.opener :: held) rest
      (offset + bracket.opener.utf8Size) (depth + 1) (if depth = 0 then offset else start) := by
  cases depth with
  | zero =>
    obtain rfl := h.outside rfl
    have hoffset := h.offset_eq
    rw [List.reverse_nil, String.utf8Len_nil, Nat.add_zero] at hoffset
    refine ⟨?_, ?_, nofun, fun _ => hoffset, fun _ => ⟨[], rfl⟩⟩
    · rw [h.text_eq]
      simp
    · rw [hoffset]
      simp
  | succ depth => exact h.hold (Nat.succ_pos depth) (Nat.succ_pos _)

/-- Behind a character that no group holds. -/
theorem StandsBehind.pass (h : bracket.StandsBehind text before held (c :: rest) offset 0 start) :
    bracket.StandsBehind text (before ++ [c]) [] rest (offset + c.utf8Size) 0 start := by
  obtain rfl := h.outside rfl
  refine standsBehind_outside ?_ ?_ start
  · rw [h.text_eq]
    simp
  · rw [h.offset_eq, String.utf8Len_append]
    simp

/-- Behind the closer of an outermost group. -/
theorem StandsBehind.close
    (h : bracket.StandsBehind text before held (bracket.closer :: rest) offset 1 start) :
    IsExtentOf text ⟨start, offset⟩ (bracket.closer :: held).reverse ∧
      bracket.StandsBehind text (before ++ (bracket.closer :: held).reverse) [] rest
        (offset + bracket.closer.utf8Size) 0 start := by
  obtain ⟨inner, hinner⟩ := h.opened Nat.one_pos
  constructor
  · rw [h.text_eq, h.start_eq Nat.one_pos, h.offset_eq, List.reverse_cons, hinner]
    exact isExtentOf_append before inner rest
  · refine standsBehind_outside ?_ ?_ start
    · rw [h.text_eq, List.reverse_cons]
      simp
    · rw [h.offset_eq, List.reverse_cons, String.utf8Len_append, String.utf8Len_append,
        Nat.add_assoc]
      simp

end Advance

/-- What cutting by offsets slices out are the groups that close before the end or the fault. -/
theorem exists_sliced_from {text before held rest : List Char} {offset depth start : Nat}
    (h : bracket.StandsBehind text before held rest offset depth start) :
    ∃ groups, List.Forall₂ (IsExtentOf text) (bracket.cutsFrom offset depth start rest).1 groups ∧
      bracket.groupsFrom offset depth held rest =
        (bracket.cutsFrom offset depth start rest).2.elim (.ok groups) .error := by
  induction depth, rest using bracket.depth_induction generalizing before held offset start with
  | nil depth => exact ⟨[], List.Forall₂.nil, rfl⟩
  | opener depth rest ih =>
    rw [cutsFrom_opener, groupsFrom_opener]
    exact ih h.opener
  | unmatched rest =>
    rw [cutsFrom_closer_zero, groupsFrom_closer_zero]
    exact ⟨[], List.Forall₂.nil, rfl⟩
  | outermost rest ih =>
    obtain ⟨hextent, hlater⟩ := h.close
    obtain ⟨groups, hgroups, heq⟩ := ih hlater
    rw [cutsFrom_closer_one, groupsFrom_closer_one, heq]
    refine ⟨_, List.Forall₂.cons hextent hgroups, ?_⟩
    cases (bracket.cutsFrom (offset + bracket.closer.utf8Size) 0 start rest).2 <;> rfl
  | nested depth rest ih =>
    rw [cutsFrom_closer_succ, groupsFrom_closer_succ]
    exact ih (h.hold (Nat.succ_pos _) (Nat.succ_pos _))
  | other depth c rest ho hc ih =>
    rw [cutsFrom_other _ _ _ _ ho hc, groupsFrom_other _ _ _ _ ho hc]
    cases depth with
    | zero => exact ih h.pass
    | succ depth =>
      rw [if_neg (Nat.succ_ne_zero depth)]
      exact ih (h.hold (Nat.succ_pos depth) (Nat.succ_pos depth))

/-- The slices that cutting takes of a text are its groups, up to the fault if there is one. -/
theorem exists_sliced (bracket : Bracket) (text : List Char) :
    ∃ groups, List.Forall₂ (IsExtentOf text) (bracket.cuts text).1 groups ∧
      bracket.groups text = (bracket.cuts text).2.elim (.ok groups) .error :=
  exists_sliced_from (standsBehind_outside (List.nil_append text).symm rfl 0)

end Bracket

end SiteSurvey.Source
