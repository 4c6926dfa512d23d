import Mathlib.Data.String.Basic
import SiteSurvey.Proofs.Source.Slices
import SiteSurvey.Proofs.Source.Unmatched

/-!
# Cutting texts one after another

A text with as many openers as closers leaves no group open behind it, so the groups of two texts in
a row are the groups of the first and then those of the second (`groups_append`). Each group by
itself is its own only group (`Encloses.groups_eq`). A text is thus cut into what any slicing of it
says (`groups_eq_ok_iff`).
-/

namespace SiteSurvey.Source

/-- The fault of a text as it stands with `size` bytes more before that text. -/
def Unmatched.behind (size : Nat) (fault : Unmatched) : Unmatched :=
  ⟨fault.glyph, size + fault.offset⟩

namespace Bracket

variable {bracket : Bracket}

/-! ## Behind another text -/

/-- The offset of a text only moves the place of its fault. -/
theorem groupsFrom_add (size offset depth : Nat) (held text : List Char) :
    bracket.groupsFrom (size + offset) depth held text =
      (bracket.groupsFrom offset depth held text).mapError (Unmatched.behind size) := by
  induction depth, text using bracket.depth_induction generalizing offset held with
  | nil depth => rfl
  | opener depth text ih => rw [groupsFrom_opener, groupsFrom_opener, Nat.add_assoc, ih]
  | unmatched text =>
    rw [groupsFrom_closer_zero, groupsFrom_closer_zero]
    rfl
  | outermost text ih =>
    rw [groupsFrom_closer_one, groupsFrom_closer_one, Nat.add_assoc, ih]
    cases bracket.groupsFrom (offset + bracket.closer.utf8Size) 0 [] text <;> rfl
  | nested depth text ih => rw [groupsFrom_closer_succ, groupsFrom_closer_succ, Nat.add_assoc, ih]
  | other depth c text ho hc ih =>
    rw [groupsFrom_other _ _ _ _ ho hc, groupsFrom_other _ _ _ _ ho hc, Nat.add_assoc, ih]

/-- Behind a text that closes all open groups, cutting begins anew. -/
theorem groupsFrom_append {depth : Nat} {held text : List Char} {groups : List (List Char)}
    (offset : Nat) (hheld : depth = 0 → held = [])
    (h : bracket.groupsFrom offset depth held text = .ok groups)
    (hs : depth + text.count bracket.opener = text.count bracket.closer) (rest : List Char) :
    bracket.groupsFrom offset depth held (text ++ rest) =
      (bracket.groupsFrom (offset + String.utf8Len text) 0 [] rest).map (groups ++ ·) := by
  have hne := opener_ne_closer bracket
  -- at depth 0 nothing is held, so the rest is cut as from the beginning of a text
  induction depth, text using bracket.depth_induction generalizing offset held groups with
  | nil depth =>
    obtain rfl : depth = 0 := by simpa using hs
    obtain rfl := hheld rfl
    cases h
    rw [List.nil_append, String.utf8Len_nil, Nat.add_zero]
    cases bracket.groupsFrom offset 0 [] rest <;> rfl
  | opener depth text ih =>
    rw [List.count_cons_self, List.count_cons_of_ne hne] at hs
    rw [groupsFrom_opener] at h
    rw [List.cons_append, groupsFrom_opener, add_utf8Len_cons]
    exact ih _ (fun e => absurd e (Nat.succ_ne_zero _)) h (by omega)
  | unmatched text =>
    rw [groupsFrom_closer_zero] at h
    cases h
  | outermost text ih =>
    rw [List.count_cons_self, List.count_cons_of_ne hne.symm] at hs
    obtain ⟨later, hlater, rfl⟩ := (groupsFrom_closer_one_eq_ok_iff ..).1 h
    rw [List.cons_append, groupsFrom_closer_one, ih _ (fun _ => rfl) hlater (by omega),
      add_utf8Len_cons]
    cases bracket.groupsFrom (offset + bracket.closer.utf8Size + String.utf8Len text) 0 []
      rest <;> rfl
  | nested depth text ih =>
    rw [List.count_cons_self, List.count_cons_of_ne hne.symm] at hs
    rw [groupsFrom_closer_succ] at h
    rw [List.cons_append, groupsFrom_closer_succ, add_utf8Len_cons]
    exact ih _ (fun e => absurd e (Nat.succ_ne_zero _)) h (by omega)
  | other depth c text ho hc ih =>
    rw [List.count_cons_of_ne ho, List.count_cons_of_ne hc] at hs
    rw [groupsFrom_other _ _ _ _ ho hc] at h
    rw [List.cons_append, groupsFrom_other _ _ _ _ ho hc, ih _ (fun e => if_pos e) h hs,
      add_utf8Len_cons]

theorem groups_append {text : List Char} {groups : List (List Char)}
    (h : bracket.groups text = .ok groups)
    (hs : text.count bracket.opener = text.count bracket.closer) (rest : List Char) :
    bracket.groups (text ++ rest) =
      ((bracket.groups rest).mapError
        (Unmatched.behind (String.ofList text).utf8ByteSize)).map (groups ++ ·) := by
  have hrest : bracket.groupsFrom (String.utf8Len text) 0 [] rest =
      (bracket.groups rest).mapError (Unmatched.behind (String.utf8Len text)) :=
    groupsFrom_add (String.utf8Len text) 0 0 [] rest
  rw [Bracket.groups, groupsFrom_append 0 (fun _ => rfl) h (by omega), Nat.zero_add, hrest,
    String.utf8ByteSize_ofList]

/-- The top-level groups of a text in order, bare of their own brackets or with them. -/
def cut (bracket : Bracket) (bare : Bool) (text : List Char) :
    Except Unmatched (List (List Char)) :=
  if bare then bracket.contents text else bracket.groups text

theorem cut_append {bare : Bool} {text : List Char} {found : List (List Char)}
    (h : bracket.cut bare text = .ok found)
    (hs : text.count bracket.opener = text.count bracket.closer) (rest : List Char) :
    bracket.cut bare (text ++ rest) =
      ((bracket.cut bare rest).mapError
        (Unmatched.behind (String.ofList text).utf8ByteSize)).map (found ++ ·) := by
  cases bare with
  | false => exact groups_append h hs rest
  | true =>
    change bracket.contents text = .ok found at h
    change bracket.contents (text ++ rest) = ((bracket.contents rest).mapError _).map _
    unfold contents at h ⊢
    rcases hgroups : bracket.groups text with fault | groups
    · rw [hgroups] at h
      cases h
    · rw [hgroups] at h
      cases h
      rw [groups_append hgroups hs]
      cases bracket.groups rest with
      | error fault => rfl
      | ok later => simp [Except.map, Except.mapError]

/-! ## Sound slicings can be cut -/

theorem IsBalanced.closersMatched_append {text rest : List Char} (h : bracket.IsBalanced text)
    (hrest : bracket.ClosersMatched 0 rest) : bracket.ClosersMatched 0 (text ++ rest) := by
  rw [closersMatched_append_iff, h.settled, Nat.zero_add, Nat.sub_self]
  exact ⟨h.matched, hrest⟩

theorem Free.isBalanced {text : List Char} (h : bracket.Free text) : bracket.IsBalanced text := by
  constructor
  · intro start hs
    rw [List.count_eq_zero_of_not_mem fun hm => h.closer (hs.subset hm)]
    exact Nat.zero_le _
  · rw [List.count_eq_zero_of_not_mem h.opener, List.count_eq_zero_of_not_mem h.closer]

theorem Encloses.isBalanced {group : List Char} (h : bracket.Encloses group) :
    bracket.IsBalanced group := by
  refine ⟨fun start hs => ?_, h.settled⟩
  rw [Nat.zero_add]
  by_cases hstart : start = []
  · rw [hstart, List.count_nil]
    exact Nat.zero_le _
  · by_cases hwhole : start = group
    · rw [hwhole, h.settled]
    · exact (h.within start hs hstart hwhole).le

theorem StaysOpen.closersMatched {text : List Char} (h : bracket.StaysOpen text) :
    bracket.ClosersMatched 0 text := by
  rcases h with rfl | ⟨-, hopen⟩
  · exact closersMatched_nil 0
  · intro start hs
    rw [Nat.zero_add]
    by_cases hstart : start = []
    · rw [hstart, List.count_nil]
      exact Nat.zero_le _
    · exact (hopen start hs hstart).le

theorem IsSlicing.closersMatched {slicing : Slicing} (h : bracket.IsSlicing slicing) :
    bracket.ClosersMatched 0 slicing.text := by
  obtain ⟨pieces, gap, unclosed⟩ := slicing
  induction pieces with
  | nil => exact h.gap.isBalanced.closersMatched_append h.unclosed.closersMatched
  | cons piece pieces ih =>
    obtain ⟨hfree, hfrees⟩ := List.forall_mem_cons.1 h.free
    obtain ⟨hgroup, hgroups⟩ := List.forall_mem_cons.1 h.encloses
    have hlater := ih ⟨hfrees, hgroups, h.gap, h.unclosed⟩
    simp only [Slicing.text, List.flatMap_cons, List.append_assoc]
    simp only [Slicing.text] at hlater
    exact hfree.isBalanced.closersMatched_append (hgroup.isBalanced.closersMatched_append hlater)

/-- The text is cut into the groups of its slicing. -/
theorem IsSlicing.groups_eq {slicing : Slicing} (h : bracket.IsSlicing slicing) :
    bracket.groups slicing.text = .ok slicing.groups := by
  obtain ⟨groups, hgroups⟩ := (groupsFrom_isOk_iff 0 0 [] _).2 h.closersMatched
  obtain ⟨other, htext, hother, rfl⟩ := exists_slicing_of_groupsFrom isOpen_nil hgroups
  rw [h.unique hother htext.symm]
  exact htext ▸ hgroups

/-- The text has a slicing into the groups. -/
def SlicesInto (bracket : Bracket) (text : List Char) (groups : List (List Char)) : Prop :=
  ∃ slicing : Slicing, slicing.text = text ∧ bracket.IsSlicing slicing ∧ slicing.groups = groups

theorem groups_eq_ok_iff (text : List Char) (groups : List (List Char)) :
    bracket.groups text = .ok groups ↔ bracket.SlicesInto text groups := by
  constructor
  · exact exists_slicing_of_groupsFrom isOpen_nil
  · rintro ⟨slicing, rfl, hslicing, rfl⟩
    exact hslicing.groups_eq

/-! ## Groups without the text around them -/

theorem encloses_of_mem_groups {text : List Char} {groups : List (List Char)}
    (h : bracket.groups text = .ok groups) : ∀ group ∈ groups, bracket.Encloses group := by
  obtain ⟨slicing, -, hslicing, rfl⟩ := (groups_eq_ok_iff text groups).1 h
  exact List.forall_mem_map.2 hslicing.encloses

theorem groups_flatten {groups : List (List Char)}
    (h : ∀ group ∈ groups, bracket.Encloses group) :
    bracket.groups groups.flatten = .ok groups := by
  refine (groups_eq_ok_iff _ _).2 ⟨⟨groups.map fun group => ([], group), [], []⟩, ?_, ?_, ?_⟩
  · simp [Slicing.text, List.flatMap_map, List.flatMap_id']
  · exact ⟨List.forall_mem_map.2 fun _ _ => free_nil, List.forall_mem_map.2 h, free_nil, Or.inl rfl⟩
  · simp [Slicing.groups, Function.comp_def]

theorem Encloses.groups_eq {group : List Char} (h : bracket.Encloses group) :
    bracket.groups group = .ok [group] := by
  have hone := groups_flatten (List.forall_mem_singleton.2 h)
  rwa [List.flatten_singleton] at hone

end Bracket

end SiteSurvey.Source
