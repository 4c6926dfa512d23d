import Mathlib.Data.List.Forall2
import Mathlib.Data.List.Infix
import SiteSurvey.Proofs.Source.Extent

/-!
# How a text is sliced into groups

A text that can be cut is, in one way only, texts without brackets and groups in turn, and at its
end perhaps a group that is never closed (`Slicing`). The groups are the slices of the text from
each outermost opener to its closer, and without their brackets the slices between the two
(`groups_slicing`).
-/

namespace SiteSurvey.Source

/-! ## Slicings -/

/-- A text in pieces: groups, each with the text before it, and what follows the last of them. -/
structure Slicing where
  /-- Each group behind the text before it. -/
  pieces : List (List Char × List Char)
  /-- The text between the last group and the open one. -/
  gap : List Char
  /-- A group that is never closed, if there is one. -/
  unclosed : List Char

namespace Slicing

def groups (slicing : Slicing) : List (List Char) :=
  slicing.pieces.map Prod.snd

/-- The pieces one after another. -/
def text (slicing : Slicing) : List Char :=
  slicing.pieces.flatMap (fun piece => piece.1 ++ piece.2) ++ (slicing.gap ++ slicing.unclosed)

/-- The slicing of a text that begins with one character more, which is no bracket. -/
def push (c : Char) : Slicing → Slicing
  | ⟨[], gap, unclosed⟩ => ⟨[], c :: gap, unclosed⟩
  | ⟨(before, group) :: pieces, gap, unclosed⟩ => ⟨(c :: before, group) :: pieces, gap, unclosed⟩

theorem groups_push (c : Char) (slicing : Slicing) : (slicing.push c).groups = slicing.groups := by
  rcases slicing with ⟨_ | ⟨⟨before, group⟩, pieces⟩, gap, unclosed⟩ <;> rfl

theorem text_push (c : Char) (slicing : Slicing) :
    (slicing.push c).text = c :: slicing.text := by
  rcases slicing with ⟨_ | ⟨⟨before, group⟩, pieces⟩, gap, unclosed⟩ <;> simp [push, text]

end Slicing

namespace Bracket

variable {bracket : Bracket}

/-! ## Groups and what stays open -/

/--
The text begins with an opener and ends with a closer, has as many of the one as of the other, and
more openers in every beginning but the empty one and itself.
-/
structure Encloses (bracket : Bracket) (group : List Char) : Prop where
  head : group.head? = some bracket.opener
  last : group.getLast? = some bracket.closer
  settled : group.count bracket.opener = group.count bracket.closer
  within : ∀ start, start <+: group → start ≠ [] → start ≠ group →
    start.count bracket.closer < start.count bracket.opener

/-- The text is empty, or begins with an opener behind which the depth never returns to zero. -/
def StaysOpen (bracket : Bracket) (text : List Char) : Prop :=
  text = [] ∨ (text.head? = some bracket.opener ∧
    ∀ start, start <+: text → start ≠ [] →
      start.count bracket.closer < start.count bracket.opener)

/-- The beginning of a group that has reached a depth. -/
structure IsOpen (bracket : Bracket) (depth : Nat) (held : List Char) : Prop where
  depth_eq : held.count bracket.opener = depth + held.count bracket.closer
  within : ∀ start, start <+: held → start ≠ [] →
    start.count bracket.closer < start.count bracket.opener

theorem isOpen_nil : bracket.IsOpen 0 [] :=
  ⟨rfl, fun _ hs hne => absurd (List.prefix_nil.1 hs) hne⟩

theorem IsOpen.eq_nil {held : List Char} (h : bracket.IsOpen 0 held) : held = [] := by
  by_contra hne
  have hdepth := h.depth_eq
  have hwithin := h.within held List.prefix_rfl hne
  omega

theorem IsOpen.ne_nil {depth : Nat} {held : List Char} (h : bracket.IsOpen (depth + 1) held) :
    held ≠ [] := by
  rintro rfl
  simpa using h.depth_eq

theorem IsOpen.head {depth : Nat} {held : List Char} (h : bracket.IsOpen depth held)
    (hne : held ≠ []) : held.head? = some bracket.opener := by
  obtain ⟨c, held, rfl⟩ := List.exists_cons_of_ne_nil hne
  have hc := h.within [c] (List.cons_prefix_cons.2 ⟨rfl, List.nil_prefix⟩) (List.cons_ne_nil c [])
  by_cases ho : c = bracket.opener
  · rw [ho, List.head?_cons]
  · rw [List.count_cons_of_ne ho] at hc
    simp at hc

theorem IsOpen.staysOpen {depth : Nat} {held : List Char} (h : bracket.IsOpen depth held) :
    bracket.StaysOpen held := by
  by_cases hne : held = []
  · exact Or.inl hne
  · exact Or.inr ⟨h.head hne, h.within⟩

/-- One character more of an open group. -/
theorem IsOpen.concat {depth depth' : Nat} {held : List Char} (h : bracket.IsOpen depth held)
    (c : Char) (hd : depth' + [c].count bracket.closer = depth + [c].count bracket.opener)
    (hpos : 0 < depth') : bracket.IsOpen depth' (held ++ [c]) := by
  have hdepth := h.depth_eq
  refine ⟨?_, fun start hs hne => ?_⟩
  · rw [List.count_append, List.count_append]
    omega
  · rcases List.prefix_concat_iff.1 hs with rfl | hs
    · rw [List.count_append, List.count_append]
      omega
    · exact h.within start hs hne

/-- The closer of an outermost group. -/
theorem IsOpen.encloses {held : List Char} (h : bracket.IsOpen 1 held) :
    bracket.Encloses (held ++ [bracket.closer]) := by
  have hne := opener_ne_closer bracket
  have hdepth := h.depth_eq
  refine ⟨?_, List.getLast?_concat .., ?_, fun start hs hstart hwhole => ?_⟩
  · rw [List.head?_append_of_ne_nil _ h.ne_nil]
    exact h.head h.ne_nil
  · rw [List.count_append, List.count_append, List.count_cons_of_ne hne.symm, List.count_cons_self]
    simp only [List.count_nil]
    omega
  · rcases List.prefix_concat_iff.1 hs with rfl | hs
    · exact absurd rfl hwhole
    · exact h.within start hs hstart

/-! ## Sound slicings -/

/-- The pieces of the slicing are what they should be for a kind of bracket. -/
structure IsSlicing (bracket : Bracket) (slicing : Slicing) : Prop where
  free : ∀ piece ∈ slicing.pieces, bracket.Free piece.1
  encloses : ∀ piece ∈ slicing.pieces, bracket.Encloses piece.2
  gap : bracket.Free slicing.gap
  unclosed : bracket.StaysOpen slicing.unclosed

theorem free_nil : bracket.Free [] :=
  ⟨List.not_mem_nil, List.not_mem_nil⟩

theorem Free.cons {c : Char} {text : List Char} (h : bracket.Free text) (ho : c ≠ bracket.opener)
    (hc : c ≠ bracket.closer) : bracket.Free (c :: text) :=
  ⟨fun hm => (List.mem_cons.1 hm).elim (fun e => ho e.symm) h.1,
    fun hm => (List.mem_cons.1 hm).elim (fun e => hc e.symm) h.2⟩

theorem IsSlicing.push {slicing : Slicing} (h : bracket.IsSlicing slicing) {c : Char}
    (ho : c ≠ bracket.opener) (hc : c ≠ bracket.closer) :
    bracket.IsSlicing (slicing.push c) := by
  rcases slicing with ⟨_ | ⟨⟨before, group⟩, pieces⟩, gap, unclosed⟩
  · exact ⟨h.free, h.encloses, h.gap.cons ho hc, h.unclosed⟩
  · obtain ⟨hfree, hfrees⟩ := List.forall_mem_cons.1 h.free
    obtain ⟨hgroup, hgroups⟩ := List.forall_mem_cons.1 h.encloses
    exact ⟨List.forall_mem_cons.2 ⟨hfree.cons ho hc, hfrees⟩,
      List.forall_mem_cons.2 ⟨hgroup, hgroups⟩, h.gap, h.unclosed⟩

theorem IsSlicing.cons {slicing : Slicing} (h : bracket.IsSlicing slicing) {group : List Char}
    (hgroup : bracket.Encloses group) :
    bracket.IsSlicing { slicing with pieces := ([], group) :: slicing.pieces } :=
  ⟨List.forall_mem_cons.2 ⟨free_nil, h.free⟩, List.forall_mem_cons.2 ⟨hgroup, h.encloses⟩, h.gap,
    h.unclosed⟩

/-- The rest of a text together with the open group before it is sliced as it is cut. -/
theorem exists_slicing_of_groupsFrom {offset depth : Nat} {held text : List Char}
    {groups : List (List Char)} (hheld : bracket.IsOpen depth held.reverse)
    (h : bracket.groupsFrom offset depth held text = .ok groups) :
    ∃ slicing : Slicing, slicing.text = held.reverse ++ text ∧ bracket.IsSlicing slicing ∧
      slicing.groups = groups := by
  have hne := opener_ne_closer bracket
  have hmore (held text : List Char) (c : Char) :
      held.reverse ++ c :: text = (c :: held).reverse ++ text := by simp
  induction depth, text using bracket.depth_induction generalizing offset held groups with
  | nil depth =>
    rw [groupsFrom] at h
    cases h
    exact ⟨⟨[], [], held.reverse⟩, by simp [Slicing.text],
      ⟨List.forall_mem_nil _, List.forall_mem_nil _, free_nil, hheld.staysOpen⟩, rfl⟩
  | opener depth text ih =>
    rw [groupsFrom_opener] at h
    rw [hmore]
    refine ih ?_ h
    rw [List.reverse_cons]
    refine hheld.concat _ ?_ (Nat.succ_pos depth)
    rw [List.count_cons_of_ne hne, List.count_cons_self]
    rfl
  | unmatched text =>
    rw [groupsFrom_closer_zero] at h
    cases h
  | outermost text ih =>
    obtain ⟨later, hlater, rfl⟩ := (groupsFrom_closer_one_eq_ok_iff ..).1 h
    obtain ⟨slicing, htext, hslicing, hgroups⟩ := ih isOpen_nil hlater
    refine ⟨_, ?_, hslicing.cons hheld.encloses, ?_⟩
    · rw [List.reverse_nil, List.nil_append] at htext
      rw [← htext]
      simp [Slicing.text]
    · rw [List.reverse_cons, ← hgroups]
      rfl
  | nested depth text ih =>
    rw [groupsFrom_closer_succ] at h
    rw [hmore]
    refine ih ?_ h
    rw [List.reverse_cons]
    refine hheld.concat _ ?_ (Nat.succ_pos depth)
    rw [List.count_cons_of_ne hne.symm, List.count_cons_self]
    rfl
  | other depth c text ho hc ih =>
    rw [groupsFrom_other _ _ _ _ ho hc] at h
    cases depth with
    | zero =>
      rw [if_pos rfl] at h
      obtain ⟨slicing, htext, hslicing, hgroups⟩ := ih isOpen_nil h
      refine ⟨slicing.push c, ?_, hslicing.push ho hc, (slicing.groups_push c).trans hgroups⟩
      rw [slicing.text_push, htext, hheld.eq_nil]
      rfl
    | succ depth =>
      rw [if_neg (Nat.succ_ne_zero depth)] at h
      rw [hmore]
      refine ih ?_ h
      rw [List.reverse_cons]
      refine hheld.concat c ?_ (Nat.succ_pos depth)
      rw [List.count_cons_of_ne ho, List.count_cons_of_ne hc]
      rfl

/-! ## A text has one slicing -/

theorem Encloses.ne_nil {group : List Char} (h : bracket.Encloses group) : group ≠ [] := by
  rintro rfl
  cases h.head

/-- What begins with an opener, if it is not empty, does not begin with another character. -/
theorem Free.ne_append {c : Char} {text rest later : List Char} (h : bracket.Free (c :: text))
    (hrest : rest = [] ∨ rest.head? = some bracket.opener) : rest ≠ c :: text ++ later := by
  rintro rfl
  rcases hrest with hrest | hrest
  · cases hrest
  · cases hrest
    exact h.1 List.mem_cons_self

/-- A text without brackets ends where an opener or nothing comes behind it. -/
theorem Free.append_inj {text other rest later : List Char} (h : bracket.Free text)
    (h' : bracket.Free other) (hrest : rest = [] ∨ rest.head? = some bracket.opener)
    (hlater : later = [] ∨ later.head? = some bracket.opener)
    (e : text ++ rest = other ++ later) : text = other ∧ rest = later := by
  induction text generalizing other with
  | nil =>
    cases other with
    | nil => exact ⟨rfl, e⟩
    | cons c other => exact absurd e (h'.ne_append hrest)
  | cons c text ih =>
    cases other with
    | nil => exact absurd e.symm (h.ne_append hlater)
    | cons d other =>
      rw [List.cons_append, List.cons_append, List.cons.injEq] at e
      obtain ⟨rfl, e⟩ := e
      obtain ⟨rfl, hrest⟩ := ih h.tail h'.tail e
      exact ⟨rfl, hrest⟩

/-- A group at the beginning of another is the other. -/
theorem Encloses.eq_of_prefix {group other : List Char} (h : bracket.Encloses group)
    (h' : bracket.Encloses other) (hbegins : group <+: other) : group = other := by
  by_contra hne
  have hwithin := h'.within group hbegins h.ne_nil hne
  have hsettled := h.settled
  omega

theorem Encloses.append_inj {group other rest later : List Char} (h : bracket.Encloses group)
    (h' : bracket.Encloses other) (e : group ++ rest = other ++ later) :
    group = other ∧ rest = later := by
  have heq : group = other := by
    have hbegins : group <+: other ++ later := e ▸ List.prefix_append group rest
    rcases List.prefix_or_prefix_of_prefix hbegins (List.prefix_append other later) with
      hle | hle
    · exact h.eq_of_prefix h' hle
    · exact (h'.eq_of_prefix h hle).symm
  subst heq
  exact ⟨rfl, List.append_cancel_left e⟩

/-- What stays open does not begin with a group. -/
theorem StaysOpen.not_encloses {text group rest : List Char} (h : bracket.StaysOpen text)
    (hgroup : bracket.Encloses group) : text ≠ group ++ rest := by
  rintro rfl
  rcases h with h | ⟨-, h⟩
  · exact hgroup.ne_nil (List.append_eq_nil_iff.1 h).1
  · have hcount := h group (List.prefix_append ..) hgroup.ne_nil
    have hsettled := hgroup.settled
    omega

theorem Encloses.append_head {group : List Char} (h : bracket.Encloses group)
    (rest : List Char) : (group ++ rest).head? = some bracket.opener := by
  rw [List.head?_append_of_ne_nil _ h.ne_nil, h.head]

theorem StaysOpen.head {text : List Char} (h : bracket.StaysOpen text) :
    text = [] ∨ text.head? = some bracket.opener :=
  h.imp_right And.left

/-- A text has one slicing at most. -/
theorem IsSlicing.unique {slicing other : Slicing} (h : bracket.IsSlicing slicing)
    (h' : bracket.IsSlicing other) (e : slicing.text = other.text) : slicing = other := by
  obtain ⟨pieces, gap, unclosed⟩ := slicing
  obtain ⟨pieces', gap', unclosed'⟩ := other
  induction pieces generalizing pieces' with
  | nil =>
    cases pieces' with
    | nil =>
      obtain ⟨rfl, rfl⟩ := h.gap.append_inj h'.gap h.unclosed.head h'.unclosed.head e
      rfl
    | cons piece pieces' =>
      obtain ⟨before, group⟩ := piece
      have hgroup : bracket.Encloses group := h'.encloses _ List.mem_cons_self
      simp only [Slicing.text, List.flatMap_nil, List.nil_append, List.flatMap_cons,
        List.append_assoc] at e
      obtain ⟨-, hunclosed⟩ := h.gap.append_inj (h'.free _ List.mem_cons_self) h.unclosed.head
        (Or.inr (hgroup.append_head _)) e
      exact absurd hunclosed (h.unclosed.not_encloses hgroup)
  | cons piece pieces ih =>
    obtain ⟨before, group⟩ := piece
    obtain ⟨hfree, hfrees⟩ := List.forall_mem_cons.1 h.free
    obtain ⟨hgroup, hgroups⟩ := List.forall_mem_cons.1 h.encloses
    cases pieces' with
    | nil =>
      simp only [Slicing.text, List.flatMap_nil, List.nil_append, List.flatMap_cons,
        List.append_assoc] at e
      obtain ⟨-, hunclosed⟩ := h'.gap.append_inj hfree h'.unclosed.head
        (Or.inr (hgroup.append_head _)) e.symm
      exact absurd hunclosed (h'.unclosed.not_encloses hgroup)
    | cons piece' pieces' =>
      obtain ⟨before', group'⟩ := piece'
      obtain ⟨hfree', hfrees'⟩ := List.forall_mem_cons.1 h'.free
      obtain ⟨hgroup', hgroups'⟩ := List.forall_mem_cons.1 h'.encloses
      simp only [Slicing.text, List.flatMap_cons, List.append_assoc] at e
      obtain ⟨rfl, hbehind⟩ := hfree.append_inj hfree' (Or.inr (hgroup.append_head _))
        (Or.inr (hgroup'.append_head _)) e
      obtain ⟨rfl, hlater⟩ := hgroup.append_inj hgroup' hbehind
      cases ih ⟨hfrees, hgroups, h.gap, h.unclosed⟩ pieces'
        ⟨hfrees', hgroups', h'.gap, h'.unclosed⟩ hlater
      rfl

/-! ## Groups without their brackets -/

theorem Encloses.eq_inside {group : List Char} (h : bracket.Encloses group) :
    group = bracket.opener :: (inside group ++ [bracket.closer]) := by
  have hne := opener_ne_closer bracket
  obtain ⟨rest, rfl⟩ := List.head?_eq_some_iff.1 h.head
  have hlast := h.last
  rcases List.eq_nil_or_concat rest with rfl | ⟨inner, c, rfl⟩
  · exact absurd (Option.some.inj hlast) hne
  · rw [List.concat_eq_append, ← List.cons_append, List.getLast?_concat, Option.some.injEq] at hlast
    rw [hlast, List.concat_eq_append, inside, List.tail_cons, List.dropLast_concat]

theorem contents_of_groups {text : List Char} {groups : List (List Char)}
    (h : bracket.groups text = .ok groups) : bracket.contents text = .ok (groups.map inside) := by
  rw [contents, h]
  rfl

theorem eq_map_inside {groups : List (List Char)}
    (h : ∀ group ∈ groups, bracket.Encloses group) :
    groups =
      (groups.map inside).map fun content => bracket.opener :: (content ++ [bracket.closer]) := by
  rw [List.map_map]
  refine (List.map_id'' (fun _ => rfl) groups).symm.trans (List.map_congr_left fun group hg => ?_)
  exact (h group hg).eq_inside

/-- The slices by the extents of groups, and what they are without their brackets. -/
theorem map_slices {text : List Char} {extents : List Extent} {groups : List (List Char)}
    (h : List.Forall₂ (IsExtentOf text) extents groups) :
    extents.map (Extent.group? (String.ofList text)) =
        (groups.map fun group => some (String.ofList group)) ∧
      extents.map (Extent.content? (String.ofList text)) =
        (groups.map inside).map fun content => some (String.ofList content) := by
  rw [List.map_map, ← List.forall₂_eq_eq_eq]
  simp only [List.forall₂_map_left_iff, List.forall₂_map_right_iff]
  exact ⟨h.imp fun _ _ hextent => hextent.group_eq, h.imp fun _ _ hextent => hextent.content_eq⟩

/-! ## The whole slicing -/

/--
Cutting a text takes slices that begin and end between characters, up to the fault if there is one.
If there is none, the text has one slicing, whose groups are the groups of the text; these are the
slices with their brackets, and the contents of the text are the slices without them.
-/
theorem groups_slicing (bracket : Bracket) (text : List Char) :
    (∀ extent ∈ (bracket.cuts text).1, (extent.group? (String.ofList text)).isSome ∧
      (extent.content? (String.ofList text)).isSome) ∧
    ∀ groups, bracket.groups text = .ok groups →
      (∃ slicing : Slicing, slicing.text = text ∧ bracket.IsSlicing slicing ∧
        slicing.groups = groups ∧
        ∀ other : Slicing, other.text = text → bracket.IsSlicing other → other = slicing) ∧
      ∃ contents, bracket.contents text = .ok contents ∧
        groups = (contents.map fun content => bracket.opener :: (content ++ [bracket.closer])) ∧
        (bracket.cuts text).1.map (Extent.group? (String.ofList text)) =
          (groups.map fun group => some (String.ofList group)) ∧
        (bracket.cuts text).1.map (Extent.content? (String.ofList text)) =
          contents.map fun content => some (String.ofList content) := by
  obtain ⟨cut, hcut, heq⟩ := bracket.exists_sliced text
  obtain ⟨hslices, hinsides⟩ := map_slices hcut
  refine ⟨fun extent hextent => ⟨?_, ?_⟩, fun groups hgroups => ?_⟩
  · obtain ⟨group, -, hgroup⟩ := List.mem_map.1 (hslices ▸ List.mem_map_of_mem hextent)
    exact Option.isSome_of_eq_some hgroup.symm
  · obtain ⟨content, -, hcontent⟩ := List.mem_map.1 (hinsides ▸ List.mem_map_of_mem hextent)
    exact Option.isSome_of_eq_some hcontent.symm
  · obtain ⟨slicing, htext, hslicing, hs⟩ := exists_slicing_of_groupsFrom isOpen_nil hgroups
    have hencloses : ∀ group ∈ groups, bracket.Encloses group := by
      rw [← hs]
      exact List.forall_mem_map.2 hslicing.encloses
    have hcutgroups : cut = groups := by
      rw [hgroups] at heq
      cases hfault : (bracket.cuts text).2 with
      | none => exact (Except.ok.inj (heq.trans (by rw [hfault]; rfl))).symm
      | some fault => rw [hfault] at heq; cases heq
    subst hcutgroups
    exact ⟨⟨slicing, htext, hslicing, hs, fun other hother h =>
      h.unique hslicing (hother.trans htext.symm)⟩, _, contents_of_groups hgroups,
      eq_map_inside hencloses, hslices, hinsides⟩

/-- Letters of two bytes around and inside groups, and a group that is never closed. -/
theorem groups_slicing_cafe :
    Bracket.round.groups "é(na(ï)ve)·(ok)(é".toList =
        .ok ["(na(ï)ve)".toList, "(ok)".toList] ∧
      (∃ slicing : Slicing, slicing.text = "é(na(ï)ve)·(ok)(é".toList ∧
        Bracket.round.IsSlicing slicing ∧
        slicing.groups = ["(na(ï)ve)".toList, "(ok)".toList] ∧
        ∀ other : Slicing, other.text = "é(na(ï)ve)·(ok)(é".toList →
          Bracket.round.IsSlicing other → other = slicing) ∧
      Bracket.round.cuts "é(na(ï)ve)·(ok)(é".toList = ([⟨2, 11⟩, ⟨14, 17⟩], none) ∧
      [⟨2, 11⟩, ⟨14, 17⟩].map (Extent.content? "é(na(ï)ve)·(ok)(é") =
        [some "na(ï)ve", some "ok"] := by
  have hgroups : Bracket.round.groups "é(na(ï)ve)·(ok)(é".toList =
      .ok ["(na(ï)ve)".toList, "(ok)".toList] := by decide +kernel
  have hcuts : Bracket.round.cuts "é(na(ï)ve)·(ok)(é".toList = ([⟨2, 11⟩, ⟨14, 17⟩], none) := by
    decide +kernel
  have hcontents : Bracket.round.contents "é(na(ï)ve)·(ok)(é".toList =
      .ok ["na(ï)ve".toList, "ok".toList] := by decide +kernel
  obtain ⟨hslicing, contents, hok, -, -, hinsides⟩ :=
    (groups_slicing .round "é(na(ï)ve)·(ok)(é".toList).2 _ hgroups
  obtain rfl := Except.ok.inj (hcontents.symm.trans hok)
  rw [hcuts] at hinsides
  exact ⟨hgroups, hslicing, hcuts, by simpa using hinsides⟩

end Bracket

end SiteSurvey.Source
