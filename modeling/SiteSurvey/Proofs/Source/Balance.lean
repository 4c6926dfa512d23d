import Mathlib.Data.List.Infix
import SiteSurvey.Proofs.Source.Bracket

/-!
# Counting brackets

Cutting a text into groups fails exactly if some beginning of the text has more closers than openers
(`groups_isOk_iff`). Otherwise the groups are the bracketed texts that stand behind a balanced
beginning (`mem_groups_iff`), whatever brackets they hold inside.
-/

namespace SiteSurvey.Source.Bracket

variable {bracket : Bracket}

/-! ## Matched closers -/

/-- Every closer of the text has an opener before it, in the text or among `depth` open ones. -/
def ClosersMatched (bracket : Bracket) (depth : Nat) (text : List Char) : Prop :=
  ∀ start, start <+: text → start.count bracket.closer ≤ depth + start.count bracket.opener

theorem closersMatched_nil (depth : Nat) : bracket.ClosersMatched depth [] := by
  intro start h
  rw [List.prefix_nil.1 h]
  exact Nat.zero_le _

theorem closersMatched_cons_iff (depth : Nat) (c : Char) (text : List Char) :
    bracket.ClosersMatched depth (c :: text) ↔ ∀ start, start <+: text →
      (c :: start).count bracket.closer ≤ depth + (c :: start).count bracket.opener := by
  constructor
  · intro h start hs
    exact h _ (List.cons_prefix_cons.2 ⟨rfl, hs⟩)
  · intro h start hs
    rcases List.prefix_cons_iff.1 hs with rfl | ⟨rest, rfl, hrest⟩
    · exact Nat.zero_le _
    · exact h rest hrest

theorem closersMatched_opener (depth : Nat) (text : List Char) :
    bracket.ClosersMatched depth (bracket.opener :: text) ↔
      bracket.ClosersMatched (depth + 1) text := by
  have hne := opener_ne_closer bracket
  rw [closersMatched_cons_iff]
  refine forall₂_congr fun start _ => ?_
  rw [List.count_cons_of_ne hne, List.count_cons_self]
  omega

theorem closersMatched_closer (depth : Nat) (text : List Char) :
    bracket.ClosersMatched (depth + 1) (bracket.closer :: text) ↔
      bracket.ClosersMatched depth text := by
  have hne := opener_ne_closer bracket
  rw [closersMatched_cons_iff]
  refine forall₂_congr fun start _ => ?_
  rw [List.count_cons_of_ne hne.symm, List.count_cons_self]
  omega

theorem not_closersMatched_closer (text : List Char) :
    ¬ bracket.ClosersMatched 0 (bracket.closer :: text) := by
  have hne := opener_ne_closer bracket
  rw [closersMatched_cons_iff]
  intro h
  have := h [] List.nil_prefix
  rw [List.count_cons_of_ne hne.symm, List.count_cons_self] at this
  simp at this

theorem closersMatched_other {c : Char} (ho : c ≠ bracket.opener) (hc : c ≠ bracket.closer)
    (depth : Nat) (text : List Char) :
    bracket.ClosersMatched depth (c :: text) ↔ bracket.ClosersMatched depth text := by
  rw [closersMatched_cons_iff]
  refine forall₂_congr fun start _ => ?_
  rw [List.count_cons_of_ne ho, List.count_cons_of_ne hc]

theorem groupsFrom_isOk_iff (offset depth : Nat) (held text : List Char) :
    (∃ groups, bracket.groupsFrom offset depth held text = .ok groups) ↔
      bracket.ClosersMatched depth text := by
  induction depth, text using bracket.depth_induction generalizing offset held with
  | nil depth => exact iff_of_true ⟨[], by rw [groupsFrom]⟩ (closersMatched_nil depth)
  | opener depth text ih => rw [groupsFrom_opener, ih, closersMatched_opener]
  | unmatched text =>
    rw [groupsFrom_closer_zero]
    exact iff_of_false (by rintro ⟨_, ⟨⟩⟩) (not_closersMatched_closer text)
  | outermost text ih =>
    rw [groupsFrom_closer_one, closersMatched_closer, ← ih (offset + _) []]
    cases bracket.groupsFrom (offset + bracket.closer.utf8Size) 0 [] text <;> simp [Except.map]
  | nested depth text ih => rw [groupsFrom_closer_succ, ih, closersMatched_closer]
  | other depth c text ho hc ih =>
    rw [groupsFrom_other _ _ _ _ ho hc, ih, closersMatched_other ho hc]

/-- Some beginning of the text has more closers than openers. -/
def HasUnmatched (bracket : Bracket) (text : List Char) : Prop :=
  ∃ start, start <+: text ∧ start.count bracket.opener < start.count bracket.closer

theorem groups_isOk_iff (text : List Char) :
    (∃ groups, bracket.groups text = .ok groups) ↔ ¬ bracket.HasUnmatched text := by
  refine (groupsFrom_isOk_iff 0 0 [] text).trans ?_
  simp [ClosersMatched, HasUnmatched]

/-! ## Groups -/

/-- The text has as many openers as closers, and each closer comes after its opener. -/
structure IsBalanced (bracket : Bracket) (text : List Char) : Prop where
  matched : bracket.ClosersMatched 0 text
  settled : text.count bracket.opener = text.count bracket.closer

/-- The text begins with an opener that its last character, and none before it, closes. -/
def IsGroup (bracket : Bracket) (group : List Char) : Prop :=
  ∃ inner, bracket.IsBalanced inner ∧ group = bracket.opener :: (inner ++ [bracket.closer])

/-- A group that stands in the text outside all others. -/
def IsTopGroup (bracket : Bracket) (text group : List Char) : Prop :=
  bracket.IsGroup group ∧
    ∃ before after, text = before ++ (group ++ after) ∧ bracket.IsBalanced before

/-- The rest of a text closes the open group, of which `held` was read, and so makes it `group`. -/
structure Completes (bracket : Bracket) (depth : Nat) (held rest group inner : List Char) :
    Prop where
  closed : inner ++ [bracket.closer] <+: rest
  settled : inner.count bracket.closer + 1 = depth + inner.count bracket.opener
  within : ∀ start, start <+: inner →
    start.count bracket.closer < depth + start.count bracket.opener
  group_eq : group = held.reverse ++ (inner ++ [bracket.closer])

/-- A group stands in the rest of a text outside all others and outside the open ones. -/
structure StandsIn (bracket : Bracket) (depth : Nat) (rest group before : List Char) : Prop where
  isGroup : bracket.IsGroup group
  stands : before ++ group <+: rest
  settled : before.count bracket.closer = depth + before.count bracket.opener

/-- The rest of a text makes `group` of the open group, or `group` stands in it. -/
def Gives (bracket : Bracket) (depth : Nat) (held rest group : List Char) : Prop :=
  (∃ inner, bracket.Completes depth held rest group inner) ∨
    ∃ before, bracket.StandsIn depth rest group before

/-! ## What a character adds to the groups behind it -/

section Behind

variable {depth depth' : Nat} {held text group : List Char} {c : Char}

theorem count_cons (glyph c : Char) (text : List Char) :
    (c :: text).count glyph = [c].count glyph + text.count glyph := by
  rw [← List.singleton_append, List.count_append]

/-- One character more of the open group. -/
theorem completes_cons_iff
    (hd : depth' + [c].count bracket.closer = depth + [c].count bracket.opener)
    (inner : List Char) :
    bracket.Completes depth held (c :: text) group (c :: inner) ↔
      0 < depth ∧ bracket.Completes depth' (c :: held) text group inner := by
  have heq : held.reverse ++ (c :: inner ++ [bracket.closer]) =
      (c :: held).reverse ++ (inner ++ [bracket.closer]) := by simp
  constructor
  · rintro ⟨hclosed, hsettled, hwithin, hgroup⟩
    refine ⟨hwithin [] List.nil_prefix, ⟨(List.cons_prefix_cons.1 hclosed).2, ?_, ?_, ?_⟩⟩
    · rw [count_cons _ c inner, count_cons _ c inner] at hsettled
      omega
    · intro start hs
      have h := hwithin (c :: start) (List.cons_prefix_cons.2 ⟨rfl, hs⟩)
      rw [count_cons _ c start, count_cons _ c start] at h
      omega
    · rw [hgroup, heq]
  · rintro ⟨hpos, hclosed, hsettled, hwithin, hgroup⟩
    refine ⟨List.cons_prefix_cons.2 ⟨rfl, hclosed⟩, ?_, ?_, ?_⟩
    · rw [count_cons _ c inner, count_cons _ c inner]
      omega
    · intro start hs
      rcases List.prefix_cons_iff.1 hs with rfl | ⟨rest, rfl, hrest⟩
      · exact hpos
      · have h := hwithin rest hrest
        rw [count_cons _ c rest, count_cons _ c rest]
        omega
    · rw [hgroup, heq]

/-- The open group is closed by the next character or by a later one. -/
theorem exists_completes_cons_iff :
    (∃ inner, bracket.Completes depth held (c :: text) group inner) ↔
      (c = bracket.closer ∧ depth = 1 ∧ group = (c :: held).reverse) ∨
        ∃ inner, bracket.Completes depth held (c :: text) group (c :: inner) := by
  constructor
  · rintro ⟨_ | ⟨x, inner⟩, h⟩
    · have hc := (List.cons_prefix_cons.1 h.closed).1
      have hd := h.settled
      have hg := h.group_eq
      simp only [List.count_nil, Nat.zero_add, Nat.add_zero, List.nil_append] at hd hg
      exact Or.inl ⟨hc.symm, hd.symm, by rw [hg, hc, List.reverse_cons]⟩
    · obtain rfl := (List.cons_prefix_cons.1 h.closed).1
      exact Or.inr ⟨inner, h⟩
  · rintro (⟨rfl, rfl, rfl⟩ | ⟨inner, h⟩)
    · refine ⟨[], ⟨List.cons_prefix_cons.2 ⟨rfl, List.nil_prefix⟩, rfl, ?_, by simp⟩⟩
      intro start hs
      rw [List.prefix_nil.1 hs]
      exact Nat.zero_lt_one
    · exact ⟨_, h⟩

theorem standsIn_cons_iff
    (hd : depth' + [c].count bracket.closer = depth + [c].count bracket.opener)
    (before : List Char) :
    bracket.StandsIn depth (c :: text) group (c :: before) ↔
      bracket.StandsIn depth' text group before := by
  constructor
  · rintro ⟨hgroup, hstands, hsettled⟩
    refine ⟨hgroup, (List.cons_prefix_cons.1 hstands).2, ?_⟩
    rw [count_cons _ c before, count_cons _ c before] at hsettled
    omega
  · rintro ⟨hgroup, hstands, hsettled⟩
    refine ⟨hgroup, List.cons_prefix_cons.2 ⟨rfl, hstands⟩, ?_⟩
    rw [count_cons _ c before, count_cons _ c before]
    omega

/-- Nothing is completed where no group is open. -/
theorem not_completes_zero (inner : List Char) :
    ¬ bracket.Completes 0 held text group inner :=
  fun h => absurd (h.within [] List.nil_prefix) (Nat.lt_irrefl 0)

/-- A group stands at the beginning of a text or behind its first character. -/
theorem exists_standsIn_cons_iff :
    (∃ before, bracket.StandsIn depth (c :: text) group before) ↔
      (depth = 0 ∧ bracket.IsGroup group ∧ group <+: c :: text) ∨
        ∃ before, bracket.StandsIn depth (c :: text) group (c :: before) := by
  constructor
  · rintro ⟨_ | ⟨x, before⟩, h⟩
    · have hd := h.settled
      simp only [List.count_nil, Nat.add_zero] at hd
      exact Or.inl ⟨hd.symm, h.isGroup, h.stands⟩
    · obtain rfl := (List.cons_prefix_cons.1 h.stands).1
      exact Or.inr ⟨before, h⟩
  · rintro (⟨rfl, hgroup, hstands⟩ | ⟨before, h⟩)
    · exact ⟨[], ⟨hgroup, hstands, rfl⟩⟩
    · exact ⟨_, h⟩

/-- A group at the beginning of a text is what completes its opener. -/
theorem isGroup_prefix_iff :
    (bracket.IsGroup group ∧ group <+: bracket.opener :: text) ↔
      ∃ inner, bracket.Completes 1 [bracket.opener] text group inner := by
  constructor
  · rintro ⟨⟨inner, hinner, rfl⟩, hprefix⟩
    refine ⟨inner, ⟨(List.cons_prefix_cons.1 hprefix).2, ?_, ?_, rfl⟩⟩
    · rw [hinner.settled, Nat.add_comm]
    · intro start hs
      have h := hinner.matched start hs
      omega
  · rintro ⟨inner, hclosed, hsettled, hwithin, rfl⟩
    refine ⟨⟨inner, ⟨fun start hs => ?_, ?_⟩, rfl⟩, List.cons_prefix_cons.2 ⟨rfl, hclosed⟩⟩
    · have h := hwithin start hs
      omega
    · omega

/-- A group does not begin with another character than its opener. -/
theorem not_isGroup_prefix (ho : c ≠ bracket.opener) :
    ¬ (bracket.IsGroup group ∧ group <+: c :: text) := by
  rintro ⟨⟨inner, -, rfl⟩, hprefix⟩
  exact ho (List.cons_prefix_cons.1 hprefix).1.symm

theorem not_gives_nil : ¬ bracket.Gives depth held [] group := by
  rintro (⟨inner, h⟩ | ⟨before, ⟨inner, -, rfl⟩, h, -⟩)
  · simpa using h.closed
  · simp at h

theorem gives_opener (hheld : depth = 0 → held = []) :
    bracket.Gives depth held (bracket.opener :: text) group ↔
      bracket.Gives (depth + 1) (bracket.opener :: held) text group := by
  have hne := opener_ne_closer bracket
  have hd : depth + 1 + [bracket.opener].count bracket.closer =
      depth + [bracket.opener].count bracket.opener := by
    rw [List.count_cons_of_ne hne]
    simp
  unfold Gives
  rw [exists_completes_cons_iff, exists_standsIn_cons_iff]
  simp only [completes_cons_iff hd, standsIn_cons_iff hd, hne, false_and, false_or]
  cases depth with
  | zero =>
    -- the group that the opener begins stands in the text, and is open behind the opener
    rw [hheld rfl, isGroup_prefix_iff]
    simp
  | succ depth => simp

theorem gives_closer_one :
    bracket.Gives 1 held (bracket.closer :: text) group ↔
      group = (bracket.closer :: held).reverse ∨ bracket.Gives 0 [] text group := by
  have hne := opener_ne_closer bracket
  have hd : 0 + [bracket.closer].count bracket.closer =
      1 + [bracket.closer].count bracket.opener := by
    rw [List.count_cons_of_ne hne.symm]
    simp
  unfold Gives
  rw [exists_completes_cons_iff, exists_standsIn_cons_iff]
  simp [completes_cons_iff hd, standsIn_cons_iff hd, not_completes_zero]

theorem gives_closer_succ :
    bracket.Gives (depth + 2) held (bracket.closer :: text) group ↔
      bracket.Gives (depth + 1) (bracket.closer :: held) text group := by
  have hne := opener_ne_closer bracket
  have hd : depth + 1 + [bracket.closer].count bracket.closer =
      depth + 2 + [bracket.closer].count bracket.opener := by
    rw [List.count_cons_of_ne hne.symm]
    simp
  unfold Gives
  rw [exists_completes_cons_iff, exists_standsIn_cons_iff]
  simp [completes_cons_iff hd, standsIn_cons_iff hd]

theorem gives_other (ho : c ≠ bracket.opener) (hc : c ≠ bracket.closer) :
    bracket.Gives depth held (c :: text) group ↔
      bracket.Gives depth (if depth = 0 then [] else c :: held) text group := by
  have hd : depth + [c].count bracket.closer = depth + [c].count bracket.opener := by
    rw [List.count_cons_of_ne hc, List.count_cons_of_ne ho]
    rfl
  unfold Gives
  rw [exists_completes_cons_iff, exists_standsIn_cons_iff]
  simp only [completes_cons_iff hd, standsIn_cons_iff hd, hc, not_isGroup_prefix ho, false_and,
    and_false, false_or]
  cases depth with
  | zero => simp [not_completes_zero]
  | succ depth => simp

end Behind

/-! ## The groups of a text -/

theorem mem_groupsFrom_iff {offset depth : Nat} {held text : List Char}
    {groups : List (List Char)} (hheld : depth = 0 → held = [])
    (h : bracket.groupsFrom offset depth held text = .ok groups) (group : List Char) :
    group ∈ groups ↔ bracket.Gives depth held text group := by
  induction depth, text using bracket.depth_induction generalizing offset held groups with
  | nil depth =>
    rw [groupsFrom] at h
    cases h
    exact iff_of_false List.not_mem_nil not_gives_nil
  | opener depth text ih =>
    rw [groupsFrom_opener] at h
    rw [gives_opener hheld]
    exact ih (fun e => absurd e (Nat.succ_ne_zero _)) h
  | unmatched text =>
    rw [groupsFrom_closer_zero] at h
    cases h
  | outermost text ih =>
    obtain ⟨later, hlater, rfl⟩ := (groupsFrom_closer_one_eq_ok_iff ..).1 h
    rw [gives_closer_one, List.mem_cons]
    exact or_congr_right (ih (fun _ => rfl) hlater)
  | nested depth text ih =>
    rw [groupsFrom_closer_succ] at h
    rw [gives_closer_succ]
    exact ih (fun e => absurd e (Nat.succ_ne_zero _)) h
  | other depth c text ho hc ih =>
    rw [groupsFrom_other _ _ _ _ ho hc] at h
    rw [gives_other ho hc]
    exact ih (fun e => if_pos e) h

theorem mem_groups_iff {text : List Char} {groups : List (List Char)}
    (h : bracket.groups text = .ok groups) (group : List Char) :
    group ∈ groups ↔ bracket.IsTopGroup text group := by
  have hmatched := (groupsFrom_isOk_iff 0 0 [] text).1 ⟨groups, h⟩
  refine (mem_groupsFrom_iff (fun _ => rfl) h group).trans ?_
  constructor
  · rintro (⟨inner, hc⟩ | ⟨before, hgroup, ⟨after, hafter⟩, hsettled⟩)
    · exact absurd hc (not_completes_zero inner)
    · rw [List.append_assoc] at hafter
      refine ⟨hgroup, before, after, hafter.symm, fun start hs => ?_, ?_⟩
      · exact hmatched start (hs.trans ⟨group ++ after, hafter⟩)
      · rw [hsettled, Nat.zero_add]
  · rintro ⟨hgroup, before, after, rfl, hbefore⟩
    refine Or.inr ⟨before, hgroup, ⟨after, List.append_assoc ..⟩, ?_⟩
    rw [hbefore.settled, Nat.zero_add]

end SiteSurvey.Source.Bracket
