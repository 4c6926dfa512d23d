import Mathlib.Data.List.TakeWhile
import SiteSurvey.Proofs.Source.Insertion
import SiteSurvey.Proofs.Text.Occurrence
import SiteSurvey.Proofs.Text.Split

/-!
# What comment removal leaves

A block runs from the first three quotes of a text to the nearest three behind them, and so on
behind the block; what is left without the blocks is said by a relation that holds of one text only
(`removesBlocks_iff`). Line comments are then cut line by line (`withoutLineComments_eq`). Together
these say what comment removal makes of any text (`uncommented_eq_keptOfLines`).
-/

namespace SiteSurvey.Source

open Text

/-! ## Blocks -/

/-- Three quotes stand in the text behind `before`, and `after` follows them. -/
def HasTriple (text before after : List Char) : Prop :=
  text = before ++ (triple ++ after)

/-- The text without its blocks, each from the first three quotes to the nearest behind them. -/
inductive RemovesBlocks : (text kept : List Char) → Prop
  | block {text before opened body after kept : List Char}
      (hopen : IsLeftmost (HasTriple text) before opened)
      (hclose : IsLeftmost (HasTriple opened) body after) (hrest : RemovesBlocks after kept) :
    RemovesBlocks text (before ++ kept)
  /-- A block that is never closed is none. -/
  | unclosed {text : List Char}
      (h : ∀ before opened, IsLeftmost (HasTriple text) before opened → NoTriple opened) :
    RemovesBlocks text text

theorem isLeftmost_triple_of_prefix {after : List Char} :
    IsLeftmost (HasTriple (triple ++ after)) [] after :=
  ⟨rfl, fun _ _ _ => Nat.zero_le _⟩

theorem isLeftmost_triple_cons_iff {c : Char} {text before after : List Char} :
    IsLeftmost (HasTriple (c :: text)) (c :: before) after ↔
      ¬ triple <+: c :: text ∧ IsLeftmost (HasTriple text) before after := by
  constructor
  · rintro ⟨hhere, hleast⟩
    refine ⟨fun ⟨rest, hrest⟩ => ?_, List.cons.inj hhere |>.2, fun other y hother => ?_⟩
    · have hlength := hleast [] rest hrest.symm
      simp at hlength
    · have hlength := hleast (c :: other) y (congrArg (c :: ·) hother)
      simpa using hlength
  · rintro ⟨hquotes, hhere, hleast⟩
    refine ⟨congrArg (c :: ·) hhere, fun other y hother => ?_⟩
    cases other with
    | nil => exact absurd ⟨y, hother.symm⟩ hquotes
    | cons d other =>
      have hlength := hleast other y (List.cons.inj hother).2
      simpa using hlength

theorem exists_isLeftmost_triple {text : List Char} (h : ¬ NoTriple text) :
    ∃ before after, IsLeftmost (HasTriple text) before after := by
  induction text with
  | nil => exact absurd noTriple_nil h
  | cons c text ih =>
    by_cases hquotes : triple <+: c :: text
    · obtain ⟨after, hafter⟩ := hquotes
      exact ⟨[], after, hafter ▸ isLeftmost_triple_of_prefix⟩
    · have hrest : ¬ NoTriple text := fun hrest =>
        h fun hi => (List.infix_cons_iff.1 hi).elim hquotes hrest
      obtain ⟨before, after, hleftmost⟩ := ih hrest
      exact ⟨c :: before, after, isLeftmost_triple_cons_iff.2 ⟨hquotes, hleftmost⟩⟩

section Leftmost

variable {text before after : List Char} (h : IsLeftmost (HasTriple text) before after)

include h

/-- Outside of a block, the text is kept up to the first three quotes. -/
theorem withoutBlocksFrom_none_of_isLeftmost :
    withoutBlocksFrom none text = before ++ withoutBlocksFrom (some after) after := by
  induction before generalizing text with
  | nil =>
    obtain rfl : text = triple ++ after := h.here
    rfl
  | cons c before ih =>
    obtain rfl : text = c :: (before ++ (triple ++ after)) := h.here
    obtain ⟨hquotes, hrest⟩ := isLeftmost_triple_cons_iff.1 h
    rw [withoutBlocksFrom_cons hquotes, ih hrest, List.cons_append]

/-- Inside a block, the first three quotes close it. -/
theorem withoutBlocksFrom_some_of_isLeftmost (opened : List Char) :
    withoutBlocksFrom (some opened) text = withoutBlocksFrom none after := by
  induction before generalizing text with
  | nil =>
    obtain rfl : text = triple ++ after := h.here
    rfl
  | cons c before ih =>
    obtain rfl : text = c :: (before ++ (triple ++ after)) := h.here
    obtain ⟨hquotes, hrest⟩ := isLeftmost_triple_cons_iff.1 h
    rw [withoutBlocksFrom_some_cons hquotes, ih hrest]

theorem length_lt_of_isLeftmost : after.length < text.length := by
  rw [h.here, List.length_append, List.length_append, triple]
  simp only [List.length_cons, List.length_nil]
  omega

end Leftmost

theorem withoutBlocksFrom_some_of_noTriple {text : List Char} (h : NoTriple text)
    (opened : List Char) : withoutBlocksFrom (some opened) text = triple ++ opened := by
  induction text with
  | nil => rfl
  | cons c text ih =>
    rw [withoutBlocksFrom_some_cons fun hp => h hp.isInfix, ih h.tail]

theorem RemovesBlocks.withoutBlocks_eq {text kept : List Char} (h : RemovesBlocks text kept) :
    withoutBlocks text = kept := by
  induction h with
  | block hopen hclose _ ih =>
    unfold withoutBlocks at ih ⊢
    rw [withoutBlocksFrom_none_of_isLeftmost hopen, withoutBlocksFrom_some_of_isLeftmost hclose, ih]
  | @unclosed text h =>
    by_cases hquotes : NoTriple text
    · exact withoutBlocks_of_noTriple hquotes
    · obtain ⟨before, opened, hopen⟩ := exists_isLeftmost_triple hquotes
      have hnone := withoutBlocksFrom_some_of_noTriple (h before opened hopen) opened
      have hstays : withoutBlocks text = before ++ (triple ++ opened) := by
        rw [withoutBlocks, withoutBlocksFrom_none_of_isLeftmost hopen, hnone]
      exact hstays.trans hopen.here.symm

theorem exists_removesBlocks (text : List Char) : ∃ kept, RemovesBlocks text kept := by
  induction hlength : text.length using Nat.strong_induction_on generalizing text with
  | _ n ih =>
    subst hlength
    by_cases hblock : ∃ before opened, IsLeftmost (HasTriple text) before opened ∧ ¬ NoTriple opened
    · obtain ⟨before, opened, hopen, hquotes⟩ := hblock
      obtain ⟨body, after, hclose⟩ := exists_isLeftmost_triple hquotes
      have hshorter := (length_lt_of_isLeftmost hclose).trans (length_lt_of_isLeftmost hopen)
      obtain ⟨kept, hkept⟩ := ih after.length hshorter after rfl
      exact ⟨before ++ kept, .block hopen hclose hkept⟩
    · refine ⟨text, .unclosed fun before opened hopen => ?_⟩
      by_contra hquotes
      exact hblock ⟨before, opened, hopen, hquotes⟩

/-- One text only is left without the blocks. -/
theorem removesBlocks_iff (text kept : List Char) :
    RemovesBlocks text kept ↔ kept = withoutBlocks text := by
  constructor
  · exact fun h => h.withoutBlocks_eq.symm
  · rintro rfl
    obtain ⟨kept, hkept⟩ := exists_removesBlocks text
    rwa [hkept.withoutBlocks_eq]

theorem RemovesBlocks.sublist {text kept : List Char} (h : RemovesBlocks text kept) :
    kept.Sublist text := by
  induction h with
  | block hopen hclose _ ih =>
    rw [hopen.here, hclose.here]
    refine List.Sublist.append_left ?_ _
    exact ih.trans ((List.suffix_append_of_suffix
      (List.suffix_append_of_suffix (List.suffix_append ..))).sublist)
  | unclosed => exact List.Sublist.refl _

/-! ## Line comments -/

/-- A line without a hash is kept with its newline, and of another what stands before the hash. -/
def keptOfLine (line : List Char) : List Char :=
  if '#' ∈ line then line.takeWhile (· != '#') else line ++ ['\n']

/-- What is kept of all lines, the last of which has no newline. -/
def keptOfLines : List (List Char) → List Char
  | [] => []
  | [line] => line.takeWhile (· != '#')
  | line :: lines => keptOfLine line ++ keptOfLines lines

theorem keptOfLines_cons (line : List Char) {lines : List (List Char)} (h : lines ≠ []) :
    keptOfLines (line :: lines) = keptOfLine line ++ keptOfLines lines := by
  cases lines with
  | nil => exact absurd rfl h
  | cons next lines => rfl

theorem takeWhile_hash_of_not_mem {text : List Char} (h : '#' ∉ text) :
    text.takeWhile (· != '#') = text := by
  rw [List.takeWhile_eq_self_iff]
  intro c hc
  simpa using fun e : c = '#' => h (e ▸ hc)

theorem takeWhile_hash_append {kept : List Char} (h : '#' ∉ kept) (comment : List Char) :
    (kept ++ '#' :: comment).takeWhile (· != '#') = kept := by
  have hkept := takeWhile_hash_of_not_mem h
  rw [List.takeWhile_append, hkept]
  simp

theorem withoutLineComments_line {line : List Char} (h : '\n' ∉ line) (rest : List Char) :
    withoutLineComments (line ++ '\n' :: rest) = keptOfLine line ++ withoutLineComments rest := by
  unfold withoutLineComments keptOfLine
  split_ifs with hhash
  · obtain ⟨kept, comment, rfl, hkept⟩ := List.eq_append_cons_of_mem hhash
    have hcomment : '\n' ∉ comment := fun hc => h (by simp [hc])
    rw [takeWhile_hash_append hkept, List.append_assoc, withoutLineCommentsFrom_append hkept,
      List.cons_append, withoutLineCommentsFrom, if_pos rfl,
      withoutLineCommentsFrom_comment hcomment]
  · rw [withoutLineCommentsFrom_append hhash, withoutLineCommentsFrom, if_neg (by decide),
      List.append_assoc, List.singleton_append]

theorem withoutLineComments_last {line : List Char} (h : '\n' ∉ line) :
    withoutLineComments line = line.takeWhile (· != '#') := by
  unfold withoutLineComments
  by_cases hhash : '#' ∈ line
  · obtain ⟨kept, comment, rfl, hkept⟩ := List.eq_append_cons_of_mem hhash
    have hcomment : '\n' ∉ comment := fun hc => h (by simp [hc])
    rw [takeWhile_hash_append hkept, withoutLineCommentsFrom_append hkept, withoutLineCommentsFrom,
      if_pos rfl, withoutLineCommentsFrom_last hcomment, List.append_nil]
  · rw [takeWhile_hash_of_not_mem hhash, withoutLineCommentsFrom_of_not_mem hhash]

theorem withoutLineComments_eq (text : List Char) :
    withoutLineComments text = keptOfLines (lines text) := by
  induction hlength : text.length using Nat.strong_induction_on generalizing text with
  | _ n ih =>
    subst hlength
    by_cases hnewline : '\n' ∈ text
    · obtain ⟨line, rest, rfl, hline⟩ := List.eq_append_cons_of_mem hnewline
      have hshorter : rest.length < (line ++ '\n' :: rest).length := by
        rw [List.length_append, List.length_cons]
        omega
      have hlines : lines rest ≠ [] := splitAt_ne_nil '\n' rest
      rw [withoutLineComments_line hline, lines_append_newline hline, keptOfLines_cons line hlines,
        ih rest.length hshorter rest rfl]
    · rw [withoutLineComments_last hnewline, lines, splitAt_of_not_mem hnewline, keptOfLines]

theorem hash_not_mem_withoutLineCommentsFrom (inComment : Bool) (text : List Char) :
    '#' ∉ withoutLineCommentsFrom inComment text := by
  induction text generalizing inComment with
  | nil => cases inComment <;> exact List.not_mem_nil
  | cons c text ih =>
    cases inComment with
    | true => exact ih _
    | false =>
      rw [withoutLineCommentsFrom]
      split_ifs with hc
      · exact ih true
      · exact List.not_mem_cons_of_ne_of_not_mem (Ne.symm hc) (ih false)

theorem withoutLineCommentsFrom_sublist (inComment : Bool) (text : List Char) :
    (withoutLineCommentsFrom inComment text).Sublist text := by
  induction text generalizing inComment with
  | nil => cases inComment <;> exact List.Sublist.refl _
  | cons c text ih =>
    cases inComment with
    | true => exact (ih _).cons c
    | false =>
      rw [withoutLineCommentsFrom]
      split_ifs
      · exact (ih true).cons c
      · exact (ih false).cons_cons c

/-! ## Both -/

/--
Without its comments a text is what is kept of the lines that are left without the blocks. It has no
hash, its characters are some of those of the text in order, and nothing is lost where there is
nothing to remove. Joining turns the first newline that is left into a space and keeps all else.
-/
theorem uncommented_eq_keptOfLines (text : List Char) :
    (∃ blockless, (∀ kept, RemovesBlocks text kept ↔ kept = blockless) ∧
      uncommented text = keptOfLines (lines blockless)) ∧
    '#' ∉ uncommented text ∧ (uncommented text).Sublist text ∧
    ('#' ∉ text → NoTriple text → uncommented text = text) ∧
    ('\n' ∉ uncommented text → uncommentedJoined text = uncommented text) ∧
    ∀ first rest, '\n' ∉ first → uncommented text = first ++ '\n' :: rest →
      uncommentedJoined text = first ++ ' ' :: rest := by
  have hblocks : (withoutBlocks text).Sublist text :=
    ((removesBlocks_iff text _).2 rfl).sublist
  refine ⟨⟨withoutBlocks text, removesBlocks_iff text, withoutLineComments_eq _⟩,
    hash_not_mem_withoutLineCommentsFrom false _,
    (withoutLineCommentsFrom_sublist false _).trans hblocks, uncommented_of_noTriple, ?_, ?_⟩
  · intro hnewline
    have hjoined := joinFirstLine_append_of_not_mem hnewline []
    rw [List.append_nil] at hjoined
    rw [uncommentedJoined, hjoined, joinFirstLine, List.append_nil]
  · intro first rest hfirst heq
    rw [uncommentedJoined, heq, joinFirstLine_append_of_not_mem hfirst, joinFirstLine, if_pos rfl]

/-- A block that begins with four quotes, a comment inside it, and a block that is never closed. -/
theorem uncommented_eq_keptOfLines_notes :
    let text := "x = 1 # one\n\"\"\"\"a # b\"\"\"\ny\n\"\"\"open # c".toList
    let plain := "x = \"\"".toList
    (uncommented text = "x = 1 \ny\n\"\"\"open ".toList ∧
      uncommentedJoined text = "x = 1  y\n\"\"\"open ".toList) ∧
      ('#' ∉ plain ∧ NoTriple plain ∧ uncommented plain = plain) ∧
      '\n' ∉ uncommented plain ∧ uncommentedJoined plain = uncommented plain := by
  intro text plain
  have htext : uncommented text = "x = 1 ".toList ++ '\n' :: "y\n\"\"\"open ".toList := by
    decide +kernel
  have hnewline : '\n' ∉ uncommented plain := by decide +kernel
  have hhash : '#' ∉ plain := by decide
  have htriple : NoTriple plain := by
    unfold NoTriple
    decide
  obtain ⟨-, -, -, -, -, hfirst⟩ := uncommented_eq_keptOfLines text
  obtain ⟨-, -, -, hplain, hjoined, -⟩ := uncommented_eq_keptOfLines plain
  exact ⟨⟨htext, hfirst _ _ (by decide) htext⟩, ⟨hhash, htriple, hplain hhash htriple⟩, hnewline,
    hjoined hnewline⟩

end SiteSurvey.Source
