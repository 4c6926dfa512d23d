import Mathlib.Data.List.Basic
import SiteSurvey.Proofs.Source.Bracket
import SiteSurvey.Proofs.Source.Comment

/-!
# Commented lines

A source text given line by line, where each line may end in a comment. A comment takes the newline
behind it along, so that a commented line is joined with the next by the space in front of its
comment (`uncommented_joined`). Without its comments the text holds the contents of the lines in
order, and only spaces and newlines between them; that the first two lines are joined changes
nothing here (`spaced_uncommentedJoined`).
-/

namespace SiteSurvey.Source

/-- Decided by going through the list and not through all characters. -/
instance decidableForallMem (p : Char → Prop) [DecidablePred p] (text : List Char) :
    Decidable (∀ c ∈ text, p c) :=
  List.decidableBAll p text

/-- What follows the hash of a comment at the end of a line. -/
structure Comment where
  text : String
  one_line : '\n' ∉ text.toList
  noTriple : NoTriple text.toList

/-- A line and its comment; the content has no hash, no double quote and no newline. -/
structure Line where
  content : List Char
  plain : ∀ c ∈ ['#', '"', '\n'], c ∉ content
  comment : Option Comment

namespace Line

def text (line : Line) : List Char :=
  match line.comment with
  | none => line.content
  | some comment => line.content ++ ' ' :: '#' :: ' ' :: comment.text.toList

/-- The text of many lines; the last of them has a newline only if the text is `ended`. -/
def joined (ended : Bool) : List Line → List Char
  | [] => []
  | [line] => line.text ++ if ended then ['\n'] else []
  | line :: lines => line.text ++ '\n' :: joined ended lines

/-- What is left of a comment and the newline behind it, or the newline of a line without one. -/
def mark (line : Line) : Char :=
  if line.comment.isSome then ' ' else '\n'

/-- The text of many lines without their comments. -/
def kept (ended : Bool) : List Line → List Char
  | [] => []
  | [line] => line.content ++ if line.comment.isSome || ended then [line.mark] else []
  | line :: lines => line.content ++ line.mark :: kept ended lines

theorem kept_cons (ended : Bool) (line : Line) {lines : List Line} (h : lines ≠ []) :
    kept ended (line :: lines) = line.content ++ line.mark :: kept ended lines := by
  cases lines with
  | nil => exact absurd rfl h
  | cons next lines => rfl

theorem isGap_mark (line : Line) : line.mark = ' ' ∨ line.mark = '\n' := by
  unfold mark
  split_ifs
  · exact Or.inl rfl
  · exact Or.inr rfl

end Line

/-! ## Blocks -/

theorem Line.noTriple_text (line : Line) : NoTriple line.text := by
  have hcontent : NoTriple line.content := noTriple_of_not_mem (line.plain '"' (by decide))
  unfold Line.text
  split
  · exact hcontent
  · next comment _ =>
    have hspace : NoTriple ([] ++ ' ' :: comment.text.toList) :=
      noTriple_append_cons (by decide) noTriple_nil comment.noTriple
    have hhash : NoTriple ([] ++ '#' :: ' ' :: comment.text.toList) :=
      noTriple_append_cons (by decide) noTriple_nil hspace
    exact noTriple_append_cons (by decide) hcontent hhash

theorem Line.noTriple_joined (ended : Bool) (lines : List Line) :
    NoTriple (Line.joined ended lines) := by
  induction lines with
  | nil => exact noTriple_nil
  | cons line lines ih =>
    rcases lines with _ | ⟨next, lines⟩
    · cases ended
      · rw [Line.joined, if_neg Bool.false_ne_true, List.append_nil]
        exact line.noTriple_text
      · exact noTriple_append_cons (by decide) line.noTriple_text noTriple_nil
    · exact noTriple_append_cons (by decide) line.noTriple_text ih

/-! ## Lines with gaps -/

/-- Nothing but spaces and newlines. -/
def IsGap (text : List Char) : Prop :=
  ∀ c ∈ text, c = ' ' ∨ c = '\n'

/-- The lines in order, each followed by a gap. -/
inductive Spaced : (lines : List (List Char)) → (text : List Char) → Prop where
  | nil : Spaced [] []
  | cons {lines rest gap} (line : List Char) (hgap : IsGap gap) (hrest : Spaced lines rest) :
      Spaced (line :: lines) (line ++ (gap ++ rest))

theorem IsGap.not_mem {gap : List Char} (h : IsGap gap) {c : Char} (hc : c ∉ [' ', '\n']) :
    c ∉ gap :=
  fun hmem => hc (by simpa using h c hmem)

theorem IsGap.free {gap : List Char} (h : IsGap gap) (bracket : Bracket) : bracket.Free gap := by
  constructor
  · exact h.not_mem (by cases bracket <;> decide)
  · exact h.not_mem (by cases bracket <;> decide)

theorem Spaced.not_mem {lines : List (List Char)} {text : List Char} (h : Spaced lines text)
    {c : Char} (hc : c ∉ [' ', '\n']) (hlines : ∀ line ∈ lines, c ∉ line) : c ∉ text := by
  induction h with
  | nil => exact List.not_mem_nil
  | cons line hgap hrest ih =>
    rw [List.forall_mem_cons] at hlines
    rw [List.mem_append, List.mem_append, not_or, not_or]
    exact ⟨hlines.1, hgap.not_mem hc, ih hlines.2⟩

theorem Spaced.nil_elim {text : List Char} (h : Spaced [] text) : text = [] := by
  cases h
  rfl

theorem Spaced.cons_elim {line : List Char} {lines : List (List Char)} {text : List Char}
    (h : Spaced (line :: lines) text) :
    ∃ gap rest, text = line ++ (gap ++ rest) ∧ IsGap gap ∧ Spaced lines rest := by
  cases h with
  | @cons _ rest gap _ hgap hrest => exact ⟨gap, rest, rfl, hgap, hrest⟩

theorem Spaced.append_elim {first second : List (List Char)} {text : List Char}
    (h : Spaced (first ++ second) text) :
    ∃ before after, text = before ++ after ∧ Spaced first before ∧ Spaced second after := by
  induction first generalizing text with
  | nil => exact ⟨[], text, rfl, .nil, h⟩
  | cons line first ih =>
    obtain ⟨gap, rest, rfl, hgap, hrest⟩ := h.cons_elim
    obtain ⟨before, after, rfl, hb, ha⟩ := ih hrest
    exact ⟨_, after, by simp only [List.append_assoc], .cons line hgap hb, ha⟩

theorem Spaced.joinFirstLine {lines : List (List Char)} {text : List Char}
    (hlines : ∀ line ∈ lines, '\n' ∉ line) (h : Spaced lines text) :
    Spaced lines (joinFirstLine text) := by
  induction h with
  | nil => exact .nil
  | @cons lines rest gap line hgap hrest ih =>
    rw [List.forall_mem_cons] at hlines
    rw [joinFirstLine_append_of_not_mem hlines.1]
    by_cases hmem : '\n' ∈ gap
    · rw [joinFirstLine_append_of_mem hmem]
      refine .cons line (fun c hc => ?_) hrest
      exact (mem_joinFirstLine hc).elim (hgap c) Or.inl
    · rw [joinFirstLine_append_of_not_mem hmem]
      exact .cons line hgap (ih hlines.2)

/-! ## Line comments -/

namespace Line

theorem withoutLineComments_text (line : Line) (rest : List Char) :
    withoutLineComments (line.text ++ '\n' :: rest) =
      line.content ++ line.mark :: withoutLineComments rest := by
  have hhash : '#' ∉ line.content := line.plain '#' (by decide)
  unfold text mark withoutLineComments
  cases hcomment : line.comment with
  | none =>
    dsimp only
    rw [withoutLineCommentsFrom_append hhash, withoutLineCommentsFrom, if_neg (by decide)]
    rfl
  | some comment =>
    have hspace : '\n' ∉ ' ' :: comment.text.toList := by simpa using comment.one_line
    dsimp only
    rw [List.append_assoc, withoutLineCommentsFrom_append hhash, List.cons_append,
      List.cons_append, withoutLineCommentsFrom, if_neg (by decide), withoutLineCommentsFrom,
      if_pos rfl, withoutLineCommentsFrom_comment hspace]
    rfl

theorem withoutLineComments_last (line : Line) :
    withoutLineComments line.text =
      line.content ++ if line.comment.isSome then [line.mark] else [] := by
  have hhash : '#' ∉ line.content := line.plain '#' (by decide)
  unfold text mark withoutLineComments
  cases hcomment : line.comment with
  | none =>
    dsimp only
    rw [withoutLineCommentsFrom_of_not_mem hhash]
    exact (List.append_nil _).symm
  | some comment =>
    have hspace : '\n' ∉ ' ' :: comment.text.toList := by simpa using comment.one_line
    dsimp only
    rw [withoutLineCommentsFrom_append hhash, withoutLineCommentsFrom, if_neg (by decide),
      withoutLineCommentsFrom, if_pos rfl, withoutLineCommentsFrom_last hspace]
    rfl

theorem withoutLineComments_joined (ended : Bool) (lines : List Line) :
    withoutLineComments (joined ended lines) = kept ended lines := by
  induction lines with
  | nil => rfl
  | cons line lines ih =>
    rcases lines with _ | ⟨next, lines⟩
    · cases ended
      · rw [joined, kept, if_neg Bool.false_ne_true, List.append_nil, Bool.or_false]
        exact line.withoutLineComments_last
      · rw [joined, kept, if_pos rfl, Bool.or_true, if_pos rfl]
        exact line.withoutLineComments_text []
    · have hnext : next :: lines ≠ [] := List.cons_ne_nil _ _
      rw [kept_cons ended line hnext, ← ih]
      exact line.withoutLineComments_text _

/-- Each comment goes together with the newline behind it. -/
theorem uncommented_joined (ended : Bool) (lines : List Line) :
    uncommented (joined ended lines) = kept ended lines := by
  rw [uncommented, withoutBlocks_of_noTriple (noTriple_joined ended lines),
    withoutLineComments_joined]

theorem spaced_kept (ended : Bool) (lines : List Line) :
    Spaced (lines.map content) (kept ended lines) := by
  have hmark (line : Line) : IsGap [line.mark] := by simpa [IsGap] using line.isGap_mark
  induction lines with
  | nil => exact .nil
  | cons line lines ih =>
    rcases lines with _ | ⟨next, lines⟩
    · rw [kept]
      split_ifs
      · exact .cons line.content (hmark line) .nil
      · exact .cons line.content (List.forall_mem_nil _) .nil
    · exact .cons line.content (hmark line) ih

/-- Of a text in lines, the reader of route files sees the contents of the lines and gaps. -/
theorem spaced_uncommentedJoined (ended : Bool) (lines : List Line) :
    Spaced (lines.map content) (uncommentedJoined (joined ended lines)) := by
  rw [uncommentedJoined, uncommented_joined]
  refine (spaced_kept ended lines).joinFirstLine fun text htext => ?_
  obtain ⟨line, -, rfl⟩ := List.mem_map.1 htext
  exact line.plain '\n' (by decide)

end Line

end SiteSurvey.Source
