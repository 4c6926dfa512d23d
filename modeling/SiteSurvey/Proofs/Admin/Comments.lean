import SiteSurvey.Admin.Module
import SiteSurvey.Proofs.Admin.Import
import SiteSurvey.Proofs.Admin.Softened
import SiteSurvey.Proofs.Source.Lines

/-!
# Comments behind the lines of an admin module

A comment behind a line takes the newline of the line along. The models are those of the text in
which a space stands in place of this newline, and these are the models of the text without the
comments where nothing but a blank line is joined in this way (`models_joined`).
-/

namespace SiteSurvey

open Text

/-! ## Lines joined with blank lines -/

namespace Source.Line

/-- The line without its comment. -/
def bare (line : Line) : Line :=
  { line with comment := none }

/-- Each commented line is the last one or has a blank line behind it, and none is continued. -/
structure Apart (lines : List Line) : Prop where
  before_blank : lines.IsChain fun line next => line.comment.isSome → AllBlank next.content
  not_continued : ∀ line ∈ lines, line.comment.isSome → line.content.getLast? ≠ some '\\'

theorem Apart.tail {line : Line} {lines : List Line} (h : Apart (line :: lines)) : Apart lines where
  before_blank := h.before_blank.tail
  not_continued := fun other hother => h.not_continued other (List.mem_cons_of_mem _ hother)

theorem kept_bare (ended : Bool) (lines : List Line) :
    kept ended (lines.map bare) = joinLines ended (lines.map content) := by
  induction lines with
  | nil => rfl
  | cons line lines ih =>
    cases lines with
    | nil => rfl
    | cons next lines => exact congrArg (line.content ++ '\n' :: ·) ih

theorem uncommented_kept (ended : Bool) (lines : List Line) :
    uncommented (kept ended lines) = kept ended lines := by
  have hcontent {c : Char} (hc : c ∈ ['#', '"', '\n']) : ∀ text ∈ lines.map content, c ∉ text := by
    intro text htext
    obtain ⟨line, -, rfl⟩ := List.mem_map.1 htext
    exact line.plain c hc
  have hspaced := spaced_kept ended lines
  exact uncommented_of_not_mem (hspaced.not_mem (by decide) (hcontent (by decide)))
    (hspaced.not_mem (by decide) (hcontent (by decide)))

theorem beginsBlank_joinLines (ended : Bool) {first : List Char} (h : AllBlank first)
    (others : List (List Char)) : BeginsBlank (joinLines ended (first :: others)) := by
  cases others with
  | nil =>
    cases ended with
    | true => exact .append h (.newline _)
    | false => exact .append h .nil
  | cons next others => exact .append h (.newline _)

/-- Without its comments the text has spaces for newlines in front of blank lines only. -/
theorem exists_softened_kept (ended : Bool) {lines : List Line} (h : Apart lines) :
    ∃ padded, Softened padded (joinLines ended (lines.map content)) (kept ended lines) := by
  induction lines with
  | nil => exact ⟨false, .nil⟩
  | cons line lines ih =>
    cases hcomment : line.comment with
    | none =>
      have hmark : line.mark = '\n' := by simp [mark, hcomment]
      cases lines with
      | nil =>
        have hkept : kept ended [line] = line.content ++ if ended then ['\n'] else [] := by
          simp [kept, hcomment, hmark]
        rw [hkept]
        exact ⟨false, .refl _⟩
      | cons next lines =>
        obtain ⟨padded, ih⟩ := ih h.tail
        rw [kept_cons ended line (List.cons_ne_nil next lines), hmark]
        exact ⟨padded, .append (.keep '\n' ih) line.content⟩
    | some comment =>
      have hmark : line.mark = ' ' := by simp [mark, hcomment]
      cases lines with
      | nil =>
        have hkept : kept ended [line] = line.content ++ [' '] := by
          simp [kept, hcomment, hmark]
        rw [hkept]
        cases ended with
        | true => exact ⟨false, .append (.newline .nil .nil) line.content⟩
        | false => exact ⟨true, .append .padding line.content⟩
      | cons next lines =>
        obtain ⟨padded, ih⟩ := ih h.tail
        have hnext : AllBlank next.content :=
          (List.isChain_cons_cons.1 h.before_blank).1 (by simp [hcomment])
        rw [kept_cons ended line (List.cons_ne_nil next lines), hmark]
        have hblank := beginsBlank_joinLines ended hnext (lines.map content)
        exact ⟨padded, .append (.newline hblank ih) line.content⟩

/-! ## Reading line by line -/

section Read

variable {α : Type} {read? : List Char → Option α} (hnil : read? [] = none) (ended : Bool)

include hnil

theorem findSome?_lines_joinLines {first : List Char} (h : '\n' ∉ first)
    (others : List (List Char)) :
    (Text.lines (joinLines ended (first :: others))).findSome? read? =
      (read? first).or ((Text.lines (joinLines ended others)).findSome? read?) := by
  have hempty : (Text.lines []).findSome? read? = none := by simp [Text.lines, splitAt, hnil]
  by_cases hothers : others = []
  · subst hothers
    have hlines := lines_joinLines ended (List.cons_ne_nil first []) (by simpa using h)
    have hlast : (if ended then [[]] else []).findSome? read? = none := by
      cases ended <;> simp [hnil]
    rw [hlines, List.cons_append, List.nil_append, List.findSome?_cons, hlast, joinLines, hempty]
    cases read? first <;> rfl
  · rw [joinLines_cons ended first hothers, lines_append_newline h, List.findSome?_cons]
    cases read? first <;> rfl

/-- What is first read of a line, white space behind it aside, is first read of the joined lines. -/
theorem exists_lines_kept
    (hpadded : ∀ {line padded}, Padded line padded → read? line = read? padded)
    {lines : List Line} (h : Apart lines) :
    ∃ first others, Text.lines (kept ended lines) = first :: others ∧
      (∀ line ∈ lines.head?, AllBlank line.content → AllBlank first) ∧
      (first :: others).findSome? read? =
        (Text.lines (joinLines ended (lines.map content))).findSome? read? := by
  induction lines with
  | nil => exact ⟨[], [], rfl, by simp, rfl⟩
  | cons line lines ih =>
    obtain ⟨first, others, hlines, hfirst, hread⟩ := ih h.tail
    have hcontent : '\n' ∉ line.content := line.plain '\n' (by decide)
    rw [List.map_cons, findSome?_lines_joinLines hnil ended hcontent, ← hread]
    cases hcomment : line.comment with
    | none =>
      cases lines with
      | nil =>
        have hkept : kept ended [line] = joinLines ended [line.content] := by
          simp [kept, joinLines, mark, hcomment]
        have hlast : Text.lines (joinLines ended [line.content]) =
            line.content :: if ended then [[]] else [] :=
          lines_joinLines ended (List.cons_ne_nil line.content []) (by simpa using hcontent)
        refine ⟨line.content, if ended then [[]] else [], ?_, by simp, ?_⟩
        · rw [hkept, hlast]
        · rw [hread, List.map_nil, ← findSome?_lines_joinLines hnil ended hcontent, hlast]
      | cons next lines =>
        have hmark : line.mark = '\n' := by simp [mark, hcomment]
        have hkept : Text.lines (kept ended (line :: next :: lines)) =
            line.content :: first :: others := by
          rw [kept_cons ended line (List.cons_ne_nil next lines), hmark,
            lines_append_newline hcontent, hlines]
        refine ⟨line.content, first :: others, hkept, by simp, ?_⟩
        rw [List.findSome?_cons]
        cases read? line.content <;> rfl
    | some comment =>
      have hcommented : line.comment.isSome = true := by rw [hcomment, Option.isSome_some]
      have hkept : kept ended (line :: lines) = line.content ++ ' ' :: kept ended lines := by
        cases lines <;> simp [kept, mark, hcomment]
      have hblank : AllBlank first := by
        cases lines with
        | nil =>
          cases hlines
          exact allBlank_nil
        | cons next lines =>
          exact hfirst next rfl ((List.isChain_cons_cons.1 h.before_blank).1 hcommented)
      have hspace : AllBlank (' ' :: first) := List.forall_mem_cons.2 ⟨by decide, hblank⟩
      have hline : Padded line.content (line.content ++ ' ' :: first) :=
        .of_suffix (h.not_continued line List.mem_cons_self hcommented) List.suffix_rfl hspace
      -- what is joined with the line is blank and would not be read by itself either
      have hnone : read? first = none := (hpadded hblank.padded).symm.trans hnil
      refine ⟨line.content ++ ' ' :: first, others, ?_, ?_, ?_⟩
      · have hsplit := splitAt_append_of_not_mem (by decide : '\n' ∉ [' ']) hlines
        rw [hkept]
        exact splitAt_append_of_not_mem hcontent hsplit
      · rintro head hhead hblank
        cases hhead
        exact hblank.append hspace
      · rw [List.findSome?_cons, List.findSome?_cons, ← hpadded hline, hnone]
        cases read? line.content <;> rfl

end Read

end Source.Line

/-! ## The models of a commented text -/

namespace Admin

open Source

section Apart

variable (ended : Bool) {all : List Line} (h : Line.Apart all)

include h

theorem scope?_kept :
    scope? (Line.kept ended all) = scope? (joinLines ended (all.map Line.content)) := by
  obtain ⟨first, others, hlines, -, hread⟩ := Line.exists_lines_kept rfl ended bound?_padded h
  unfold scope?
  rw [hlines, hread]

theorem rebound?_kept (compiler : Compiler) (scope : Word) :
    rebound? compiler scope.chars (Line.kept ended all) =
      rebound? compiler scope.chars (joinLines ended (all.map Line.content)) := by
  obtain ⟨first, others, hlines, -, hread⟩ :=
    Line.exists_lines_kept rfl ended (reboundInLine?_padded · scope) h
  unfold rebound? firstRebound?
  rw [hlines, hread]

theorem registrar?_kept (compiler : Compiler) : registrar? compiler (Line.kept ended all) =
    registrar? compiler (joinLines ended (all.map Line.content)) := by
  unfold registrar?
  rw [scope?_kept ended h]
  cases hscope : scope? (joinLines ended (all.map Line.content)) with
  | none => rfl
  | some scope =>
    obtain ⟨word, rfl⟩ := exists_word_scope? hscope
    rw [Option.map_some, Option.map_some, rebound?_kept ended h]

theorem models_kept : models (String.ofList (Line.kept ended all)) =
    models (String.ofList (Line.joined ended (all.map Line.bare))) := by
  obtain ⟨padded, hsoftened⟩ := Line.exists_softened_kept ended h
  unfold models modelsWith
  rw [String.toList_ofList, String.toList_ofList, Line.uncommented_kept, Line.uncommented_joined,
    Line.kept_bare]
  dsimp only
  rw [registrar?_kept ended h]
  cases hname : registrar? .bounded (joinLines ended (all.map Line.content)) with
  | none => rfl
  | some name =>
    obtain ⟨word, rfl⟩ := exists_word_registrar? hname
    dsimp only
    rw [registered_softened _ hsoftened]

end Apart

/--
The models of a text with comments behind some of its lines are those of the text in which these
lines end in a space in place of their newline. So the comments change nothing if behind each of
these lines, none of which is continued, there is a blank line or none.
-/
theorem models_joined (ended : Bool) (all : List Line) :
    models (String.ofList (Line.joined ended all)) = models (String.ofList (Line.kept ended all)) ∧
      (Line.Apart all → models (String.ofList (Line.joined ended all)) =
        models (String.ofList (Line.joined ended (all.map Line.bare)))) := by
  have hkept : models (String.ofList (Line.joined ended all)) =
      models (String.ofList (Line.kept ended all)) := by
    unfold models modelsWith
    rw [String.toList_ofList, String.toList_ofList, Line.uncommented_joined, Line.uncommented_kept]
  exact ⟨hkept, fun h => hkept.trans (models_kept ended h)⟩

/-- The import of the admin module with a comment behind it. -/
def importLine : Line where
  content := "from django.contrib import admin".toList
  plain := by decide
  comment := some ⟨"noqa", by decide, noTriple_of_not_mem (by decide)⟩

def callLine : Line where
  content := "admin.site.register(Book)".toList
  plain := by decide
  comment := some ⟨"public", by decide, noTriple_of_not_mem (by decide)⟩

def blankLine : Line where
  content := ['\t']
  plain := by decide
  comment := none

theorem models_joined_blank : Line.Apart [importLine, blankLine, callLine] ∧
    models (String.ofList (Line.joined true [importLine, blankLine, callLine])) = ["Book"] := by
  have h : Line.Apart [importLine, blankLine, callLine] := ⟨by decide, by decide⟩
  exact ⟨h, ((models_joined true _).2 h).trans (by decide +kernel)⟩

/-- The comment joins the import with the call, and no name is imported from the joined line. -/
theorem models_joined_ne : ¬ ∀ (ended : Bool) (all : List Line),
    models (String.ofList (Line.joined ended all)) =
      models (String.ofList (Line.joined ended (all.map Line.bare))) := by
  intro h
  have hjoined : models (String.ofList (Line.joined true [importLine, callLine])) = [] := by
    decide +kernel
  have hbare : models (String.ofList
      (Line.joined true ([importLine, callLine].map Line.bare))) = ["Book"] := by
    decide +kernel
  rw [h, hbare] at hjoined
  cases hjoined

end Admin

end SiteSurvey
