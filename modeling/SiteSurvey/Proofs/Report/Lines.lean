import SiteSurvey.Report.Text

/-!
# Lines of warnings

Styled text is cut into lines by its newlines (`linesOf`). The lines of a list of diagnostics are
one for each (`linesOf_flatMap_diagnosticLine`), and those of unreadable paths are known by their
label (`isUnreadableLine_diagnosticLine`).
-/

namespace SiteSurvey.Report

/-! ## Lines -/

def endsLine (span : Span) : Bool :=
  span.text.toList.getLast? == some '\n'

/-- The lines of spans; the last of them may lack its newline. -/
def linesOf : List Span → List (List Span)
  | [] => []
  | span :: spans =>
    if endsLine span then [span] :: linesOf spans
    else
      match linesOf spans with
      | [] => [[span]]
      | line :: lines => (span :: line) :: lines

/-- The last of the spans, and no other, ends a line. -/
def IsLine (spans : List Span) : Prop :=
  ∃ inner last, spans = inner ++ [last] ∧ (∀ span ∈ inner, endsLine span = false) ∧
    endsLine last = true

theorem linesOf_append {line : List Span} (h : IsLine line) (rest : List Span) :
    linesOf (line ++ rest) = line :: linesOf rest := by
  obtain ⟨inner, last, rfl, hinner, hlast⟩ := h
  induction inner with
  | nil => rw [List.nil_append, List.singleton_append, linesOf, if_pos hlast]
  | cons span inner ih =>
    obtain ⟨hspan, hinner⟩ := List.forall_mem_cons.1 hinner
    rw [List.cons_append, List.cons_append, linesOf, if_neg (by simp [hspan]), ih hinner]

theorem linesOf_singleton (span : Span) : linesOf [span] = [[span]] := by
  rw [linesOf]
  split <;> rfl

theorem linesOf_flatMap {α : Type} {line : α → List Span} (h : ∀ x, IsLine (line x))
    (xs : List α) : linesOf (xs.flatMap line) = xs.map line := by
  induction xs with
  | nil => rfl
  | cons x xs ih => rw [List.flatMap_cons, linesOf_append (h x), ih, List.map_cons]

/-! ## Diagnostics -/

theorem endsLine_label (diagnostic : Diagnostic) (style : Style) :
    endsLine ⟨diagnostic.label, style⟩ = false := by
  cases diagnostic <;> simp only [endsLine, Diagnostic.label] <;> decide

theorem endsLine_message (message : String) :
    endsLine (plain (" " ++ message ++ "  ")) = false := by
  have hend : "  ".toList.getLast? = some ' ' := by decide
  rw [endsLine, plain, String.toList_append, List.getLast?_append, hend]
  rfl

theorem isLine_diagnosticLine (diagnostic : Diagnostic) : IsLine (diagnosticLine diagnostic) := by
  refine ⟨[warningMark, plain (" " ++ diagnostic.message ++ "  "),
    ⟨diagnostic.label, { weight := some .dim, color := some .cyan }⟩], plain "\n", rfl, ?_,
    by decide⟩
  intro span hspan
  simp only [List.mem_cons, List.not_mem_nil, or_false] at hspan
  rcases hspan with rfl | rfl | rfl
  · decide
  · exact endsLine_message _
  · exact endsLine_label ..

theorem linesOf_flatMap_diagnosticLine (diagnostics : List Diagnostic) :
    linesOf (diagnostics.flatMap diagnosticLine) = diagnostics.map diagnosticLine :=
  linesOf_flatMap isLine_diagnosticLine diagnostics

/-- The label of a line that tells of an unreadable path. -/
def unreadableLabel : Span :=
  ⟨"file-read", { weight := some .dim, color := some .cyan }⟩

def isUnreadableLine (line : List Span) : Bool :=
  line.contains unreadableLabel

theorem unreadableLabel_ne_plain (text : String) : unreadableLabel ≠ plain text :=
  fun e => by cases congrArg Span.style e

theorem isUnreadable_eq_decide (diagnostic : Diagnostic) :
    diagnostic.isUnreadable = decide (diagnostic.label = "file-read") := by
  cases diagnostic <;> simp [Diagnostic.isUnreadable, Diagnostic.label]

theorem isUnreadableLine_diagnosticLine (diagnostic : Diagnostic) :
    isUnreadableLine (diagnosticLine diagnostic) = diagnostic.isUnreadable := by
  have hmark : unreadableLabel ≠ warningMark := by decide
  have hlabel : (unreadableLabel =
      ⟨diagnostic.label, { weight := some .dim, color := some .cyan }⟩) ↔
        diagnostic.label = "file-read" := by
    rw [unreadableLabel, Span.mk.injEq, and_iff_left rfl, eq_comm]
  simp [isUnreadableLine, diagnosticLine, hmark, unreadableLabel_ne_plain, hlabel,
    isUnreadable_eq_decide]

end SiteSurvey.Report
