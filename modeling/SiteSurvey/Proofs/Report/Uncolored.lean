import SiteSurvey.CommandLine.Run
import SiteSurvey.Proofs.Json.Number
import SiteSurvey.Proofs.Report.Rows

/-!
# Colour is decoration

The coloured form of a report has escape sequences that its plain form lacks, and differs in nothing
else: without these sequences it is the plain form (`withoutSequences_render`), as long as no text
of the report has an escape character of its own (`uncolored_reports`).
-/

namespace SiteSurvey

/-! ## The texts of a survey -/

def Route.Namespace.string : Route.Namespace → String
  | app name => name
  | file path => path

/-- All texts of a route. -/
def Route.strings (route : Route) : List String :=
  route.name :: route.qualifiedName :: route.args.map Route.Argument.name

/-- All texts of a project. -/
def Survey.Project.strings (project : Survey.Project) : List String :=
  project.root.text ::
    (project.routes.entries.flatMap fun entry =>
      entry.1.string :: entry.2.flatMap Route.strings) ++
    project.models.entries.flatMap fun entry => entry.1 :: entry.2

/-- All texts of a diagnostic. -/
def Diagnostic.strings : Diagnostic → List String
  | notAProject path => [path.text]
  | malformedRoutes message => [message]
  | unreadable path reason => [path.text, reason]

namespace Report

/-! ## Escape sequences -/

/-- The text without its escape sequences, each from an escape and a bracket to the next `m`;
`inside` tells whether it begins inside of one. -/
def withoutSequencesFrom : (inside : Bool) → List Char → List Char
  | _, [] => []
  | true, c :: rest => withoutSequencesFrom (c != 'm') rest
  | false, '\x1b' :: '[' :: rest => withoutSequencesFrom true rest
  | false, c :: rest => c :: withoutSequencesFrom false rest

def withoutSequences (text : String) : String :=
  String.ofList (withoutSequencesFrom false text.toList)

/-- No character of the text is an escape. -/
def IsUnescaped (text : String) : Prop :=
  '\x1b' ∉ text.toList

instance : DecidablePred IsUnescaped :=
  fun text => inferInstanceAs (Decidable ('\x1b' ∉ text.toList))

theorem withoutSequencesFrom_append {text : List Char} (h : '\x1b' ∉ text) (rest : List Char) :
    withoutSequencesFrom false (text ++ rest) = text ++ withoutSequencesFrom false rest := by
  induction text with
  | nil => rfl
  | cons c text ih =>
    rw [List.mem_cons, not_or] at h
    have hc : c ≠ '\x1b' := Ne.symm h.1
    rw [List.cons_append, List.cons_append, ← ih h.2]
    simp [withoutSequencesFrom, hc]

/-- Behind what is left of a sequence the text goes on. -/
theorem withoutSequencesFrom_true {codes : List Char} (h : 'm' ∉ codes) (rest : List Char) :
    withoutSequencesFrom true (codes ++ 'm' :: rest) = withoutSequencesFrom false rest := by
  induction codes with
  | nil => rfl
  | cons c codes ih =>
    rw [List.mem_cons, not_or] at h
    have hc : (c != 'm') = true := bne_iff_ne.2 (Ne.symm h.1)
    rw [List.cons_append, withoutSequencesFrom, hc, ih h.2]

theorem withoutSequencesFrom_reset (rest : List Char) :
    withoutSequencesFrom false (Style.reset.toList ++ rest) = withoutSequencesFrom false rest := by
  rfl

theorem not_mem_codes (style : Style) : 'm' ∉ style.codes.toList := by
  obtain ⟨weight, color⟩ := style
  rcases weight with _ | _ | _ <;> rcases color with _ | _ | _ | _ | _ <;> decide

theorem withoutSequencesFrom_start (style : Style) (rest : List Char) :
    withoutSequencesFrom false (style.start.toList ++ rest) = withoutSequencesFrom false rest := by
  have hstart : style.start.toList ++ rest =
      '\x1b' :: '[' :: (style.codes.toList ++ 'm' :: rest) := by
    simp [Style.start]
  rw [hstart, withoutSequencesFrom, withoutSequencesFrom_true (not_mem_codes style)]

/-! ## Spans -/

namespace Span

/-- Nothing begins a style anew in a text that has no escape. -/
theorem restart_of_not_mem (start : List Char) {text : List Char} (h : '\x1b' ∉ text) :
    restart start text = text := by
  induction text with
  | nil => rfl
  | cons c text ih =>
    rw [List.mem_cons, not_or] at h
    have hc : c ≠ '\x1b' := Ne.symm h.1
    rw [restart, ih h.2]
    intro rest e
    simp [hc] at e

theorem withoutSequencesFrom_render {span : Span} (h : IsUnescaped span.text) (rest : List Char) :
    withoutSequencesFrom false ((span.render true).toList ++ rest) =
      span.text.toList ++ withoutSequencesFrom false rest := by
  rw [render]
  split
  · simp only [String.toList_append, String.toList_ofList, List.append_assoc]
    rw [withoutSequencesFrom_start, restart_of_not_mem _ h, withoutSequencesFrom_append h,
      withoutSequencesFrom_reset]
  · exact withoutSequencesFrom_append h rest

end Span

/-- No text of the spans has an escape. -/
def AreUnescaped (spans : List Span) : Prop :=
  ∀ span ∈ spans, IsUnescaped span.text

instance : DecidablePred AreUnescaped :=
  fun spans => inferInstanceAs (Decidable (∀ span ∈ spans, IsUnescaped span.text))

theorem withoutSequencesFrom_render {spans : List Span} (h : AreUnescaped spans) :
    withoutSequencesFrom false (render true spans).toList = (render false spans).toList := by
  induction spans with
  | nil => rfl
  | cons span spans ih =>
    obtain ⟨hspan, hspans⟩ := List.forall_mem_cons.1 h
    have hplain : span.render false = span.text := rfl
    rw [render, render, String.toList_append, String.toList_append, hplain,
      span.withoutSequencesFrom_render hspan, ih hspans]

theorem withoutSequences_render {spans : List Span} (h : AreUnescaped spans) :
    withoutSequences (render true spans) = render false spans := by
  rw [withoutSequences, withoutSequencesFrom_render h, String.ofList_toList]

/-- A text without a style is written as it is, in colour as well. -/
theorem render_plain (colored : Bool) (text : String) : render colored [plain text] = text := by
  have hspan : (plain text).render colored = text := by cases colored <;> rfl
  rw [render, hspan]
  exact String.append_empty

/-! ## Texts without escapes -/

theorem isUnescaped_append {first later : String} (h : IsUnescaped first)
    (h' : IsUnescaped later) : IsUnescaped (first ++ later) := by
  rw [IsUnescaped, String.toList_append, List.mem_append]
  exact not_or.2 ⟨h, h'⟩

theorem isUnescaped_intercalate {separator : String} (h : IsUnescaped separator)
    {texts : List String} (htexts : ∀ text ∈ texts, IsUnescaped text) :
    IsUnescaped (separator.intercalate texts) := by
  induction texts with
  | nil => exact List.not_mem_nil
  | cons text texts ih =>
    obtain ⟨htext, htexts⟩ := List.forall_mem_cons.1 htexts
    cases texts with
    | nil => rwa [String.intercalate_singleton]
    | cons next texts =>
      rw [String.intercalate_cons_cons]
      exact isUnescaped_append (isUnescaped_append htext h) (ih htexts)

theorem isUnescaped_toString (n : Nat) : IsUnescaped (toString n) := by
  rw [IsUnescaped, Nat.toString_eq_ofList_toDigits, String.toList_ofList]
  exact fun h => absurd (Json.isDigit_of_mem_toDigits h) (by decide)

theorem isUnescaped_blanks (count : Nat) :
    IsUnescaped (String.ofList (List.replicate count ' ')) := by
  rw [IsUnescaped, String.toList_ofList]
  exact fun h => absurd (List.eq_of_mem_replicate h) (by decide)

theorem isUnescaped_countNoun (count : Nat) {singular plural : String} (h : IsUnescaped singular)
    (h' : IsUnescaped plural) : IsUnescaped (countNoun count singular plural) := by
  rw [countNoun]
  split <;> assumption

/-! ## Spans without escapes -/

namespace AreUnescaped

theorem cons {span : Span} {spans : List Span} (h : IsUnescaped span.text)
    (hspans : AreUnescaped spans) : AreUnescaped (span :: spans) :=
  List.forall_mem_cons.2 ⟨h, hspans⟩

theorem append {first later : List Span} (h : AreUnescaped first) (h' : AreUnescaped later) :
    AreUnescaped (first ++ later) :=
  List.forall_mem_append.2 ⟨h, h'⟩

theorem flatMap {α : Type} {line : α → List Span} {xs : List α}
    (h : ∀ x ∈ xs, AreUnescaped (line x)) : AreUnescaped (xs.flatMap line) := by
  intro span hspan
  obtain ⟨x, hx, hmem⟩ := List.mem_flatMap.1 hspan
  exact h x hx span hmem

end AreUnescaped

/-! ## The lines of reports -/

theorem isUnescaped_argumentsText {arguments : List Route.Argument}
    (h : ∀ argument ∈ arguments, IsUnescaped argument.name) :
    IsUnescaped (argumentsText arguments) := by
  have hlabel (converter : Route.Converter) : IsUnescaped converter.label := by
    cases converter <;> decide
  have hargument (argument : Route.Argument) (hname : IsUnescaped argument.name) :
      IsUnescaped (argumentText argument) := by
    rw [argumentText]
    split
    · exact isUnescaped_append (isUnescaped_append hname (by decide)) (hlabel _)
    · exact hname
  refine isUnescaped_append (isUnescaped_append (by decide) ?_) (by decide)
  refine isUnescaped_intercalate (by decide) fun text htext => ?_
  obtain ⟨argument, hmem, rfl⟩ := List.mem_map.1 htext
  exact hargument argument (h argument hmem)

theorem areUnescaped_routeLine (measure : String → Nat) (width : Nat) {route : Route}
    (h : ∀ text ∈ route.strings, IsUnescaped text) :
    AreUnescaped (routeLine measure width route) := by
  have hname : IsUnescaped ("    " ++ route.qualifiedName) :=
    isUnescaped_append (by decide) (h _ (by simp [Route.strings]))
  rw [routeLine]
  split
  · refine .cons (isUnescaped_append (isUnescaped_append hname (isUnescaped_blanks _))
      (by decide)) (.cons (isUnescaped_argumentsText fun argument hmem => ?_) (by decide))
    exact h _ (by simpa [Route.strings] using Or.inr (Or.inr ⟨argument, hmem, rfl⟩))
  · exact .cons (isUnescaped_append hname (by decide)) (by decide)

theorem areUnescaped_namespaceRows (measure : String → Nat) (width : Nat)
    {entry : Route.Namespace × List Route}
    (h : ∀ text ∈ entry.1.string :: entry.2.flatMap Route.strings, IsUnescaped text) :
    AreUnescaped (spansOf (namespaceRows measure width entry)) := by
  obtain ⟨hspace, hroutes⟩ := List.forall_mem_cons.1 h
  have hlabel : IsUnescaped (namespaceText entry.1) := by
    cases hentry : entry.1 <;> rw [hentry] at hspace
    · exact hspace
    · exact isUnescaped_append hspace (by decide)
  rw [namespaceRows, spansOf_append, spansOf_append, spansOf_map]
  refine .append (.append (.cons (by decide) (.cons hlabel (by decide))) ?_) (.flatMap ?_)
  · split <;> decide
  · intro route hroute
    refine areUnescaped_routeLine measure width fun text htext => ?_
    exact hroutes text (List.mem_flatMap.2 ⟨route, hroute, htext⟩)

theorem areUnescaped_modelRows {models : Survey.ModelTable}
    (h : ∀ text ∈ models.entries.flatMap fun entry => entry.1 :: entry.2, IsUnescaped text) :
    AreUnescaped (spansOf (modelRows models)) := by
  rw [modelRows]
  split
  · decide
  · rw [spansOf_cons, spansOf_map]
    refine .append (by decide) (.flatMap fun entry hentry => ?_)
    have htexts (text : String) (htext : text ∈ entry.1 :: entry.2) : IsUnescaped text :=
      h text (List.mem_flatMap.2 ⟨entry, hentry, htext⟩)
    obtain ⟨happ, hnames⟩ := List.forall_mem_cons.1 htexts
    refine .cons (by decide) (.cons happ (.cons ?_ (by decide)))
    exact isUnescaped_append (isUnescaped_append (by decide)
      (isUnescaped_intercalate (by decide) hnames)) (by decide)

theorem areUnescaped_projectRows (measure : String → Nat) {project : Survey.Project}
    (h : ∀ text ∈ project.strings, IsUnescaped text) :
    AreUnescaped (spansOf (projectRows measure project)) := by
  obtain ⟨htexts, hmodels⟩ := List.forall_mem_append.1 h
  obtain ⟨hroot, hroutes⟩ := List.forall_mem_cons.1 htexts
  rw [projectRows, spansOf_append, spansOf_append, spansOf_append, spansOf_flatMap]
  refine .append (.append (.append (.cons hroot (by decide)) (.flatMap fun entry hentry => ?_))
    (areUnescaped_modelRows hmodels)) (by decide)
  refine areUnescaped_namespaceRows measure _ fun text htext => ?_
  exact hroutes text (List.mem_flatMap.2 ⟨entry, hentry, htext⟩)

/-- So is what of the rows of projects can be written. -/
theorem areUnescaped_written (measure : String → Nat) {projects : List Survey.Project}
    (h : ∀ project ∈ projects, ∀ text ∈ project.strings, IsUnescaped text) :
    AreUnescaped (written (projectsRows measure projects)) := by
  have hall : AreUnescaped (spansOf (projectsRows measure projects)) := by
    rw [projectsRows, spansOf_flatMap]
    exact .flatMap fun project hproject => areUnescaped_projectRows measure (h project hproject)
  exact fun span hspan => hall span ((written_isPrefix _).subset hspan)

theorem isUnescaped_message {diagnostic : Diagnostic}
    (h : ∀ text ∈ diagnostic.strings, IsUnescaped text) : IsUnescaped diagnostic.message := by
  cases diagnostic with
  | notAProject path =>
    have hpath : IsUnescaped path.text := h _ List.mem_cons_self
    exact isUnescaped_append (by decide) hpath
  | malformedRoutes message => exact h message List.mem_cons_self
  | unreadable path reason =>
    have hpath : IsUnescaped path.text := h _ List.mem_cons_self
    have hreason : IsUnescaped reason := h _ (List.mem_cons_of_mem _ List.mem_cons_self)
    exact isUnescaped_append (isUnescaped_append (isUnescaped_append (by decide) hpath)
      (by decide)) hreason

theorem areUnescaped_diagnosticLine {diagnostic : Diagnostic}
    (h : ∀ text ∈ diagnostic.strings, IsUnescaped text) :
    AreUnescaped (diagnosticLine diagnostic) := by
  have hlabel : IsUnescaped diagnostic.label := by
    cases diagnostic <;> rw [Diagnostic.label] <;> decide
  have hmessage := isUnescaped_append (isUnescaped_append (by decide : IsUnescaped " ")
    (isUnescaped_message h)) (by decide : IsUnescaped "  ")
  exact .cons (by decide) (.cons hmessage (.cons hlabel (by decide)))

theorem areUnescaped_unreadableLine (count : Nat) : AreUnescaped (unreadableLine count) := by
  refine .cons (by decide) (.cons ?_ (by decide))
  exact isUnescaped_append (isUnescaped_append (by decide) (isUnescaped_toString count))
    (by decide)

theorem areUnescaped_diagnosticsLines (verbose : Bool) {diagnostics : List Diagnostic}
    (h : ∀ diagnostic ∈ diagnostics, ∀ text ∈ diagnostic.strings, IsUnescaped text) :
    AreUnescaped (diagnosticsLines verbose diagnostics) := by
  have hhidden (hidden : Nat) :
      AreUnescaped (if hidden = 0 then [] else unreadableLine hidden) := by
    split
    · decide
    · exact areUnescaped_unreadableLine hidden
  refine .append (.flatMap fun diagnostic hdiagnostic => ?_) (hhidden _)
  refine areUnescaped_diagnosticLine (h diagnostic ?_)
  split at hdiagnostic
  · exact hdiagnostic
  · exact (List.mem_filter.1 hdiagnostic).1

theorem isUnescaped_counted (count : Nat) {singular plural : String} (h : IsUnescaped singular)
    (h' : IsUnescaped plural) : IsUnescaped (counted count singular plural) :=
  isUnescaped_append (isUnescaped_append (isUnescaped_toString count) (by decide))
    (isUnescaped_countNoun count h h')

theorem isUnescaped_foundText (projects : List Survey.Project) :
    IsUnescaped (foundText projects) := by
  have hroutes : IsUnescaped (counted (routeCount projects) "route" "routes") :=
    isUnescaped_counted _ (by decide) (by decide)
  have hmodels : IsUnescaped (counted (modelCount projects) "model" "models") :=
    isUnescaped_counted _ (by decide) (by decide)
  have hprojects : IsUnescaped (counted projects.length "project" "projects") :=
    isUnescaped_counted _ (by decide) (by decide)
  exact isUnescaped_append (isUnescaped_append (isUnescaped_append (isUnescaped_append
    (isUnescaped_append (by decide) hroutes) (by decide)) hmodels) (by decide)) hprojects

theorem areUnescaped_summaryLine (projects : List Survey.Project) (count : Nat) :
    AreUnescaped (summaryLine projects count) := by
  have hfound := isUnescaped_foundText projects
  rw [summaryLine]
  split
  · exact .cons (by decide) (.cons (by decide) (.cons hfound (by decide)))
  · have hcount := isUnescaped_append (isUnescaped_append (by decide : IsUnescaped " (")
      (isUnescaped_toString count)) (by decide : IsUnescaped " ")
    have hnoun : IsUnescaped (countNoun count "warning" "warnings") :=
      isUnescaped_countNoun count (by decide) (by decide)
    exact .cons (by decide) (.cons (isUnescaped_append (isUnescaped_append (by decide) hfound)
      hcount) (.cons hnoun (by decide)))

/-! ## Whole reports -/

/--
For projects and diagnostics whose texts have no escape, the coloured reports are the plain ones but
for their escape sequences, in every verbosity and for every number of diagnostics; and the JSON
report, if there is one, is the same in colour and without.
-/
theorem uncolored_reports {projects : List Survey.Project} {diagnostics : List Diagnostic}
    (h : ∀ project ∈ projects, ∀ text ∈ project.strings, IsUnescaped text)
    (h' : ∀ diagnostic ∈ diagnostics, ∀ text ∈ diagnostic.strings, IsUnescaped text) :
    withoutSequences (projectsText true projects) = projectsText false projects ∧
    (∀ verbose, withoutSequences (diagnosticsText true verbose diagnostics) =
      diagnosticsText false verbose diagnostics) ∧
    (∀ count, withoutSequences (summaryText true projects count) =
      summaryText false projects count) ∧
    ∀ colored, render colored (CommandLine.Format.json.report ⟨projects, diagnostics⟩).spans =
      (jsonText? projects).getD "" := by
  refine ⟨withoutSequences_render (areUnescaped_written _ h), fun verbose => ?_, fun count => ?_,
    fun colored => ?_⟩
  · exact withoutSequences_render (areUnescaped_diagnosticsLines verbose h')
  · exact withoutSequences_render (areUnescaped_summaryLine projects count)
  · rw [CommandLine.Format.report]
    dsimp only
    cases jsonText? projects with
    | none => rfl
    | some output => exact render_plain colored output

/-- A project and diagnostics whose reports have colour. -/
theorem uncolored_reports_garden :
    let garden : Survey.Project := ⟨⟨"g"⟩,
      ⟨[(.app "g", [⟨"bed", true, [⟨"n", some .integer⟩], "g:bed"⟩]), (.file "g/urls.py", [])],
        by decide⟩,
      ⟨[("g", ["Rose", "Tulip"])], by decide⟩⟩
    let diagnostics : List Diagnostic := [.notAProject ⟨"shed"⟩, .unreadable ⟨"g/crypt"⟩ "denied"]
    ((∀ project ∈ [garden], ∀ text ∈ project.strings, IsUnescaped text) ∧
      ∀ diagnostic ∈ diagnostics, ∀ text ∈ diagnostic.strings, IsUnescaped text) ∧
    (projectsText true [garden] ≠ projectsText false [garden] ∧
      withoutSequences (projectsText true [garden]) = projectsText false [garden]) ∧
    (diagnosticsText true false diagnostics ≠ diagnosticsText false false diagnostics ∧
      withoutSequences (diagnosticsText true false diagnostics) =
        diagnosticsText false false diagnostics) ∧
    withoutSequences (summaryText true [garden] 2) = summaryText false [garden] 2 := by
  intro garden diagnostics
  have hgarden : ∀ project ∈ [garden], ∀ text ∈ project.strings, IsUnescaped text := by
    decide +kernel
  have hdiagnostics :
      ∀ diagnostic ∈ diagnostics, ∀ text ∈ diagnostic.strings, IsUnescaped text := by
    decide +kernel
  obtain ⟨hprojects, hverbose, hcount, -⟩ := uncolored_reports hgarden hdiagnostics
  exact ⟨⟨hgarden, hdiagnostics⟩, ⟨by decide +kernel, hprojects⟩,
    ⟨by decide +kernel, hverbose false⟩, hcount 2⟩

end Report

end SiteSurvey
