import SiteSurvey.Proofs.CommandLine.Status
import SiteSurvey.Proofs.Report.Lines

/-!
# What the options of a report change

Whether a survey is asked to be verbose changes only what is written of its warnings: the note that
defaults are used and the lines of unreadable paths are left out (`withoutDetails`), and one line
counts the latter. The format of the results changes nothing but the results, as long as they can be
written in either (`scan_presentation`).
-/

namespace SiteSurvey.CommandLine

open Report

/-! ## Details -/

/-- Whether a line of warnings is written only on request. -/
def isDetail (line : List Span) : Bool :=
  line == defaultsNote || isUnreadableLine line

/-- The lines of warnings that are written in any case, in order. -/
def withoutDetails (warnings : List Span) : List Span :=
  ((linesOf warnings).filter (!isDetail ·)).flatten

/-- The line that counts unreadable paths, if there are any. -/
def countLine (count : Nat) : List Span :=
  if count = 0 then [] else unreadableLine count

theorem isLine_defaultsNote : IsLine defaultsNote :=
  ⟨[bold "note:"], plain (" No " ++ Config.fileName ++ " found, using default configuration\n"),
    rfl, by decide, by decide⟩

theorem withoutDetails_configNote (verbose : Bool) (loaded : Config.Loaded)
    (warnings : List Span) :
    withoutDetails (configNote verbose loaded ++ warnings) = withoutDetails warnings := by
  unfold configNote
  split
  · have hdetail : isDetail defaultsNote = true := by decide
    rw [withoutDetails, linesOf_append isLine_defaultsNote,
      List.filter_cons_of_neg (by simp [hdetail])]
    rfl
  · rfl

theorem withoutDetails_plain (text : String) : withoutDetails [plain text] = [plain text] := by
  have hdetail : isDetail [plain text] = false := by
    simp [isDetail, isUnreadableLine, unreadableLabel_ne_plain, defaultsNote]
  rw [withoutDetails, linesOf_singleton, List.filter_cons_of_pos (by simp [hdetail])]
  rfl

theorem withoutDetails_errorLine (message : String) :
    withoutDetails [errorLine message] = [errorLine message] :=
  withoutDetails_plain _

theorem isDetail_diagnosticLine (diagnostic : Diagnostic) :
    isDetail (diagnosticLine diagnostic) = diagnostic.isUnreadable := by
  have hnote : (diagnosticLine diagnostic == defaultsNote) = false := by
    simp [diagnosticLine, defaultsNote]
  rw [isDetail, hnote, Bool.false_or, isUnreadableLine_diagnosticLine]

/-- The lines of all diagnostics but for details are followed by one line in a short report. -/
theorem diagnosticsLines_false (diagnostics : List Diagnostic) :
    diagnosticsLines false diagnostics = withoutDetails (diagnosticsLines true diagnostics) ++
      countLine (diagnostics.countP (·.isUnreadable)) := by
  have hlines : linesOf (diagnosticsLines true diagnostics) = diagnostics.map diagnosticLine := by
    rw [← linesOf_flatMap_diagnosticLine]
    exact congrArg linesOf (List.append_nil _)
  have hshown : (diagnostics.map diagnosticLine).filter (!isDetail ·) =
      (diagnostics.filter (!·.isUnreadable)).map diagnosticLine := by
    rw [List.filter_map]
    simp only [Function.comp_def, isDetail_diagnosticLine]
  rw [withoutDetails, hlines, hshown, ← List.flatMap_def]
  rfl

/-! ## Surveys -/

/-- The survey that a request asks for, if there is a plan for it. -/
def survey? (view : DiskView) (directory : Path) (request : ScanRequest) : Option Survey :=
  (plan view directory request).toOption.map fun plan =>
    Survey.ofPaths view.toFileView plan.options plan.paths

/-- The diagnostics of the survey that a request asks for, if its results can be written. -/
def reported (view : DiskView) (directory : Path) (request : ScanRequest) : List Diagnostic :=
  match survey? view directory request with
  | some survey => if request.format.CanReport survey then survey.diagnostics else []
  | none => []

theorem reported_eq {view : DiskView} {directory : Path} {request : ScanRequest} {survey : Survey}
    (h : survey? view directory request = some survey)
    (hreport : request.format.CanReport survey) :
    reported view directory request = survey.diagnostics := by
  unfold reported
  rw [h]
  exact if_pos hreport

theorem surveyOutcome_verbose (request : ScanRequest) (loaded : Config.Loaded) (survey : Survey) :
    let quiet := surveyOutcome { request with verbose := false } (configNote false loaded) survey
    let verbose := surveyOutcome { request with verbose := true } (configNote true loaded) survey
    quiet.status = verbose.status ∧ quiet.results = verbose.results ∧
      quiet.warnings = withoutDetails verbose.warnings ++ countLine
        ((if request.format.CanReport survey then survey.diagnostics else []).countP
          (·.isUnreadable)) := by
  intro quiet verbose
  have hnote : configNote false loaded = [] := rfl
  cases hfault : (request.format.report survey).fault? with
  | none =>
    have hreport := Format.report_fault?_eq_none_iff.1 hfault
    have hquiet : quiet = _ :=
      @surveyOutcome_of_canReport { request with verbose := false } survey hreport _
    have hverbose : verbose = _ :=
      @surveyOutcome_of_canReport { request with verbose := true } survey hreport _
    rw [hquiet, hverbose, if_pos hreport]
    refine ⟨rfl, rfl, ?_⟩
    dsimp only
    rw [hnote, List.nil_append, withoutDetails_configNote, diagnosticsLines_false]
  | some fault =>
    have hreport : ¬ request.format.CanReport survey := fun h => by
      rw [Format.report_fault?_eq_none_iff.2 h] at hfault
      cases hfault
    have hquiet : quiet = _ :=
      @surveyOutcome_of_fault { request with verbose := false } survey fault hfault _
    have hverbose : verbose = _ :=
      @surveyOutcome_of_fault { request with verbose := true } survey fault hfault _
    rw [hquiet, hverbose, if_neg hreport]
    refine ⟨rfl, rfl, ?_⟩
    have hline : withoutDetails [fault.line] = [fault.line] := by
      cases fault <;> exact withoutDetails_plain _
    dsimp only
    rw [hnote, List.nil_append, withoutDetails_configNote, hline]
    rfl

theorem surveyOutcome_format {request : ScanRequest} {format : Format} {survey : Survey}
    (h : request.format.CanReport survey) (h' : format.CanReport survey) (note : List Span) :
    (surveyOutcome { request with format := format } note survey).status =
        (surveyOutcome request note survey).status ∧
      (surveyOutcome { request with format := format } note survey).warnings =
        (surveyOutcome request note survey).warnings := by
  have hformat : surveyOutcome { request with format := format } note survey = _ :=
    @surveyOutcome_of_canReport { request with format := format } survey h' note
  rw [hformat, surveyOutcome_of_canReport h note]
  exact ⟨rfl, rfl⟩

/--
For every disk, the outcome of a survey that is not verbose has the status and the results of the
verbose one, and its warnings without their details, with one line more that counts the unreadable
paths among the diagnostics of the survey, if there are any. Outcomes of surveys in formats that can
both be written have the same status and the same warnings.
-/
theorem scan_presentation (view : DiskView) (directory : Path) (request : ScanRequest) :
    ((scan view directory { request with verbose := false }).status =
        (scan view directory { request with verbose := true }).status ∧
      (scan view directory { request with verbose := false }).results =
        (scan view directory { request with verbose := true }).results ∧
      (scan view directory { request with verbose := false }).warnings =
        withoutDetails (scan view directory { request with verbose := true }).warnings ++
          countLine ((reported view directory request).countP (·.isUnreadable))) ∧
    ∀ format : Format,
      (∀ survey ∈ survey? view directory request,
        request.format.CanReport survey ∧ format.CanReport survey) →
      (scan view directory { request with format := format }).status =
        (scan view directory request).status ∧
      (scan view directory { request with format := format }).warnings =
        (scan view directory request).warnings := by
  -- the depths and paths of the variants of the request are its own
  have hverbose (verbose : Bool) (config : Config) :
      { request with verbose := verbose }.override config = request.override config := rfl
  have hformat (format : Format) (config : Config) :
      { request with format := format }.override config = request.override config := rfl
  unfold reported survey? scan plan planOf
  rcases Config.load view directory with error | loaded
  · refine ⟨⟨rfl, rfl, ?_⟩, fun _ _ => ⟨rfl, rfl⟩⟩
    dsimp only
    rw [withoutDetails_errorLine]
    rfl
  · simp only [hverbose, hformat]
    rcases (request.override loaded.config).options with fault | options
    · refine ⟨⟨rfl, rfl, ?_⟩, fun _ _ => ⟨rfl, rfl⟩⟩
      dsimp only
      rw [withoutDetails_configNote, withoutDetails_errorLine]
      rfl
    · refine ⟨surveyOutcome_verbose request loaded _, fun format h => ?_⟩
      obtain ⟨hreport, hreport'⟩ := h _ rfl
      exact surveyOutcome_format hreport hreport' _

/-- Two unreadable paths among four warnings, which are the same in JSON. -/
theorem scan_presentation_market :
    let view : DiskView := ⟨Survey.market, fun _ => false, fun _ => false⟩
    let request : ScanRequest := { paths := [⟨"m"⟩, ⟨"n"⟩] }
    (∀ survey ∈ survey? view ⟨"m"⟩ request,
      Format.text.CanReport survey ∧ Format.json.CanReport survey) ∧
    (reported view ⟨"m"⟩ request).countP (·.isUnreadable) = 2 ∧
    (scan view ⟨"m"⟩ request).warnings =
      diagnosticLine (.malformedRoutes
        "Malformed route file m/fish/urls.py: unmatched ')' at byte offset 22") ++
      diagnosticLine (.notAProject ⟨"n"⟩) ++ unreadableLine 2 ∧
    (scan view ⟨"m"⟩ { request with format := .json }).status = .failure ∧
    (scan view ⟨"m"⟩ { request with format := .json }).warnings =
      (scan view ⟨"m"⟩ request).warnings := by
  intro view request
  have hsurvey : survey? view ⟨"m"⟩ request = some marketSurvey := rfl
  have hreport : ∀ survey ∈ survey? view ⟨"m"⟩ request,
      Format.text.CanReport survey ∧ Format.json.CanReport survey := by
    rw [hsurvey]
    rintro _ ⟨⟩
    exact ⟨canReport_marketSurvey .text, canReport_marketSurvey .json⟩
  have hcount : (reported view ⟨"m"⟩ request).countP (·.isUnreadable) = 2 := by
    rw [reported_eq hsurvey (canReport_marketSurvey _), diagnostics_marketSurvey]
    rfl
  have hverbose : scan view ⟨"m"⟩ { request with verbose := true } =
      surveyOutcome { request with verbose := true } defaultsNote marketSurvey := rfl
  rw [surveyOutcome_of_canReport (canReport_marketSurvey _), diagnostics_marketSurvey] at hverbose
  obtain ⟨⟨hstatus, -, hquiet⟩, hformat⟩ := scan_presentation view ⟨"m"⟩ request
  obtain ⟨hjson, hwarnings⟩ := hformat .json hreport
  rw [hverbose] at hstatus
  rw [hcount, hverbose] at hquiet
  refine ⟨hreport, hcount, ?_, hjson.trans hstatus, hwarnings⟩
  exact hquiet.trans (by decide +kernel)

/-- A survey may succeed in one format only. -/
theorem scan_formats_differ :
    ((scan coveView ⟨""⟩ { paths := [cove] }).status = .success ∧
      (scan coveView ⟨""⟩ { paths := [cove], format := .json }).status = .error) ∧
    (scan (galleryView 65536) ⟨""⟩ { paths := [⟨"g"⟩] }).status = .aborted ∧
      (scan (galleryView 65536) ⟨""⟩ { paths := [⟨"g"⟩], format := .json }).status = .success := by
  refine ⟨⟨by decide +kernel, by decide +kernel⟩, (scan_gallery (by decide)).2.2, ?_⟩
  exact scan_json_gallery 65536

end SiteSurvey.CommandLine
