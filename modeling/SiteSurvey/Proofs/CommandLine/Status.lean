import SiteSurvey.CommandLine.Run
import SiteSurvey.Proofs.Config.Patterns
import SiteSurvey.Proofs.Report.Alignment
import SiteSurvey.Proofs.Route.RoundTrip
import SiteSurvey.Proofs.Survey.Diagnostics
import SiteSurvey.Proofs.Survey.Routes

/-!
# The status of a survey

Patterns that were found sound when a configuration was loaded can be read again, so a survey whose
configuration loads is made (`plan_of_load`). Where its results can be written, its status tells
whether there was anything to report, and what that can be is known path by path (`scan_reports`).
-/

namespace SiteSurvey

namespace CommandLine

open Survey

/-! ## The survey of a request -/

theorem plan_of_load {view : DiskView} {directory : Path} {loaded : Config.Loaded}
    (h : Config.load view directory = .ok loaded) (request : ScanRequest) :
    ∃ options, (request.override loaded.config).options = .ok options ∧
      plan view directory request =
        .ok ⟨configNote request.verbose loaded, options,
          request.pathsOr (request.override loaded.config)⟩ := by
  have hsound : ∀ pattern ∈ (request.override loaded.config).ignores, Glob.IsSound pattern :=
    Config.isSound_of_load h
  obtain ⟨_, hoptions, -⟩ := Config.options_of_isSound hsound
  refine ⟨_, hoptions, ?_⟩
  rw [plan, h]
  unfold planOf
  dsimp only
  rw [hoptions]

theorem scan_of_load {view : DiskView} {directory : Path} {loaded : Config.Loaded}
    (h : Config.load view directory = .ok loaded) (request : ScanRequest) :
    ∃ options, (request.override loaded.config).options = .ok options ∧
      scan view directory request =
        surveyOutcome request (configNote request.verbose loaded)
          (ofPaths view.toFileView options
            (request.pathsOr (request.override loaded.config))) := by
  obtain ⟨options, hoptions, hplan⟩ := plan_of_load h request
  refine ⟨options, hoptions, ?_⟩
  rw [scan, hplan]

/-! ## Reports that can be written -/

/-- The results of the survey can be written in the format. -/
def Format.CanReport (survey : Survey) : Format → Prop
  | .text => ∀ project ∈ survey.projects, Report.IsAlignable Text.displayWidth project
  | .json => ∀ project ∈ survey.projects, project.root.isUnicode

instance (survey : Survey) : (format : Format) → Decidable (format.CanReport survey)
  | .text => inferInstanceAs (Decidable (∀ project ∈ survey.projects, _))
  | .json => inferInstanceAs (Decidable (∀ project ∈ survey.projects, _))

theorem Format.report_fault?_eq_none_iff {survey : Survey} {format : Format} :
    (format.report survey).fault? = none ↔ format.CanReport survey := by
  cases format with
  | text =>
    rw [report, CanReport, ← Report.all_isWritable_projectsRows_iff]
    split_ifs with h <;> simp [h]
  | json =>
    have hall : survey.projects.all (·.root.isUnicode) ↔ Format.json.CanReport survey :=
      List.all_eq_true
    rw [report, ← hall, Report.jsonText?, Report.projectsValue?]
    split_ifs with h <;> simp [h]

theorem Format.text_report_fault? {survey : Survey} (h : ¬ Format.text.CanReport survey) :
    (Format.text.report survey).fault? = some .overfilled := by
  rw [CanReport, ← Report.all_isWritable_projectsRows_iff] at h
  rw [report, if_neg h]

/-- A report that can be written is followed by what is to be warned of. -/
theorem surveyOutcome_of_canReport {request : ScanRequest} {survey : Survey}
    (h : request.format.CanReport survey) (note : List Report.Span) :
    surveyOutcome request note survey =
      ⟨if survey.diagnostics.isEmpty then .success else .failure,
        (request.format.report survey).spans,
        note ++ Report.diagnosticsLines request.verbose survey.diagnostics⟩ := by
  rw [surveyOutcome, Format.report_fault?_eq_none_iff.2 h]

theorem surveyOutcome_status_of_canReport {request : ScanRequest} {survey : Survey}
    (h : request.format.CanReport survey) (note : List Report.Span) :
    (surveyOutcome request note survey).status =
      if survey.diagnostics = [] then .success else .failure := by
  rw [surveyOutcome_of_canReport h]
  dsimp only
  simp only [List.isEmpty_iff]

theorem surveyOutcome_of_fault {request : ScanRequest} {survey : Survey} {fault : ReportFault}
    (h : (request.format.report survey).fault? = some fault) (note : List Report.Span) :
    surveyOutcome request note survey =
      ⟨fault.status, (request.format.report survey).spans, note ++ [fault.line]⟩ := by
  rw [surveyOutcome, h]

theorem surveyOutcome_status_of_text {request : ScanRequest} {survey : Survey}
    (hformat : request.format = .text) (h : ¬ Format.text.CanReport survey)
    (note : List Report.Span) : (surveyOutcome request note survey).status = .aborted := by
  have hfault : (request.format.report survey).fault? = some .overfilled := by
    rw [hformat]
    exact Format.text_report_fault? h
  rw [surveyOutcome_of_fault hfault]
  rfl

/-- The root of some project is no text. -/
def HasStrayRoot (survey : Survey) : Prop :=
  ∃ project ∈ survey.projects, ¬ project.root.isUnicode

theorem Format.json_report_of_hasStrayRoot {survey : Survey} (h : HasStrayRoot survey) :
    Format.json.report survey = ⟨[], some .rootNotText⟩ := by
  have hroots : ¬ survey.projects.all (·.root.isUnicode) := by
    simpa [HasStrayRoot] using h
  rw [report, Report.jsonText?, Report.projectsValue?, if_neg hroots]
  rfl

/-- The survey of a market and of a path where there is nothing. -/
def marketSurvey : Survey :=
  ofPaths market {} [⟨"m"⟩, ⟨"n"⟩]

theorem diagnostics_marketSurvey : marketSurvey.diagnostics =
    [.malformedRoutes "Malformed route file m/fish/urls.py: unmatched ')' at byte offset 22",
      .unreadable ⟨"m/wine/urls.py"⟩ "permission denied: m/wine/urls.py",
      .unreadable ⟨"n"⟩ "no such file or directory: n", .notAProject ⟨"n"⟩] := by
  decide +kernel

theorem canReport_marketSurvey (format : Format) : format.CanReport marketSurvey := by
  cases format <;> decide +kernel

/-! ## What a survey reports and how it ends -/

/--
A survey reports on its paths in turn and on nothing else, and it reports a route file for its
brackets exactly if one is unmatched. A request whose configuration loads and whose results can be
written succeeds if every path is flawless, and ends in failure otherwise. It ends in an error
without results if they are to be written as JSON and the root of a project is no text.
-/
theorem scan_reports :
    (∀ view options paths, (ofPaths view options paths).diagnostics =
      paths.flatMap (pathReports view options)) ∧
    (∀ text source, (Route.File.read text source).fault = none ↔
      ¬ Route.IsUnsound (Source.uncommentedJoined text.toList)) ∧
    ∀ (view : DiskView) (directory : Path) (request : ScanRequest) (loaded : Config.Loaded),
      Config.load view directory = .ok loaded →
      ∃ options survey, (request.override loaded.config).options = .ok options ∧
        survey = ofPaths view.toFileView options
          (request.pathsOr (request.override loaded.config)) ∧
        (request.format.CanReport survey →
          ((scan view directory request).status = .success ↔
            ∀ path ∈ request.pathsOr (request.override loaded.config),
              IsFlawless view.toFileView options path) ∧
          ((scan view directory request).status = .failure ↔
            ¬ ∀ path ∈ request.pathsOr (request.override loaded.config),
              IsFlawless view.toFileView options path)) ∧
        (request.format = .json → HasStrayRoot survey →
          (scan view directory request).status = .error ∧
            (scan view directory request).results = []) := by
  refine ⟨ofPaths_diagnostics, Route.File.read_fault_eq_none_iff, ?_⟩
  intro view directory request loaded hload
  obtain ⟨options, hoptions, hscan⟩ := scan_of_load hload request
  refine ⟨options, _, hoptions, rfl, fun hreport => ?_, fun hformat hstray => ?_⟩
  · rw [hscan, surveyOutcome_status_of_canReport hreport, ← ofPaths_diagnostics_eq_nil_iff]
    split_ifs with h <;> simp [h]
  · have hprinted : request.format.report _ = _ :=
      hformat ▸ Format.json_report_of_hasStrayRoot hstray
    rw [hscan, surveyOutcome_of_fault (congrArg Printed.fault? hprinted)]
    exact ⟨rfl, congrArg Printed.spans hprinted⟩

theorem scan_reports_market :
    Config.load ⟨market, fun _ => false, fun _ => false⟩ ⟨"m"⟩ = .ok {} ∧
      (scan ⟨market, fun _ => false, fun _ => false⟩ ⟨"m"⟩ { paths := [⟨"m"⟩, ⟨"n"⟩] }).status =
        .failure ∧
      (ofPaths market {} [⟨"m"⟩, ⟨"n"⟩]).diagnostics =
        [.malformedRoutes
            "Malformed route file m/fish/urls.py: unmatched ')' at byte offset 22",
          .unreadable ⟨"m/wine/urls.py"⟩ "permission denied: m/wine/urls.py",
          .unreadable ⟨"n"⟩ "no such file or directory: n", .notAProject ⟨"n"⟩] := by
  have hload : Config.load ⟨market, fun _ => false, fun _ => false⟩ ⟨"m"⟩ = .ok {} := rfl
  obtain ⟨-, -, hscan⟩ := scan_reports
  obtain ⟨options, survey, hoptions, hsurvey, hstatus, -⟩ :=
    hscan _ _ { paths := [⟨"m"⟩, ⟨"n"⟩] } _ hload
  have hnone (root : Path) : root? market {} ⟨"n"⟩ ≠ some root := by
    have hn : root? market {} ⟨"n"⟩ = none := by decide +kernel
    rw [hn]
    exact nofun
  cases hoptions
  refine ⟨hload, (hstatus (hsurvey ▸ canReport_marketSurvey .text)).2.2 fun h => ?_,
    diagnostics_marketSurvey⟩
  obtain ⟨root, hroot, -⟩ := (h ⟨"n"⟩ (by decide)).found
  exact hnone root hroot

/-- A path of one byte that is no text. -/
def cove : Path :=
  ⟨{ text := "\ufffd", stray := [(0, [0xFF])] }⟩

/-- A view in which only this path has a project. -/
def coveView : DiskView where
  list path := if path = cove then .ok ⟨["manage.py"], []⟩ else .error (.absent path)
  read path := .error (.absent path)
  isFile _ := false
  isPresent _ := false

/-- A file whose second route has a name of `count + 1` letters. -/
def gallery (count : Nat) : Route.Written where
  app := none
  opening := none
  entries :=
    let view : Route.Written.PlainText := ⟨"v", by decide⟩
    [(⟨[.untyped ⟨⟨"n", by decide⟩, by decide⟩ (by decide)], view, ⟨⟨"a", by decide⟩, by decide⟩⟩,
      none),
    (⟨[], view, ⟨⟨String.ofList (List.replicate (count + 1) 'a'), fun c hc hmem => by
      rw [String.toList_ofList] at hmem
      rw [List.eq_of_mem_replicate hmem] at hc
      exact absurd hc (by decide)⟩, fun h => by
        simpa [List.replicate_succ] using congrArg String.toList h⟩⟩, none)]
  closing := none
  ended := true

/-- A view of a project that has this route file. -/
def galleryView (count : Nat) : DiskView where
  list path := if path = ⟨"g"⟩ then .ok ⟨["manage.py", "urls.py"], []⟩ else .error (.absent path)
  read path := if path = ⟨"g/urls.py"⟩ then .ok (gallery count).text else .error (.absent path)
  isFile _ := false
  isPresent _ := false

theorem measure_replicate (count : Nat) :
    Text.measure (List.replicate count 'a') = ((count : Int), {}) := by
  induction count with
  | zero => rfl
  | succ count ih =>
    have hstep : Text.widthStep 'a' {} = (1, {}) := by decide
    rw [List.replicate_succ, Text.measure, ih]
    dsimp only
    rw [hstep]
    rfl

/-- The survey of the gallery has its two routes and nothing to report. -/
theorem ofPaths_gallery (count : Nat) : ∃ project,
    ofPaths (galleryView count).toFileView {} [⟨"g"⟩] = ⟨[project], []⟩ ∧ project.root = ⟨"g"⟩ ∧
      project.routes.values = [(gallery count).entries.map (·.1.route (.file "g/urls.py"))] := by
  have hlist : (galleryView count).list ⟨"g"⟩ = .ok ⟨["manage.py", "urls.py"], []⟩ := by
    simp [galleryView]
  have hread : (galleryView count).read ⟨"g/urls.py"⟩ = .ok (gallery count).text := by
    simp [galleryView]
  have hjoin : Path.join ⟨"g"⟩ routeFileName = ⟨"g/urls.py"⟩ := by decide
  have htrace : rootTrace (galleryView count).toFileView {} ⟨"g"⟩ =
      ⟨[.level ⟨"g"⟩ ["manage.py", "urls.py"]], true⟩ := by
    rw [rootTrace, walk, hlist]
    rfl
  have hevents : appEvents (galleryView count).toFileView {} ⟨"g"⟩ =
      [.level ⟨"g"⟩ ["manage.py", "urls.py"]] := by
    rw [appEvents, walkAll, walk, hlist]
    rfl
  have hfound : findAll (galleryView count).toFileView [.level ⟨"g"⟩ ["manage.py", "urls.py"]] =
      { routeFiles := [.read (gallery count).text "g/urls.py"] } := by
    rw [findAll, List.foldr_cons, findAt, findLevelRoutes, if_pos (by decide), hjoin]
    dsimp only
    rw [findInFile, hread]
    dsimp only
    rw [findRoutes, Route.Written.read_text]
    rfl
  refine ⟨Project.ofFindings ⟨"g"⟩ { routeFiles := [.read (gallery count).text "g/urls.py"] },
    ?_, rfl, ?_⟩
  · rw [ofPaths, ofPath, root?, rootDiagnostics, htrace]
    rw [stopLevel?]
    dsimp only
    rw [List.getLast?_singleton]
    dsimp only
    rw [ofRoot, hevents, hfound]
    rfl
  · rw [Project.ofFindings, OrderedMap.values]
    dsimp only
    rw [List.map_singleton, Route.Written.entries_ofRawTables_read_text]
    rfl

/-- The arguments of the first route cannot be moved beyond the name of the second. -/
theorem not_canReport_gallery {count : Nat} (h : Report.fillingBound < count) :
    ¬ Format.text.CanReport (ofPaths (galleryView count).toFileView {} [⟨"g"⟩]) := by
  obtain ⟨project, hsurvey, -, hroutes⟩ := ofPaths_gallery count
  rw [hsurvey]
  intro hreport
  let short : Route := ⟨"a", true, [⟨"n", none⟩], "a"⟩
  let name : String := String.ofList (List.replicate (count + 1) 'a')
  have hall : project.routes.values.flatten = [short, ⟨name, false, [], name⟩] := by
    rw [hroutes]
    rfl
  have hwide : Text.displayWidth name = count + 1 := by
    rw [Text.displayWidth, String.toList_ofList, measure_replicate]
    rfl
  have hnarrow : Text.displayWidth "a" = 1 := by decide +kernel
  have hwidest := (Report.isWidest_nameWidth Text.displayWidth project.routes).bounds
  have hbound := hwidest ⟨name, false, [], name⟩ (by simp [hall])
  have hfilling := hreport project List.mem_cons_self short (by simp [hall]) rfl
  dsimp only [short] at hbound hfilling
  omega

theorem scan_gallery {count : Nat} (h : Report.fillingBound < count) :
    Config.load (galleryView count) ⟨""⟩ = .ok {} ∧
      IsFlawless (galleryView count).toFileView {} ⟨"g"⟩ ∧
      (scan (galleryView count) ⟨""⟩ { paths := [⟨"g"⟩] }).status = .aborted := by
  have hload : Config.load (galleryView count) ⟨""⟩ = .ok {} := rfl
  have hflawless : IsFlawless (galleryView count).toFileView {} ⟨"g"⟩ := by
    obtain ⟨project, hsurvey, -⟩ := ofPaths_gallery count
    refine (ofPaths_diagnostics_eq_nil_iff _ {} [⟨"g"⟩]).1 ?_ _ List.mem_cons_self
    rw [hsurvey]
  obtain ⟨options, hoptions, hscan⟩ := scan_of_load hload { paths := [⟨"g"⟩] }
  cases hoptions
  refine ⟨hload, hflawless, ?_⟩
  rw [hscan]
  exact surveyOutcome_status_of_text rfl (not_canReport_gallery h) _

/-- As JSON the results can be written. -/
theorem scan_json_gallery (count : Nat) :
    (scan (galleryView count) ⟨""⟩ { paths := [⟨"g"⟩], format := .json }).status = .success := by
  have hload : Config.load (galleryView count) ⟨""⟩ = .ok {} := rfl
  obtain ⟨project, hsurvey, hroot, -⟩ := ofPaths_gallery count
  obtain ⟨options, hoptions, hscan⟩ := scan_of_load hload { paths := [⟨"g"⟩], format := .json }
  cases hoptions
  have hreport : Format.json.CanReport (ofPaths (galleryView count).toFileView {} [⟨"g"⟩]) := by
    rw [hsurvey]
    refine List.forall_mem_singleton.2 ?_
    rw [hroot]
    rfl
  rw [hscan]
  refine (surveyOutcome_status_of_canReport hreport _).trans (if_pos ?_)
  exact congrArg Survey.diagnostics hsurvey

/--
A survey of a flawless path may fail all the same: there is no JSON of a root that is no text, and
no line in which a place takes too many spaces.
-/
theorem scan_flawless_ne_success :
    (Config.load coveView ⟨""⟩ = .ok {} ∧ IsFlawless coveView.toFileView {} cove ∧
      (scan coveView ⟨""⟩ { paths := [cove], format := .json }).status = .error) ∧
    Config.load (galleryView 65536) ⟨""⟩ = .ok {} ∧
      IsFlawless (galleryView 65536).toFileView {} ⟨"g"⟩ ∧
      (scan (galleryView 65536) ⟨""⟩ { paths := [⟨"g"⟩] }).status = .aborted := by
  have hcove : IsFlawless coveView.toFileView {} cove :=
    (ofPaths_diagnostics_eq_nil_iff _ {} [cove]).1 (by decide +kernel) _ List.mem_cons_self
  exact ⟨⟨rfl, hcove, by decide +kernel⟩, scan_gallery (by decide)⟩

end CommandLine

end SiteSurvey
