import SiteSurvey.CommandLine.Command
import SiteSurvey.CommandLine.Help
import SiteSurvey.Config.Search
import SiteSurvey.Report.Json
import SiteSurvey.Report.Text

/-!
# Running commands

A command ends with a status and writes to two streams: results to the first, warnings and errors to
the second. A survey succeeds if nothing was to be warned of. Its warnings follow its results, so
there are none where the results cannot be written.
-/

namespace SiteSurvey.CommandLine

open Report

/-! ## Outcomes -/

inductive Status where
  | success
  /-- The command was carried out, but something was to be reported. -/
  | failure
  /-- The command could not be carried out. -/
  | error
  /-- The command broke off. -/
  | aborted
  deriving DecidableEq, Repr

def Status.code : Status → Nat
  | success => 0
  | failure => 1
  | error => 2
  | aborted => 101

structure Outcome where
  status : Status := .success
  results : List Span := []
  warnings : List Span := []
  deriving DecidableEq, Repr

/-- The line of an error. -/
def errorLine (message : String) : Span :=
  plain ("Error: " ++ message ++ "\n")

/-! ## Surveys -/

/-- The note that no configuration was found. -/
def defaultsNote : List Span :=
  [bold "note:", plain (" No " ++ Config.fileName ++ " found, using default configuration\n")]

/-- The note about the configuration, where one is due. -/
def configNote (verbose : Bool) (loaded : Config.Loaded) : List Span :=
  if verbose && !loaded.fromFile then defaultsNote else []

/-- The configuration with the depths of the request in place of its own. -/
def ScanRequest.override (request : ScanRequest) (config : Config) : Config :=
  { config with
    projectDepth := request.projectDepth.getD config.projectDepth
    appDepth := request.appDepth.getD config.appDepth }

/-- The paths of the request, or those of the configuration if it has none. -/
def ScanRequest.pathsOr (request : ScanRequest) (config : Config) : List Path :=
  if request.paths.isEmpty then config.paths.map Path.ofText else request.paths

/-- Why a report is not written, or not to its end. -/
inductive ReportFault where
  /-- The root of a project is no text, so there is no JSON of it. -/
  | rootNotText
  /-- A place in a line takes too many spaces. -/
  | overfilled
  deriving DecidableEq, Repr

namespace ReportFault

def status : ReportFault → Status
  | rootNotText => .error
  | overfilled => .aborted

def line : ReportFault → Span
  | rootNotText =>
    errorLine "Failed to serialize scan results.: path contains invalid UTF-8 characters"
  | overfilled => plain "Formatting argument out of range\n"

end ReportFault

/-- What is written of the results of a survey, and what keeps the rest from being written. -/
structure Printed where
  spans : List Span := []
  fault? : Option ReportFault := none
  deriving DecidableEq, Repr

/-- The results of a survey in a format. -/
def Format.report (survey : Survey) : Format → Printed
  | .text =>
    let rows := projectsRows Text.displayWidth survey.projects
    if rows.all Row.isWritable then
      ⟨written rows ++ summaryLine survey.projects survey.diagnostics.length, none⟩
    else ⟨written rows, some .overfilled⟩
  | .json =>
    match jsonText? survey.projects with
    | some output => ⟨[plain output], none⟩
    | none => ⟨[], some .rootNotText⟩

/-- What a survey is made with. -/
structure Plan where
  /-- What is to be said before the survey. -/
  note : List Span
  options : Survey.Options
  paths : List Path

/-- The plan for a request with what the configuration came to, or the outcome without one. -/
def planOf (loaded : Except ConfigError Config.Loaded) (request : ScanRequest) :
    Except Outcome Plan :=
  match loaded with
  | .error error => .error ⟨.error, [], [errorLine error.message]⟩
  | .ok loaded =>
    let note := configNote request.verbose loaded
    let config := request.override loaded.config
    match config.options with
    | .error fault =>
      .error ⟨.error, [], note ++ [errorLine (ConfigError.badIgnores fault).message]⟩
    | .ok options => .ok ⟨note, options, request.pathsOr config⟩

/-- The plan for a request in a directory. -/
def plan (view : DiskView) (directory : Path) (request : ScanRequest) : Except Outcome Plan :=
  planOf (Config.load view directory) request

/-- The outcome of a survey that was made. -/
def surveyOutcome (request : ScanRequest) (note : List Span) (survey : Survey) : Outcome :=
  let report := request.format.report survey
  match report.fault? with
  | none =>
    ⟨if survey.diagnostics.isEmpty then .success else .failure, report.spans,
      note ++ diagnosticsLines request.verbose survey.diagnostics⟩
  | some fault => ⟨fault.status, report.spans, note ++ [fault.line]⟩

/-- The outcome of a survey if the working directory is not known. -/
def directoryUnknown (fault : SystemFault) : Outcome :=
  ⟨.error, [], [errorLine ("Failed to read current directory: " ++ fault.message)]⟩

/-- Makes a survey with the configuration of a directory. -/
def scan (view : DiskView) (directory : Path) (request : ScanRequest) : Outcome :=
  match plan view directory request with
  | .error outcome => outcome
  | .ok plan =>
    surveyOutcome request plan.note (Survey.ofPaths view.toFileView plan.options plan.paths)

/-! ## New configurations -/

/-- The outcome if a configuration is there already. -/
def configPresent : Outcome :=
  ⟨.failure, [], [errorLine (Config.fileName ++ " already exists")]⟩

def configCreated : Outcome :=
  ⟨.success, [colored .green successMark, plain " ",
    colored .green ("Created " ++ Config.fileName), plain "\n"], []⟩

def configUnwritable (fault : SystemFault) : Outcome :=
  ⟨.error, [], [errorLine ("Failed to write " ++ Config.fileName ++ ": " ++ fault.message)]⟩

/-! ## Without a command -/

def helpOutcome : Outcome :=
  ⟨.success, [plain helpText], []⟩

end SiteSurvey.CommandLine
