import SiteSurvey.CommandLine.Run
import SiteSurvey.Inquiry.Survey

/-!
# Commands as inquiries

What a command asks of the system: for a survey the configuration first, and then what the walks
come to; for a new configuration whether there is one.
-/

namespace SiteSurvey.Inquiry

open CommandLine

/-! ## Configurations -/

/-- The configuration file of the first directory that has one, before the first repository ends. -/
def findAmong? : List Path → Inquiry (Option Path)
  | [] => return none
  | directory :: above => do
    let candidate := directory.join Config.fileName
    if ← isFile candidate then return some candidate
    else if ← isPresent (directory.join Config.repositoryMarker) then return none
    else findAmong? above

/-- The configuration in the file at a path. -/
def ofFile (path : Path) : Inquiry (Except ConfigError Config) := do
  match ← read path with
  | .error error => return .error (.unreadable path error)
  | .ok text => return Config.ofText path text

/-- The configuration of a directory. -/
def load (start : Path) : Inquiry (Except ConfigError Config.Loaded) := do
  match ← findAmong? start.ancestors with
  | none => return .ok {}
  | some path => return (← ofFile path).map fun config => ⟨config, true⟩

/-! ## Commands -/

/-- Makes a survey with the configuration of the working directory. -/
def scan (request : ScanRequest) : Inquiry Outcome := do
  match ← workingDirectory with
  | .error fault => return directoryUnknown fault
  | .ok directory =>
    match planOf (← load directory) request with
    | .error outcome => return outcome
    | .ok plan => return surveyOutcome request plan.note (← ofPaths plan.options plan.paths)

/-- Writes a configuration that has only defaults, unless there is one. -/
def init : Inquiry Outcome := do
  let path : Path := ⟨Config.fileName⟩
  if ← isPresent path then return configPresent
  else
    match ← write path Config.defaultText with
    | .error fault => return configUnwritable fault
    | .ok () => return configCreated

/-- Carries out a command; without one the help is written. -/
def run : Option Command → Inquiry Outcome
  | none => return helpOutcome
  | some (.scan request) => scan request
  | some .init => init

end SiteSurvey.Inquiry
