import SiteSurvey.CommandLine.Run
import SiteSurvey.Disk.Change
import SiteSurvey.Disk.View

/-!
# Commands on a disk

What a command makes of a disk. Only a new configuration changes it.
-/

namespace SiteSurvey.CommandLine

/-- Makes a survey with the configuration of a working directory. -/
def scanOn (disk : Disk) (directory : Place) (request : ScanRequest) : Outcome :=
  match disk.workingPath directory with
  | .error fault => directoryUnknown fault
  | .ok path => scan (disk.view directory) path request

/-- Writes a configuration that has only defaults into a directory, unless there is one. -/
def initOn (disk : Disk) (directory : Place) : Outcome × Disk :=
  let path : Path := ⟨Config.fileName⟩
  if (disk.view directory).isPresent path then (configPresent, disk)
  else
    match disk.write directory path (some Config.defaultText) with
    | .error fault => (configUnwritable fault, disk)
    | .ok disk => (configCreated, disk)

/-- Carries out a command in a directory; without one the help is written. -/
def runOn (disk : Disk) (directory : Place) : Option Command → Outcome × Disk
  | none => (helpOutcome, disk)
  | some (.scan request) => (scanOn disk directory request, disk)
  | some .init => initOn disk directory

end SiteSurvey.CommandLine
