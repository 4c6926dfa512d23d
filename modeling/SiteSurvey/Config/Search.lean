import SiteSurvey.Config.Error
import SiteSurvey.Config.Reader

/-!
# Finding configurations

The configuration of a directory is in the nearest file of the proper name in the directory or above
it. The search ends in the first directory that holds a repository. A file that was found decides:
if it is faulty there is no configuration, and without a file the defaults hold.
-/

namespace SiteSurvey.Config

/-! ## Searching -/

/-- The name that marks a directory as the top of a repository. -/
def repositoryMarker : String :=
  ".git"

/-- The configuration file of the first directory that has one, before the first repository ends. -/
def findAmong? (view : DiskView) : List Path → Option Path
  | [] => none
  | directory :: above =>
    let candidate := directory.join fileName
    if view.isFile candidate then some candidate
    else if view.isPresent (directory.join repositoryMarker) then none
    else findAmong? view above

/-- The configuration file nearest to a directory. -/
def find? (view : DiskView) (start : Path) : Option Path :=
  findAmong? view start.ancestors

/-! ## Loading -/

/-- A configuration, and whether it comes from a file. -/
structure Loaded where
  config : Config := {}
  fromFile : Bool := false
  deriving DecidableEq, Repr

/-- The configuration itself if all its patterns are sound. -/
def checked (config : Config) : Except ConfigError Config :=
  match config.faultyPattern? with
  | some (pattern, fault) => .error (.badPattern pattern fault)
  | none => .ok config

/-- The configuration in the text of the file at a path. -/
def ofText (path : Path) (text : String) : Except ConfigError Config :=
  match read text with
  | .error fault => .error (.unparsable path fault)
  | .ok config => config.checked

/-- The configuration in the file at a path. -/
def ofFile (view : DiskView) (path : Path) : Except ConfigError Config :=
  match view.read path with
  | .error error => .error (.unreadable path error)
  | .ok text => ofText path text

/-- The configuration of a directory. -/
def load (view : DiskView) (start : Path) : Except ConfigError Loaded :=
  match find? view start with
  | none => .ok {}
  | some path => (ofFile view path).map fun config => ⟨config, true⟩

end SiteSurvey.Config
