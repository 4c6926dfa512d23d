import SiteSurvey.Ignore
import SiteSurvey.Json.Value
import SiteSurvey.Survey.Scan

/-!
# Configurations

What a survey takes from its configuration: patterns of directories to ignore, the two depths and
the paths to look at. A configuration is written as a JSON object.
-/

namespace SiteSurvey

structure Config where
  /-- Patterns of directory names to ignore besides the built-in ones. -/
  ignores : List String := []
  projectDepth : Nat := 3
  appDepth : Nat := 2
  /-- The paths to look at when none are given. -/
  paths : List String := ["."]
  deriving DecidableEq, Repr

namespace Config

def fileName : String :=
  ".routescoutrc.json"

/-! ## Patterns -/

/-- The first faulty pattern of a list, with its fault. -/
def firstFaulty? : List String → Option (String × Glob.Fault)
  | [] => none
  | pattern :: patterns =>
    match Glob.Pattern.read pattern with
    | .error fault => some (pattern, fault)
    | .ok _ => firstFaulty? patterns

/-- The first faulty pattern of the configuration, with its fault. -/
def faultyPattern? (config : Config) : Option (String × Glob.Fault) :=
  firstFaulty? config.ignores

/-- The options of a survey, or the fault of the first faulty pattern. -/
def options (config : Config) : Except Glob.Fault Survey.Options :=
  (IgnoreSet.ofPatterns config.ignores).map fun ignored =>
    { projectDepth := config.projectDepth, appDepth := config.appDepth, ignored := ignored }

/-! ## Writing -/

def value (config : Config) : Json.Value :=
  .object
    [("ignores", .array (config.ignores.map .string)),
     ("projectDepth", .natural config.projectDepth),
     ("appDepth", .natural config.appDepth),
     ("paths", .array (config.paths.map .string))]

/-- The text of the configuration file that has only defaults. -/
def defaultText : String :=
  (value {}).pretty

end Config

end SiteSurvey
