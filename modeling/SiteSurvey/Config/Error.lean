import SiteSurvey.FileView
import SiteSurvey.Glob.Pattern
import SiteSurvey.Json.Cursor

/-!
# Errors in configurations

Why a configuration cannot be used: its file cannot be read, its text is no configuration, or one of
its patterns is faulty.
-/

namespace SiteSurvey

inductive ConfigError where
  | unreadable (path : Path) (error : AccessError)
  | unparsable (path : Path) (fault : Json.Fault)
  /-- A pattern found faulty when the configuration was checked. -/
  | badPattern (pattern : String) (fault : Glob.Fault)
  /-- A pattern found faulty when the options of a survey were made. -/
  | badIgnores (fault : Glob.Fault)
  deriving DecidableEq, Repr

namespace ConfigError

/-- What failed, without the cause. -/
def context : ConfigError → String
  | unreadable path _ => s!"Failed to read {path.text}"
  | unparsable path _ => s!"Failed to parse {path.text}"
  | badPattern pattern _ => s!"Invalid glob pattern in 'ignores': \"{pattern}\""
  | badIgnores _ => "Invalid glob pattern in 'ignores'"

/-- Why it failed. -/
def cause : ConfigError → String
  | unreadable _ error => error.message
  | unparsable _ fault => fault.message
  | badPattern _ fault => fault.message
  | badIgnores fault => fault.message

def message (error : ConfigError) : String :=
  error.context ++ ": " ++ error.cause

end ConfigError

end SiteSurvey
