import SiteSurvey.Path

/-!
# Diagnostics

What a survey reports besides its results. None of it ends a survey.
-/

namespace SiteSurvey

inductive Diagnostic where
  /-- No project was found at or below the path. -/
  | notAProject (path : Path)
  /-- A route file with unsound brackets, which gave no routes. -/
  | malformedRoutes (message : String)
  /-- A file or directory that could not be read. -/
  | unreadable (path : Path) (reason : String)
  deriving DecidableEq, Repr

namespace Diagnostic

/-- The short name of the kind of diagnostic. -/
def label : Diagnostic → String
  | notAProject _ => "not-a-project"
  | malformedRoutes _ => "malformed-routes"
  | unreadable _ _ => "file-read"

def message : Diagnostic → String
  | notAProject path => s!"No Django project found in {path.text}"
  | malformedRoutes message => message
  | unreadable path reason => s!"Cannot read {path.text}: {reason}"

def isUnreadable : Diagnostic → Bool
  | unreadable _ _ => true
  | _ => false

end Diagnostic

end SiteSurvey
