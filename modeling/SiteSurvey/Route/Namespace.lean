/-!
# Route namespaces

The routes of a file belong to the app that the file names, or else to the file itself.
-/

namespace SiteSurvey.Route

inductive Namespace where
  /-- Named by the file's `app_name`. -/
  | app (name : String)
  /-- No name is given; the path of the file stands for it. -/
  | file (path : String)
  deriving DecidableEq, Repr

namespace Namespace

/-- What sets the key of a file apart from the name of an app. -/
def fileMark : String :=
  "READER_FILE_PATH_"

/-- The namespace as a key of the JSON report. -/
def key : Namespace → String
  | app name => name
  | file path => fileMark ++ path

/-- The name by which a route of this namespace is looked up. -/
def qualify : Namespace → String → String
  | app name, route => name ++ ":" ++ route
  | file _, route => route

end Namespace

end SiteSurvey.Route
