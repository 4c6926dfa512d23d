import SiteSurvey.Report.Style
import SiteSurvey.Survey.Scan
import SiteSurvey.Text.Width

/-!
# The text report

The projects of a survey as styled lines, its diagnostics, and a line that sums it up. The arguments
of a project's routes begin in one column, two spaces right of the widest route name. Where that
takes too many spaces the line cannot be written, and the report breaks off before it.
-/

namespace SiteSurvey.Report

/-! ## Rows -/

/-- A line of a report. -/
structure Row where
  spans : List Span
  /-- How many spaces fill a place in the line. -/
  filling : Nat := 0

/-- The most spaces that can fill a place. -/
def fillingBound : Nat :=
  65535

def Row.isWritable (row : Row) : Bool :=
  row.filling ≤ fillingBound

def spansOf (rows : List Row) : List Span :=
  rows.flatMap Row.spans

/-- What is written of rows: all before the first that cannot be written. -/
def written (rows : List Row) : List Span :=
  spansOf (rows.takeWhile Row.isWritable)

/-! ## Counts -/

/-- The singular for one and the plural for any other count. -/
def countNoun (count : Nat) (singular plural : String) : String :=
  if count = 1 then singular else plural

/-- A count and its noun. -/
def counted (count : Nat) (singular plural : String) : String :=
  s!"{count} {countNoun count singular plural}"

/-! ## Routes -/

/-- An argument with the name of its converter, if it has one. -/
def argumentText (argument : Route.Argument) : String :=
  match argument.converter with
  | some converter => argument.name ++ ": " ++ converter.label
  | none => argument.name

def argumentsText (arguments : List Route.Argument) : String :=
  "(" ++ ", ".intercalate (arguments.map argumentText) ++ ")"

/-- The line of a route, with its arguments beyond the column `width`. -/
def routeLine (measure : String → Nat) (width : Nat) (route : Route) : List Span :=
  if route.hasArgs then
    [plain ("    " ++ route.qualifiedName ++
        String.ofList (List.replicate (width - measure route.qualifiedName) ' ') ++ "  "),
      dim (argumentsText route.args), plain "\n"]
  else [plain ("    " ++ route.qualifiedName ++ "\n")]

def routeRow (measure : String → Nat) (width : Nat) (route : Route) : Row where
  spans := routeLine measure width route
  filling := if route.hasArgs then width - measure route.qualifiedName else 0

/-- The width of the widest route name of a table. -/
def nameWidth (measure : String → Nat) (table : Route.Table) : Nat :=
  (table.values.flatten.map fun route => measure route.qualifiedName).foldr max 0

/-! ## Projects -/

/-- How a namespace is shown. -/
def namespaceText : Route.Namespace → String
  | .app name => name
  | .file path => path ++ " (no app_name)"

/-- The lines of a namespace and its routes. -/
def namespaceRows (measure : String → Nat) (width : Nat)
    (entry : Route.Namespace × List Route) : List Row :=
  [{ spans := [plain "  ", colored .cyan (namespaceText entry.1), plain "\n"] }] ++
    (if entry.2.isEmpty then
      [{ spans := [plain "    ", dim "(no named routes)", plain "\n"] }]
    else []) ++
    entry.2.map (routeRow measure width)

/-- The line of an app and its models. -/
def modelRow (entry : String × List String) : Row where
  spans := [plain "    ", bold entry.1, plain (": " ++ ", ".intercalate entry.2 ++ "\n")]

def modelRows (models : Survey.ModelTable) : List Row :=
  if models.isEmpty then []
  else { spans := [plain "  ", colored .cyan "models", plain "\n"] } :: models.entries.map modelRow

def projectRows (measure : String → Nat) (project : Survey.Project) : List Row :=
  [{ spans := [bold project.root.text, plain "\n"] }] ++
    project.routes.entries.flatMap (namespaceRows measure (nameWidth measure project.routes)) ++
    modelRows project.models ++
    [{ spans := [plain "\n"] }]

/-- The lines of all projects, for a function that measures the width of a text. -/
def projectsRows (measure : String → Nat) (projects : List Survey.Project) : List Row :=
  projects.flatMap (projectRows measure)

/-- All lines of the projects, whether they can be written or not. -/
def projectsLines (measure : String → Nat) (projects : List Survey.Project) : List Span :=
  spansOf (projectsRows measure projects)

/-! ## Diagnostics -/

def warningMark : Span :=
  ⟨"warning:", { weight := some .bold, color := some .yellow }⟩

def diagnosticLine (diagnostic : Diagnostic) : List Span :=
  [warningMark, plain (" " ++ diagnostic.message ++ "  "),
    ⟨diagnostic.label, { weight := some .dim, color := some .cyan }⟩, plain "\n"]

/-- The line that stands for unreadable paths that are not listed. -/
def unreadableLine (count : Nat) : List Span :=
  [warningMark, plain s!" {count} path(s) could not be read (use ", colored .cyan "-v",
    plain " for details)\n"]

/-- The lines of all diagnostics; only a verbose report lists the unreadable paths. -/
def diagnosticsLines (verbose : Bool) (diagnostics : List Diagnostic) : List Span :=
  let shown := if verbose then diagnostics else diagnostics.filter (!·.isUnreadable)
  let hidden := if verbose then 0 else diagnostics.countP (·.isUnreadable)
  shown.flatMap diagnosticLine ++ (if hidden = 0 then [] else unreadableLine hidden)

/-! ## Summary -/

def successMark : String :=
  "✓"

def failureMark : String :=
  "✘"

def routeCount (projects : List Survey.Project) : Nat :=
  (projects.flatMap fun project => project.routes.values.flatten).length

def modelCount (projects : List Survey.Project) : Nat :=
  (projects.flatMap fun project => project.models.values.flatten).length

/-- What a survey found, in words. -/
def foundText (projects : List Survey.Project) : String :=
  "Found " ++ counted (routeCount projects) "route" "routes" ++ " and " ++
    counted (modelCount projects) "model" "models" ++ " in " ++
    counted projects.length "project" "projects"

def summaryLine (projects : List Survey.Project) (diagnosticCount : Nat) : List Span :=
  if diagnosticCount = 0 then
    [colored .green successMark, plain " ", colored .green (foundText projects), plain "\n"]
  else
    [colored .red failureMark, plain (" " ++ foundText projects ++ s!" ({diagnosticCount} "),
      colored .yellow (countNoun diagnosticCount "warning" "warnings"), plain ")\n"]

/-! ## Reports -/

/-- The text report of the projects, as far as it can be written. -/
def projectsText (colored : Bool) (projects : List Survey.Project) : String :=
  render colored (written (projectsRows Text.displayWidth projects))

def diagnosticsText (colored verbose : Bool) (diagnostics : List Diagnostic) : String :=
  render colored (diagnosticsLines verbose diagnostics)

def summaryText (colored : Bool) (projects : List Survey.Project) (diagnosticCount : Nat) :
    String :=
  render colored (summaryLine projects diagnosticCount)

end SiteSurvey.Report
