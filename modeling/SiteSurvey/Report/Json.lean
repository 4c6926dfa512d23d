import SiteSurvey.Json.Value
import SiteSurvey.Survey.Scan

/-!
# The JSON report

The JSON value of a survey's projects. Namespaces and apps are the keys of objects, in the order of
their tables. A project whose root is no text has no value.
-/

namespace SiteSurvey.Report

open Json

def argumentValue (argument : Route.Argument) : Value :=
  .object
    [("name", .string argument.name),
     ("type", (argument.converter.map fun converter => Value.string converter.label).getD .null)]

def routeValue (route : Route) : Value :=
  .object
    [("name", .string route.name),
     ("hasArgs", .bool route.hasArgs),
     ("args", .array (route.args.map argumentValue)),
     ("qualifiedViewName", .string route.qualifiedName)]

def tableValue (table : Route.Table) : Value :=
  .object (table.entries.map fun entry => (entry.1.key, .array (entry.2.map routeValue)))

def modelsValue (models : Survey.ModelTable) : Value :=
  .object (models.entries.map fun entry => (entry.1, .array (entry.2.map .string)))

def projectValue (project : Survey.Project) : Value :=
  .object
    [("projectRoot", .string project.root.text),
     ("routes", tableValue project.routes),
     ("models", modelsValue project.models)]

/-- The value of projects, if all their roots are texts. -/
def projectsValue? (projects : List Survey.Project) : Option Value :=
  if projects.all (·.root.isUnicode) then some (.array (projects.map projectValue)) else none

/-- The report over several lines, with a newline at its end, if the projects have a value. -/
def jsonText? (projects : List Survey.Project) : Option String :=
  (projectsValue? projects).map fun value => value.pretty ++ "\n"

end SiteSurvey.Report
