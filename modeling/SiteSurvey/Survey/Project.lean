import SiteSurvey.Admin.Module
import SiteSurvey.Diagnostic
import SiteSurvey.Ignore
import SiteSurvey.Route.File
import SiteSurvey.Walk

/-!
# Surveying a project

A project's root is the first directory of a walk that holds the project marker. From the root a
second walk reads the route file and the admin modules of each level: `admin.py`, or all modules of
an `admin` package. What cannot be read is reported and passed over.
-/

namespace SiteSurvey.Survey

/-! ## Names -/

def projectMarker : String :=
  "manage.py"

def routeFileName : String :=
  "urls.py"

def adminFileName : String :=
  "admin.py"

def adminPackageName : String :=
  "admin"

def packageMarker : String :=
  "__init__.py"

/-! ## Options -/

structure Options where
  /-- How far below a given path the project root may lie. -/
  projectDepth : Nat := 3
  /-- How far below the project root route files and admin modules may lie. -/
  appDepth : Nat := 2
  ignored : IgnoreSet := {}
  deriving DecidableEq, Repr

/-! ## The project root -/

/-- The diagnostic of an event, if it is a failure. -/
def failureOf? : Event → Option Diagnostic
  | .level _ _ => none
  | .failure path error => some (.unreadable path error.message)

/-- The walk in search of the project root. -/
def rootTrace (view : FileView) (options : Options) (path : Path) : Trace :=
  walk view options.ignored.ignores
    (fun _ files => if files.contains projectMarker then .stop else .descend)
    options.projectDepth path

/-- The level at which a trace was stopped. -/
def stopLevel? (trace : Trace) : Option Path :=
  match trace.stopped, trace.events.getLast? with
  | true, some (.level path _) => some path
  | _, _ => none

/-- The first directory at or below a path that holds the project marker. -/
def root? (view : FileView) (options : Options) (path : Path) : Option Path :=
  stopLevel? (rootTrace view options path)

/-! ## The files of a level -/

/-- Whether a level is a package of admin modules. -/
def isAdminPackage (level : Path) (files : List String) : Bool :=
  level.fileName? == some adminPackageName && files.contains packageMarker

/-- The name of the app in a directory; the path itself where it ends in no name. -/
def appLabel (directory : Path) : String :=
  directory.fileName?.getD directory.text

/-- The app that the admin modules of a level belong to. -/
def adminLabel (level : Path) (files : List String) : String :=
  if isAdminPackage level files then (level.parent?.map appLabel).getD "" else appLabel level

/-- The names of the admin modules of a level. -/
def adminFiles (level : Path) (files : List String) : List String :=
  if isAdminPackage level files then files.filter fun name => ".py".toList.isSuffixOf name.toList
  else if files.contains adminFileName then [adminFileName]
  else []

/-! ## What a level yields -/

/-- What was found in a part of a project. -/
structure Findings where
  diagnostics : List Diagnostic := []
  routeFiles : List Route.File := []
  /-- The models of each admin module, with its app. -/
  models : List (String × List String) := []

def Findings.append (first later : Findings) : Findings :=
  ⟨first.diagnostics ++ later.diagnostics, first.routeFiles ++ later.routeFiles,
    first.models ++ later.models⟩

instance : Append Findings :=
  ⟨Findings.append⟩

/-- What the file at a path yields, given what its text yields. -/
def findInFile (view : FileView) (path : Path) (find : String → Findings) : Findings :=
  match view.read path with
  | .ok text => find text
  | .error error => { diagnostics := [.unreadable path error.message] }

/-- What the text of the route file at a path yields. -/
def findRoutes (path : Path) (text : String) : Findings :=
  let file := Route.File.read text path.text
  { diagnostics := (file.fault.map fun fault =>
      .malformedRoutes (Route.malformedMessage path.text fault)).toList
    routeFiles := [file] }

/-- What the text of an admin module yields. -/
def findModels (app : String) (text : String) : Findings :=
  { models := [(app, Admin.models text)] }

/-- What the route file of a level yields, if it has one. -/
def findLevelRoutes (view : FileView) (level : Path) (files : List String) : Findings :=
  if files.contains routeFileName then
    let path := level.join routeFileName
    findInFile view path (findRoutes path)
  else {}

/-- What the admin modules of a level yield. -/
def findLevelModels (view : FileView) (level : Path) (files : List String) : Findings :=
  (adminFiles level files).foldr
    (fun name later =>
      findInFile view (level.join name) (findModels (adminLabel level files)) ++ later)
    {}

/-- What an event of the walk from the root yields. -/
def findAt (view : FileView) : Event → Findings
  | .failure path error => { diagnostics := [.unreadable path error.message] }
  | .level path files => findLevelRoutes view path files ++ findLevelModels view path files

/-- What the levels of a walk yield. -/
def findAll (view : FileView) (events : List Event) : Findings :=
  events.foldr (fun event later => findAt view event ++ later) {}

/-! ## Projects -/

/-- The models of each app in the order of discovery. -/
abbrev ModelTable := OrderedMap String (List String)

/-- The models of many modules by app; modules without models add no app. -/
def ModelTable.ofModules (modules : List (String × List String)) : ModelTable :=
  modules.foldl
    (fun table found =>
      if found.2.isEmpty then table
      else table.alter found.1 fun old => old.getD [] ++ found.2)
    ∅

structure Project where
  root : Path
  routes : Route.Table
  models : ModelTable

/-- What the walk from a project root meets. -/
def appEvents (view : FileView) (options : Options) (root : Path) : List Event :=
  walkAll view options.ignored.ignores options.appDepth root

/-- The project whose parts were found from its root on. -/
def Project.ofFindings (root : Path) (found : Findings) : Project :=
  ⟨root, Route.Table.ofRawTables (found.routeFiles.map Route.File.raw),
    ModelTable.ofModules found.models⟩

end SiteSurvey.Survey
