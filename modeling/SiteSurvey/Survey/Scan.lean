import SiteSurvey.Survey.Project

/-!
# Surveys

A survey looks for a project at each of the given paths in turn and collects the projects and the
diagnostics in order.
-/

namespace SiteSurvey

structure Survey where
  projects : List Survey.Project := []
  diagnostics : List Diagnostic := []

namespace Survey

def append (first later : Survey) : Survey :=
  ⟨first.projects ++ later.projects, first.diagnostics ++ later.diagnostics⟩

instance : Append Survey :=
  ⟨append⟩

/-- The failures met in search of the project root. -/
def rootDiagnostics (view : FileView) (options : Options) (path : Path) : List Diagnostic :=
  (rootTrace view options path).events.filterMap failureOf?

/-- The survey of the project whose root is known. -/
def ofRoot (view : FileView) (options : Options) (root : Path) : Survey :=
  let found := findAll view (appEvents view options root)
  ⟨[Project.ofFindings root found], found.diagnostics⟩

/-- The survey of one path. -/
def ofPath (view : FileView) (options : Options) (path : Path) : Survey :=
  ⟨[], rootDiagnostics view options path⟩ ++
    match root? view options path with
    | some root => ofRoot view options root
    | none => ⟨[], [.notAProject path]⟩

/-- The survey of many paths. -/
def ofPaths (view : FileView) (options : Options) : List Path → Survey
  | [] => {}
  | path :: paths => ofPath view options path ++ ofPaths view options paths

end Survey

end SiteSurvey
