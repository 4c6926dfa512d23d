import SiteSurvey.Inquiry
import SiteSurvey.Survey.Scan

/-!
# Surveys as inquiries

A walk and a survey, step by step, with the questions in the order in which their answers are used:
what a level yields is asked for before the walk goes on.
-/

namespace SiteSurvey.Inquiry

open Survey

variable {α : Type}

/-! ## Walks -/

/-- A walk, with what a visit to each of its events yielded. -/
structure Journey (α : Type) where
  trace : Trace
  yields : List α

namespace Journey

/-- A walk that meets one event. -/
def one (event : Event) (found : α) (stopped : Bool) : Journey α :=
  ⟨⟨[event], stopped⟩, [found]⟩

/-- A walk that goes on with another. -/
def append (first later : Journey α) : Journey α :=
  ⟨⟨first.trace.events ++ later.trace.events, later.trace.stopped⟩, first.yields ++ later.yields⟩

end Journey

/-- Walks that follow one another until one is stopped. -/
def chain (walk : String → Inquiry (Journey α)) : List String → Inquiry (Journey α)
  | [] => return ⟨⟨[], false⟩, []⟩
  | first :: rest => do
    let journey ← walk first
    if journey.trace.stopped then return journey
    else return journey.append (← chain walk rest)

/-- Walks from `path` to `depth` levels below it and visits what it meets. -/
def walk (ignored : String → Bool) (choose : Path → List String → Choice)
    (visit : Event → Inquiry α) : (depth : Nat) → (path : Path) → Inquiry (Journey α)
  | depth, path => do
    match ← list path with
    | .error error => return .one (.failure path error) (← visit (.failure path error)) false
    | .ok listing =>
      let event := .level path listing.files
      let found ← visit event
      match choose path listing.files with
      | .stop => return .one event found true
      | .prune => return .one event found false
      | .descend =>
        match depth with
        | 0 => return .one event found false
        | depth + 1 =>
          let inner ← chain (fun name => walk ignored choose visit depth (path.join name))
            (listing.dirs.filter (!ignored ·))
          return (Journey.one event found false).append inner

/-! ## The files of a level -/

def findInFile (path : Path) (find : String → Findings) : Inquiry Findings := do
  match ← read path with
  | .ok text => return find text
  | .error error => return { diagnostics := [.unreadable path error.message] }

def findLevelRoutes (level : Path) (files : List String) : Inquiry Findings :=
  if files.contains routeFileName then
    let path := level.join routeFileName
    findInFile path (findRoutes path)
  else return {}

def findInModules (level : Path) (app : String) : List String → Inquiry Findings
  | [] => return {}
  | name :: names => do
    let found ← findInFile (level.join name) (findModels app)
    return found ++ (← findInModules level app names)

def findAt : Event → Inquiry Findings
  | .failure path error => return { diagnostics := [.unreadable path error.message] }
  | .level path files => do
    let found ← findLevelRoutes path files
    return found ++ (← findInModules path (adminLabel path files) (adminFiles path files))

/-! ## Surveys -/

/-- The walk in search of the project root. -/
def rootTrace (options : Options) (path : Path) : Inquiry Trace := do
  let journey ← walk options.ignored.ignores
    (fun _ files => if files.contains projectMarker then .stop else .descend)
    (fun _ => return ()) options.projectDepth path
  return journey.trace

/-- The survey of the project whose root is known. -/
def ofRoot (options : Options) (root : Path) : Inquiry Survey := do
  let journey ← walk options.ignored.ignores (fun _ _ => .descend) findAt options.appDepth root
  let found := journey.yields.foldr (· ++ ·) {}
  return ⟨[Project.ofFindings root found], found.diagnostics⟩

/-- The survey of one path. -/
def ofPath (options : Options) (path : Path) : Inquiry Survey := do
  let trace ← rootTrace options path
  let failures := trace.events.filterMap failureOf?
  match stopLevel? trace with
  | some root => return ⟨[], failures⟩ ++ (← ofRoot options root)
  | none => return ⟨[], failures⟩ ++ ⟨[], [.notAProject path]⟩

/-- The survey of many paths. -/
def ofPaths (options : Options) : List Path → Inquiry Survey
  | [] => return {}
  | path :: paths => do
    let first ← ofPath options path
    return first ++ (← ofPaths options paths)

end SiteSurvey.Inquiry
