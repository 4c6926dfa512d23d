import SiteSurvey.FileView

/-!
# Walks

A walk visits a directory and the directories below it, each before those inside it and siblings in
the order of their listing, down to a given depth. At each level it shows the names of the files
there, and a choice says how it goes on. A directory that cannot be listed is recorded and left.
-/

namespace SiteSurvey

/-- How a walk goes on after a level. -/
inductive Choice where
  /-- Into the directories of the level, as far as the depth allows. -/
  | descend
  /-- Past the directories of the level. -/
  | prune
  /-- Not at all. -/
  | stop
  deriving DecidableEq, Repr

/-- What a walk meets. -/
inductive Event where
  /-- A directory with the names of its files. -/
  | level (path : Path) (files : List String)
  /-- A directory that cannot be listed. -/
  | failure (path : Path) (error : AccessError)
  deriving DecidableEq, Repr

/-- What a walk met in order, and whether a choice stopped it. -/
structure Trace where
  events : List Event
  stopped : Bool
  deriving DecidableEq, Repr

namespace Trace

/-- The traces of walks that follow one another until one is stopped. -/
def chain (walk : α → Trace) : List α → Trace
  | [] => ⟨[], false⟩
  | first :: rest =>
    let trace := walk first
    if trace.stopped then trace
    else
      let later := chain walk rest
      ⟨trace.events ++ later.events, later.stopped⟩

/-- The trace after one event more at its beginning. -/
def after (event : Event) (trace : Trace) : Trace :=
  ⟨event :: trace.events, trace.stopped⟩

end Trace

/-- Walks from `path` to `depth` levels below it, entering no directory with an ignored name. -/
def walk (view : FileView) (ignored : String → Bool) (choose : Path → List String → Choice) :
    (depth : Nat) → (path : Path) → Trace
  | depth, path =>
    match view.list path with
    | .error error => ⟨[.failure path error], false⟩
    | .ok listing =>
      match choose path listing.files with
      | .stop => ⟨[.level path listing.files], true⟩
      | .prune => ⟨[.level path listing.files], false⟩
      | .descend =>
        match depth with
        | 0 => ⟨[.level path listing.files], false⟩
        | depth + 1 =>
          (Trace.chain (fun name => walk view ignored choose depth (path.join name))
            (listing.dirs.filter (!ignored ·))).after (.level path listing.files)

/-- What a walk meets that always descends. -/
def walkAll (view : FileView) (ignored : String → Bool) (depth : Nat) (path : Path) : List Event :=
  (walk view ignored (fun _ _ => .descend) depth path).events

end SiteSurvey
