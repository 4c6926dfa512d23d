import SiteSurvey.Route.Table
import SiteSurvey.Source.Bracket
import SiteSurvey.Source.Comment

/-!
# Route files

Reads the text of a route file: the namespace it declares and the texts of its route tuples, which
are the round groups inside the top-level square groups. Unsound brackets leave no tuples at all.
-/

namespace SiteSurvey.Route

/-- What a route file yields; `fault` says which bracket, if any, left it without tuples. -/
structure File where
  space : Namespace
  tuples : List String
  fault : Option Source.Unmatched
  deriving DecidableEq, Repr

namespace File

/-- The first app name that a text declares, unless it is empty. -/
def appName? (text : List Char) : Option (List Char) :=
  (Source.assignedValues "app_name".toList text).head?.filter (!·.isEmpty)

def spaceOf (text : List Char) (source : String) : Namespace :=
  match appName? text with
  | some name => .app (String.ofList name)
  | none => .file source

/-- The round groups of each list in order; the first unsound list decides. -/
def tuplesOfLists : List (List Char) → Except Source.Unmatched (List (List Char))
  | [] => .ok []
  | list :: lists =>
    match Source.Bracket.round.groups list with
    | .error fault => .error fault
    | .ok groups => (tuplesOfLists lists).map (groups ++ ·)

/-- The texts of the route tuples in a text without comments. -/
def tuplesOf (text : List Char) : Except Source.Unmatched (List (List Char)) :=
  match Source.Bracket.square.groups text with
  | .error fault => .error fault
  | .ok lists => tuplesOfLists lists

/-- Reads a route file whose path is written `source`. -/
def read (text : String) (source : String) : File :=
  let text := Source.uncommentedJoined text.toList
  match tuplesOf text with
  | .ok tuples => ⟨spaceOf text source, tuples.map String.ofList, none⟩
  | .error fault => ⟨spaceOf text source, [], some fault⟩

/-- The file as a raw table of one entry. -/
def raw (file : File) : RawTable :=
  .singleton file.space file.tuples

end File

/-- What is reported of a route file with unsound brackets. -/
def malformedMessage (source : String) (fault : Source.Unmatched) : String :=
  s!"Malformed route file {source}: {fault.message}"

end SiteSurvey.Route
