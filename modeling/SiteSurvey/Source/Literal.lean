import SiteSurvey.Text.Blank
import SiteSurvey.Text.Split
import SiteSurvey.Text.Word

/-!
# Assigned literals

Finds the quoted values that a source text assigns to a name, as in `name = "value"`. The name must
not continue a longer word on its left. Either quote may open or close a value, and a value holds
no quotes.
-/

namespace SiteSurvey.Source

open Text

def isQuote (c : Char) : Bool :=
  c == '\x27' || c == '"'

/-- The value in a text that begins with an equals sign and a quoted value. -/
def assignedValue? (text : List Char) : Option (List Char) :=
  match text.dropWhile isBlank with
  | '=' :: rest =>
    match rest.dropWhile isBlank with
    | quote :: rest =>
      if isQuote quote && rest.any isQuote then some (rest.takeWhile (!isQuote ·)) else none
    | [] => none
  | _ => none

/--
The values assigned to `name` at each place where it stands, from left to right; `inWord` says
whether a word character comes before the text.
-/
def assignedValuesFrom (name : List Char) : (inWord : Bool) → List Char → List (List Char)
  | _, [] => []
  | inWord, c :: rest =>
    let here := if inWord then none else (after? name (c :: rest)).bind assignedValue?
    here.toList ++ assignedValuesFrom name (isWord c) rest

def assignedValues (name text : List Char) : List (List Char) :=
  assignedValuesFrom name false text

end SiteSurvey.Source
