/-!
# Cutting a text

The parts of a text between separators, and the text that follows a given beginning.
-/

namespace SiteSurvey.Text

/-- The parts between the separators; a text without a separator is its only part. -/
def splitAt (separator : Char) : List Char → List (List Char)
  | [] => [[]]
  | c :: rest =>
    if c = separator then [] :: splitAt separator rest
    else
      match splitAt separator rest with
      | [] => [[c]]
      | part :: parts => (c :: part) :: parts

/-- The lines of a text, without their newlines. -/
def lines (text : List Char) : List (List Char) :=
  splitAt '\n' text

/-- What follows `start` in a text that begins with it. -/
def after? : (start text : List Char) → Option (List Char)
  | [], text => some text
  | _ :: _, [] => none
  | s :: start, c :: text => if s = c then after? start text else none

/-- The text without `start` at its beginning, if it stands there. -/
def dropStart (start text : List Char) : List Char :=
  (after? start text).getD text

end SiteSurvey.Text
