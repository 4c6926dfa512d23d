/-!
# Comments in source text

Removes the triple-quoted blocks and the `#` comments of a source text. A block runs from three
double quotes to the nearest three that start after them; one that is never closed stays. A `#`
comment runs to the end of its line and takes the newline with it.
-/

namespace SiteSurvey.Source

/-! ## Blocks -/

/--
The text without its blocks. Inside a block the state is the text after the opening quotes, which is
what remains if the block turns out to be unclosed.
-/
def withoutBlocksFrom : Option (List Char) → List Char → List Char
  | none, '"' :: '"' :: '"' :: rest => withoutBlocksFrom (some rest) rest
  | none, c :: rest => c :: withoutBlocksFrom none rest
  | none, [] => []
  | some _, '"' :: '"' :: '"' :: rest => withoutBlocksFrom none rest
  | some opened, _ :: rest => withoutBlocksFrom (some opened) rest
  | some opened, [] => '"' :: '"' :: '"' :: opened

def withoutBlocks (text : List Char) : List Char :=
  withoutBlocksFrom none text

/-! ## Line comments -/

/-- The text without its `#` comments; the state says whether a comment is open. -/
def withoutLineCommentsFrom : Bool → List Char → List Char
  | _, [] => []
  | false, c :: rest =>
    if c = '#' then withoutLineCommentsFrom true rest else c :: withoutLineCommentsFrom false rest
  | true, c :: rest => withoutLineCommentsFrom (c != '\n') rest

def withoutLineComments (text : List Char) : List Char :=
  withoutLineCommentsFrom false text

/-! ## Both -/

/-- The text without blocks and comments, its remaining lines kept apart. -/
def uncommented (text : List Char) : List Char :=
  withoutLineComments (withoutBlocks text)

/-- Turns the first newline into a space and keeps all others. -/
def joinFirstLine : List Char → List Char
  | [] => []
  | c :: rest => if c = '\n' then ' ' :: rest else c :: joinFirstLine rest

/-- The text without blocks and comments, its first two lines joined by a space. -/
def uncommentedJoined (text : List Char) : List Char :=
  joinFirstLine (uncommented text)

end SiteSurvey.Source
