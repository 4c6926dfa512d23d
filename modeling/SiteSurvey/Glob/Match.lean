import SiteSurvey.Glob.Pattern

/-!
# Matching globs

Whether a pattern matches a whole text is found for all suffixes of the text at once, from the last
token of the pattern to the first.
-/

namespace SiteSurvey.Glob

/-- Whether a token that stands for one character stands for `c`. -/
def Token.has : Token → Char → Bool
  | char own, c => c == own
  | anyChar, _ => true
  | anyOf members, c => members.any (·.has c)
  | noneOf members, c => !members.any (·.has c)
  | anyText, _ => false
  | anyDirectories, _ => false

/-- For each entry, whether it or a later one holds. -/
def orLater : List Bool → List Bool
  | [] => []
  | b :: bs => (b || bs.any id) :: orLater bs

/-- For each suffix of a text, whether `table` holds of a later suffix that follows a slash. -/
def afterSlash : (text : List Char) → (table : List Bool) → List Bool
  | c :: text, _ :: table =>
    let later := afterSlash text table
    ((c == '/' && table.head?.getD false) || later.head?.getD false) :: later
  | _, table => table.map fun _ => false

/-- For each suffix of a text, from the whole to the empty one, whether the pattern matches it. -/
def suffixTable (text : List Char) : Pattern → List Bool
  | [] => text.map (fun _ => false) ++ [true]
  | .anyText :: pattern => orLater (suffixTable text pattern)
  | .anyDirectories :: pattern =>
    if pattern.isEmpty then text.map (fun _ => true) ++ [true]
    else
      let table := suffixTable text pattern
      List.zipWith (· || ·) table (afterSlash text table)
  | token :: pattern =>
    List.zipWith (fun c rest => token.has c && rest) text (suffixTable text pattern).tail ++ [false]

/-- Whether the pattern matches the whole text. -/
def Pattern.accepts (pattern : Pattern) (text : String) : Bool :=
  (suffixTable text.toList pattern).head?.getD false

end SiteSurvey.Glob
