import SiteSurvey.Text.Split

/-!
# Paths

A path is kept as it was written, and read by its parts: slashes in a row count once, and a dot
counts only at the beginning of a relative path. Two texts of the same parts name the same place.
-/

namespace SiteSurvey

/--
How a path is spelled. Bytes in it that are no text are shown as replacement characters, one for
each run of them, and kept by the positions of these characters.
-/
structure Spelling where
  text : String
  stray : List (Nat × List UInt8) := []
  deriving DecidableEq, Repr

instance : Coe String Spelling :=
  ⟨fun text => { text }⟩

structure Path extends Spelling
  deriving DecidableEq, Repr

namespace Path

open Text

/-- A step of a path. -/
inductive Part where
  /-- The beginning of an absolute path. -/
  | root
  /-- A dot at the beginning of a relative path. -/
  | here
  | up
  | name (name : String)
  deriving DecidableEq, Repr

def ofText (text : String) : Path :=
  ⟨text⟩

/-- Whether the path is a text, with no other bytes in it. -/
def isUnicode (path : Path) : Bool :=
  path.stray.isEmpty

/-! ## Parts -/

def isAbsolute (path : Path) : Bool :=
  path.text.toList.head? == some '/'

/-- The texts between the slashes after the beginning of the path, a leading dot aside. -/
def segments (path : Path) : List (List Char) :=
  match splitAt '/' path.text.toList with
  | [] => []
  | first :: rest => if path.isAbsolute || first == ['.'] then rest else first :: rest

/-- Whether the path is relative and begins with a dot. -/
def hasLeadingDot (path : Path) : Bool :=
  (splitAt '/' path.text.toList).head? == some ['.']

/-- Whether a segment stands for no part. -/
def isVoid (segment : List Char) : Bool :=
  segment == [] || segment == ['.']

def partOf? (segment : List Char) : Option Part :=
  if isVoid segment then none
  else if segment == ['.', '.'] then some .up
  else some (.name (String.ofList segment))

/-- What comes before the segments. -/
def start (path : Path) : Option Part :=
  if path.isAbsolute then some .root else if path.hasLeadingDot then some .here else none

def parts (path : Path) : List Part :=
  path.start.toList ++ path.segments.filterMap partOf?

/-- The last part, if it is a name. -/
def fileName? (path : Path) : Option String :=
  match path.parts.getLast? with
  | some (.name name) => some name
  | _ => none

/-! ## Joining -/

/-- A path below a directory, or the path alone if it is absolute. -/
def join (directory : Path) (path : String) : Path :=
  if path.toList.head? == some '/' then ⟨path⟩
  else if directory.text.isEmpty || directory.text.toList.getLast? == some '/' then
    { directory with text := directory.text ++ path }
  else { directory with text := directory.text ++ "/" ++ path }

/-! ## Parents -/

def dropVoidEnd (segments : List (List Char)) : List (List Char) :=
  (segments.reverse.dropWhile isVoid).reverse

/-- The segments with slashes between them. -/
def joinSegments : List (List Char) → List Char
  | [] => []
  | [segment] => segment
  | segment :: segments => segment ++ '/' :: joinSegments segments

/-- The text of a path from its beginning and its segments. -/
def ofSegments (start : Option Part) (segments : List (List Char)) : Path :=
  match start with
  | some .root => ⟨String.ofList ('/' :: joinSegments segments)⟩
  | some .here => ⟨String.ofList (joinSegments (['.'] :: segments))⟩
  | _ => ⟨String.ofList (joinSegments segments)⟩

/-- A text at the beginning of a path, with the stray bytes that the path has there. -/
def keepStray (before path : Path) : Path :=
  { before with stray := path.stray.filter (·.1 < before.text.length) }

/-- The path without its last part and what trails before it; none for a path without a parent. -/
def parent? (path : Path) : Option Path :=
  match dropVoidEnd path.segments with
  | [] => if path.start == some .here then some ⟨""⟩ else none
  | segments => some ((ofSegments path.start (dropVoidEnd segments.dropLast)).keepStray path)

/-- The path, then at most `count` of its ancestors from the nearest on. -/
def ancestorsUpTo : (count : Nat) → Path → List Path
  | 0, path => [path]
  | count + 1, path =>
    match path.parent? with
    | none => [path]
    | some parent => path :: ancestorsUpTo count parent

/-- The path and its ancestors, from the nearest on. -/
def ancestors (path : Path) : List Path :=
  ancestorsUpTo path.parts.length path

end Path

end SiteSurvey
