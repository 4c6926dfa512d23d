import SiteSurvey.FileView
import SiteSurvey.OrderedMap
import SiteSurvey.Text.Split

/-!
# Disks

A disk holds files, directories and links at places, which are known by the names on the way from
the root. The root is always a directory. A path leads to a place: names go down, a dot and an empty
segment stay in a directory, two dots go up, and a link goes on with its target. At most 40 links
are followed on the way.
-/

namespace SiteSurvey

/-- The names on the way from the root. -/
abbrev Place := List String

/-- What stands at a place. -/
inductive Entry where
  /-- A file with its text; none if its bytes are no text. -/
  | file (text : Option String)
  | dir
  | link (target : String)
  deriving DecidableEq, Repr

structure Disk where
  entries : OrderedMap Place Entry := ∅

/-- Where a path leads: a place in a directory, whether something stands there or not. -/
structure Destination where
  place : Place
  /-- Whether slashes at the end of the path call the place a directory. -/
  asDir : Bool := false
  deriving DecidableEq, Repr

namespace Disk

/-! ## Bounds -/

/-- The most links that are followed on the way to one place. -/
def linkBound : Nat :=
  40

/-- The most bytes of a name. -/
def nameBound : Nat :=
  255

/-- The least bytes of a path that is too long. -/
def pathBound : Nat :=
  4096

/-! ## Places -/

def entry? (disk : Disk) : Place → Option Entry
  | [] => some .dir
  | place => disk.entries.get? place

/-- The path of a place from the root. -/
def pathOf (place : Place) : Path :=
  ⟨"/" ++ "/".intercalate place⟩

/-! ## Resolution -/

/-- The texts between the slashes. -/
def segments (text : String) : List String :=
  (Text.splitAt '/' text.toList).map String.ofList

/-- The place that a text is read from: the root if it begins with a slash. -/
def origin (place : Place) (text : String) : Place :=
  if text.toList.head? == some '/' then [] else place

/--
Goes from a place along segments. Where a link must be followed, `follow` goes on from its target,
with the segments that are left; a link at the end is followed only if `followLast` holds.
-/
def go (disk : Disk) (followLast : Bool)
    (follow : Place → List String → Except SystemFault Destination) :
    Place → List String → Except SystemFault Destination
  | place, [] => .ok ⟨place, false⟩
  | place, segment :: later =>
    if disk.entry? place ≠ some .dir then .error .notDirectory
    else if segment = "" || segment = "." then go disk followLast follow place later
    else if segment = ".." then go disk followLast follow place.dropLast later
    else if nameBound < segment.utf8ByteSize then .error .nameTooLong
    else
      let inner := place ++ [segment]
      match disk.entry? inner with
      | some (.link target) =>
        if later.isEmpty && !followLast then .ok ⟨inner, false⟩
        else follow (origin place target) (segments target ++ later)
      | found =>
        if later.all (· == "") then .ok ⟨inner, !later.isEmpty⟩
        else if found.isNone then .error .missing
        else go disk followLast follow inner later

/-- Goes from a place along segments and follows at most `links` links. -/
def goFollowing (disk : Disk) (followLast : Bool) :
    (links : Nat) → Place → List String → Except SystemFault Destination
  | 0 => disk.go followLast fun _ _ => .error .tooManyLinks
  | links + 1 => disk.go followLast (goFollowing disk followLast links)

/-- Where a path leads from a working directory. All names on a disk are texts. -/
def resolve (disk : Disk) (directory : Place) (followLast : Bool) (path : Path) :
    Except SystemFault Destination :=
  if path.text.toList.contains '\x00' then .error .nulInName
  else if path.text.isEmpty || !path.isUnicode then .error .missing
  else if pathBound ≤ path.text.utf8ByteSize then .error .nameTooLong
  else disk.goFollowing followLast linkBound (origin directory path.text) (segments path.text)

/-- The place that a path leads to through all links, and what stands there. -/
def lookup (disk : Disk) (directory : Place) (path : Path) : Except SystemFault (Place × Entry) :=
  match disk.resolve directory true path with
  | .error fault => .error fault
  | .ok found =>
    match disk.entry? found.place with
    | none => .error .missing
    | some entry =>
      if found.asDir && entry != .dir then .error .notDirectory else .ok (found.place, entry)

end Disk

end SiteSurvey
