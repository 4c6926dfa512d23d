import SiteSurvey.FileView
import SiteSurvey.OrderedMap

/-!
# File trees in memory

A tree of files and directories that are known by the parts of their paths. Adding a file or a
directory adds the directories above it; barred paths can be neither listed nor read.
-/

namespace SiteSurvey

structure MemoryTree where
  files : OrderedMap (List Path.Part) String := ∅
  dirs : List (List Path.Part) := []
  barred : List (List Path.Part) := []

namespace MemoryTree

/-! ## Keys -/

/-- The parts of the directory above; none for no parts and for the root. -/
def parentKey? : List Path.Part → Option (List Path.Part)
  | [] => none
  | [.root] => none
  | parts => some parts.dropLast

/-- The parts of the directories above, from the nearest on. -/
def keysAbove (parts : List Path.Part) : List (List Path.Part) :=
  let above := (List.range parts.length).reverse.map parts.take
  if parts.head? == some .root then above.filter (!·.isEmpty) else above

/-- The last part as a name; empty if it is none. -/
def keyName (parts : List Path.Part) : String :=
  match parts.getLast? with
  | some (.name name) => name
  | _ => ""

/-! ## Building -/

def addKeys (dirs keys : List (List Path.Part)) : List (List Path.Part) :=
  keys.foldl (fun dirs key => dirs.insert key) dirs

def withFile (tree : MemoryTree) (path : Path) (text : String) : MemoryTree :=
  { tree with
    files := tree.files.insert path.parts text
    dirs := addKeys tree.dirs (keysAbove path.parts) }

def withDir (tree : MemoryTree) (path : Path) : MemoryTree :=
  { tree with dirs := addKeys tree.dirs (path.parts :: keysAbove path.parts) }

/-- Bars a path. -/
def deny (tree : MemoryTree) (path : Path) : MemoryTree :=
  { tree with barred := tree.barred.insert path.parts }

/-! ## Viewing -/

/-- The names of the keys directly below `parts`, in order. -/
def namesBelow (parts : List Path.Part) (keys : List (List Path.Part)) : List String :=
  ((keys.filter fun key => parentKey? key == some parts).map keyName).mergeSort

def list (tree : MemoryTree) (path : Path) : Except AccessError Listing :=
  if tree.barred.contains path.parts then .error (.denied path)
  else if tree.dirs.contains path.parts then
    .ok ⟨namesBelow path.parts tree.files.keys, namesBelow path.parts tree.dirs⟩
  else .error (.absent path)

def read (tree : MemoryTree) (path : Path) : Except AccessError String :=
  if tree.barred.contains path.parts then .error (.denied path)
  else
    match tree.files.get? path.parts with
    | some text => .ok text
    | none => .error (.absent path)

/-- What is seen of the tree. It is built of paths that are texts, and has nothing at another. -/
def view (tree : MemoryTree) : FileView where
  list path := if path.isUnicode then tree.list path else .error (.absent path)
  read path := if path.isUnicode then tree.read path else .error (.absent path)

end MemoryTree

end SiteSurvey
