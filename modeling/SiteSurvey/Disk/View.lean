import SiteSurvey.Disk

/-!
# Disks as views of files

What is seen of a disk from a working directory. In a listing a link counts as what it leads to; one
that leads to nothing is left out.
-/

namespace SiteSurvey.Disk

/-- The path of a working directory, which may be gone. -/
def workingPath (disk : Disk) (directory : Place) : Except SystemFault Path :=
  if disk.entry? directory = some .dir then .ok (pathOf directory) else .error .missing

/-! ## Listings -/

/-- The names directly in a directory, in order, each with what stands there. -/
def children (disk : Disk) (place : Place) : List (String × Entry) :=
  (disk.entries.entries.filterMap fun (inner, entry) =>
    if inner.dropLast = place then inner.getLast?.map fun name => (name, entry) else none).mergeSort
    fun a b => a.1 ≤ b.1

/-- What a child of the directory at a path counts as, a link as what it leads to. -/
def kindOf (disk : Disk) (directory : Place) (path : Path) (child : String × Entry) :
    Option Entry :=
  match child.2 with
  | .link _ => (disk.lookup directory (path.join child.1)).toOption.map Prod.snd
  | entry => some entry

def isFileEntry : Option Entry → Bool
  | some (.file _) => true
  | _ => false

/-- The files and directories in a directory; a plain file has none. -/
def list (disk : Disk) (directory : Place) (path : Path) : Except AccessError Listing :=
  match disk.lookup directory path with
  | .error fault => .error (.unlisted path fault)
  | .ok (place, .dir) =>
    let kinds := (disk.children place).map fun child =>
      (child.1, disk.kindOf directory path child)
    .ok ⟨(kinds.filter fun child => isFileEntry child.2).map Prod.fst,
      (kinds.filter fun child => child.2 == some .dir).map Prod.fst⟩
  | .ok _ => .ok ⟨[], []⟩

def read (disk : Disk) (directory : Place) (path : Path) : Except AccessError String :=
  match disk.lookup directory path with
  | .error fault => .error (.system fault)
  | .ok (_, .file (some text)) => .ok text
  | .ok (_, .file none) => .error .notText
  | .ok (_, .dir) => .error (.system .isDirectory)
  | .ok (_, .link _) => .error (.system .tooManyLinks)

/-- The disk as seen from a working directory. -/
def view (disk : Disk) (directory : Place) : DiskView where
  list := disk.list directory
  read := disk.read directory
  isFile path := isFileEntry ((disk.lookup directory path).toOption.map Prod.snd)
  isPresent path := (disk.lookup directory path).toOption.isSome

end SiteSurvey.Disk
