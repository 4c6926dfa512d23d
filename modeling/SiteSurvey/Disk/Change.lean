import SiteSurvey.Disk

/-!
# Changes of disks

Something new at a place, and a file written at a path.
-/

namespace SiteSurvey.Disk

def set (disk : Disk) (place : Place) (entry : Entry) : Disk :=
  ⟨disk.entries.insert place entry⟩

/-- Writes a file, through links. -/
def write (disk : Disk) (directory : Place) (path : Path) (text : Option String) :
    Except SystemFault Disk :=
  match disk.resolve directory true path with
  | .error fault => .error fault
  | .ok found =>
    if found.asDir || disk.entry? found.place == some .dir then .error .isDirectory
    else .ok (disk.set found.place (.file text))

end SiteSurvey.Disk
