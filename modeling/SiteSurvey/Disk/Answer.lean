import SiteSurvey.Disk.Change
import SiteSurvey.Disk.View
import SiteSurvey.Inquiry

/-!
# Disks that answer questions

What a disk answers from a working directory, and what becomes of it.
-/

namespace SiteSurvey

namespace Disk

/-- The disk after a change, which may have failed. -/
def changed (disk : Disk) : Except SystemFault Disk → Except SystemFault Unit × Disk
  | .ok disk => (.ok (), disk)
  | .error fault => (.error fault, disk)

/-- The answer to a question, and the disk after it. -/
def answer (directory : Place) : (question : Question) → StateM Disk question.Answer
  | .workingDirectory => fun disk => (disk.workingPath directory, disk)
  | .list path => fun disk => (disk.list directory path, disk)
  | .read path => fun disk => (disk.read directory path, disk)
  | .isFile path => fun disk => ((disk.view directory).isFile path, disk)
  | .isPresent path => fun disk => ((disk.view directory).isPresent path, disk)
  | .write path text => fun disk => disk.changed (disk.write directory path (some text))

end Disk

/-- What an inquiry comes to if a disk answers it, with the disk after it. -/
def Inquiry.performOn (disk : Disk) (directory : Place) (inquiry : Inquiry α) : α × Disk :=
  (inquiry.perform (Disk.answer directory)).run disk

end SiteSurvey
