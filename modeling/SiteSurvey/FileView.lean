import SiteSurvey.Path

/-!
# Views of files

What a survey asks of a file system: the entries of a directory and the text of a file. Both may
fail. A view of a disk also tells whether something stands at a path.
-/

namespace SiteSurvey

/-! ## Failures -/

/-- Why the system refuses an operation on a disk. -/
inductive SystemFault where
  | missing
  | alreadyPresent
  | notDirectory
  | isDirectory
  | tooManyLinks
  | nameTooLong
  | nulInName
  /-- Any other reason, in the words of the system. -/
  | other (reason : String)
  deriving DecidableEq, Repr

def SystemFault.message : SystemFault → String
  | missing => "No such file or directory (os error 2)"
  | alreadyPresent => "File exists (os error 17)"
  | notDirectory => "Not a directory (os error 20)"
  | isDirectory => "Is a directory (os error 21)"
  | tooManyLinks => "Too many levels of symbolic links (os error 40)"
  | nameTooLong => "File name too long (os error 36)"
  | nulInName => "file name contained an unexpected NUL byte"
  | other reason => reason

inductive AccessError where
  /-- The path is barred. -/
  | denied (path : Path)
  /-- Nothing is known at the path. -/
  | absent (path : Path)
  /-- The system cannot list the path. -/
  | unlisted (path : Path) (fault : SystemFault)
  /-- The system cannot open a file. -/
  | system (fault : SystemFault)
  /-- The bytes of a file are no text. -/
  | notText
  deriving DecidableEq, Repr

def AccessError.message : AccessError → String
  | denied path => s!"permission denied: {path.text}"
  | absent path => s!"no such file or directory: {path.text}"
  | unlisted path fault => s!"IO error for operation on {path.text}: {fault.message}"
  | system fault => fault.message
  | notText => "stream did not contain valid UTF-8"

/-! ## Views -/

/-- The names of the files and of the directories directly in a directory. -/
structure Listing where
  files : List String
  dirs : List String
  deriving DecidableEq, Repr

structure FileView where
  list : Path → Except AccessError Listing
  read : Path → Except AccessError String

/-- A view of the files of a disk, where a link stands for what it leads to. -/
structure DiskView extends FileView where
  /-- Whether the path leads to a file. -/
  isFile : Path → Bool
  /-- Whether the path leads to anything. -/
  isPresent : Path → Bool

end SiteSurvey
