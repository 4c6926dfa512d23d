import SiteSurvey.CommandLine.Reader
import SiteSurvey.Inquiry.Command

/-!
# The program

Reads the command line, answers the questions of the command from the disk and writes what the
command comes to.
-/

namespace SiteSurvey.Program

open CommandLine

/-! ## Failures -/

/-- The code and the description of a failed operation, if the system gave any. -/
def systemReason? : IO.Error → Option (UInt32 × String)
  | .alreadyExists _ code reason | .invalidArgument _ code reason
  | .permissionDenied _ code reason | .resourceExhausted _ code reason
  | .inappropriateType _ code reason | .noSuchThing _ code reason
  | .interrupted _ code reason | .noFileOrDirectory _ code reason
  | .otherError code reason | .resourceBusy code reason | .resourceVanished code reason
  | .unsupportedOperation code reason | .hardwareFault code reason
  | .unsatisfiedConstraints code reason | .illegalOperation code reason
  | .protocolError code reason | .timeExpired code reason => some (code, reason)
  | .unexpectedEof | .userError _ => none

/-- The number of an error from its code, which may be the number with its sign turned. -/
def errorNumber (code : UInt32) : Nat :=
  if code.toNat < Nat.pow 2 31 then code.toNat else Nat.pow 2 32 - code.toNat

def faultOf (error : IO.Error) : SystemFault :=
  match systemReason? error with
  | none => .other error.toString
  | some (code, reason) =>
    match errorNumber code with
    | 2 => .missing
    | 17 => .alreadyPresent
    | 20 => .notDirectory
    | 21 => .isDirectory
    | 36 => .nameTooLong
    | 40 => .tooManyLinks
    | number => .other s!"{reason} (os error {number})"

/-! ## Looking at the disk -/

/-- What kind of thing a path leads to. -/
def kindAt (path : Path) : IO (Except SystemFault IO.FS.FileType) := do
  if path.text.isEmpty then return .error .missing
  try
    return .ok (← (System.mkFilePath [path.text]).metadata).type
  catch error => return .error (faultOf error)

/-- The entries of a directory, each counted as what it leads to. -/
def listDirectory (path : Path) : IO (Except SystemFault Listing) := do
  try
    let mut files := []
    let mut dirs := []
    for entry in ← (System.mkFilePath [path.text]).readDir do
      match ← kindAt (path.join entry.fileName) with
      | .ok .file => files := entry.fileName :: files
      | .ok .dir => dirs := entry.fileName :: dirs
      | _ => pure ()
    return .ok ⟨files.mergeSort, dirs.mergeSort⟩
  catch error => return .error (faultOf error)

/-- The listing of a path; what is no directory has no entries. -/
def listAt (path : Path) : IO (Except AccessError Listing) := do
  match ← kindAt path with
  | .error fault => return .error (.unlisted path fault)
  | .ok .dir => return (← listDirectory path).mapError (.unlisted path)
  | .ok _ => return .ok ⟨[], []⟩

def readAt (path : Path) : IO (Except AccessError String) := do
  try
    let bytes ← IO.FS.readBinFile path.text
    return (String.fromUTF8? bytes).elim (.error .notText) .ok
  catch error => return .error (.system (faultOf error))

/-- The answer of the system to a question. -/
def answer : (question : Question) → IO question.Answer
  | .workingDirectory => do
    try return .ok ⟨(← IO.currentDir).toString⟩
    catch error => return .error (faultOf error)
  | .list path => listAt path
  | .read path => readAt path
  | .isFile path => return ((← kindAt path) matches .ok .file)
  | .isPresent path => return ((← kindAt path) matches .ok _)
  | .write path text => do
    try return .ok (← IO.FS.writeFile path.text text)
    catch error => return .error (faultOf error)

/-! ## Output -/

/-- Writes spans, with colour on a terminal unless the environment forbids it. -/
def writeSpans (stream : IO.FS.Stream) (spans : List Report.Span) : IO Unit := do
  let colored := (← stream.isTty) && (← IO.getEnv "NO_COLOR").isNone
  stream.putStr (Report.render colored spans)
  stream.flush

/-- Answers words that give no command. -/
def answerRefusal (refusal : Refusal) : IO UInt32 := do
  if refusal.isWish then
    writeSpans (← IO.getStdout)
      [Report.plain (if refusal = .versionWanted then versionText else helpText)]
    return 0
  else
    writeSpans (← IO.getStderr) [Report.plain ("error: " ++ refusal.message ++ "\n\n" ++ helpText)]
    return 2

end SiteSurvey.Program

def main (words : List String) : IO UInt32 := do
  match SiteSurvey.CommandLine.Command.ofWords words with
  | .error refusal => SiteSurvey.Program.answerRefusal refusal
  | .ok command =>
    let outcome ← (SiteSurvey.Inquiry.run command).perform SiteSurvey.Program.answer
    SiteSurvey.Program.writeSpans (← IO.getStdout) outcome.results
    SiteSurvey.Program.writeSpans (← IO.getStderr) outcome.warnings
    return outcome.status.code.toUInt32
