import SiteSurvey.CommandLine.Command

/-!
# Reading command lines

Reads the words behind the program's name. Options and paths of a survey may come in any order. The
value of an option may be the next word; such a value, and each run of paths, is checked when the
next option or run begins or the words end. So an unknown option is reported rather than an unusable
value just before it.
-/

namespace SiteSurvey.CommandLine

/-! ## Numbers -/

/-- A natural number of 64 bits in decimal digits, with or without a plus sign. -/
def readNatural? (text : String) : Option Nat :=
  let digits :=
    match text.toList with
    | '+' :: digits => digits
    | digits => digits
  let value := digits.foldl (fun value c => value * 10 + (c.toNat - '0'.toNat)) 0
  if !digits.isEmpty && digits.all Char.isDigit && value < Nat.pow 2 64 then some value else none

/-! ## Options of a survey -/

/-- The options that take a value. -/
inductive ValueOption where
  | format
  | projectDepth
  | appDepth
  deriving DecidableEq, Repr

namespace ValueOption

def name : ValueOption → String
  | format => "format"
  | projectDepth => "project-depth"
  | appDepth => "app-depth"

def ofName? (name : String) : Option ValueOption :=
  [format, projectDepth, appDepth].find? (·.name == name)

end ValueOption

/-- What was read last and is still unchecked. -/
inductive Pending where
  | nothing
  | paths (paths : List String)
  | value (option : ValueOption) (value : Option String)
  deriving DecidableEq, Repr

/-- What the words behind `scan` say so far. -/
structure Draft where
  paths : List String := []
  format : Option Format := none
  projectDepth : Option Nat := none
  appDepth : Option Nat := none
  verbose : Bool := false
  pending : Pending := .nothing
  deriving DecidableEq, Repr

namespace Draft

def request (draft : Draft) : ScanRequest :=
  { paths := draft.paths.map Path.ofText
    format := draft.format.getD .text
    projectDepth := draft.projectDepth
    appDepth := draft.appDepth
    verbose := draft.verbose }

/-- Gives an option its value. -/
def assign (draft : Draft) (option : ValueOption) (text : String) : Except Refusal Draft :=
  match option with
  | .format =>
    if draft.format.isSome then .error .repeatedOption
    else
      match Format.ofName? text with
      | some format => .ok { draft with format := some format }
      | none => .error .unusableValue
  | .projectDepth =>
    if draft.projectDepth.isSome then .error .repeatedOption
    else
      match readNatural? text with
      | some depth => .ok { draft with projectDepth := some depth }
      | none => .error .notNatural
  | .appDepth =>
    if draft.appDepth.isSome then .error .repeatedOption
    else
      match readNatural? text with
      | some depth => .ok { draft with appDepth := some depth }
      | none => .error .notNatural

/-- Checks what is pending. -/
def settle (draft : Draft) : Except Refusal Draft :=
  match draft.pending with
  | .nothing => .ok draft
  | .paths paths =>
    if paths.contains "" then .error .unusableValue
    else .ok { draft with paths := draft.paths ++ paths, pending := .nothing }
  | .value _ none => .error .unusableValue
  | .value option (some text) => { draft with pending := .nothing }.assign option text

/-- Takes a path. -/
def addPath (draft : Draft) (path : String) : Except Refusal Draft :=
  match draft.pending with
  | .paths paths => .ok { draft with pending := .paths (paths ++ [path]) }
  | _ => draft.settle.map fun draft => { draft with pending := .paths [path] }

/-- Takes a plain word: the value of an option that waits for one, or else a path. -/
def addPlain (draft : Draft) (text : String) : Except Refusal Draft :=
  match draft.pending with
  | .value option none => .ok { draft with pending := .value option (some text) }
  | _ => draft.addPath text

def setVerbose (draft : Draft) : Except Refusal Draft :=
  match draft.settle with
  | .error refusal => .error refusal
  | .ok draft =>
    if draft.verbose then .error .repeatedOption else .ok { draft with verbose := true }

def wantHelp (draft : Draft) : Except Refusal Draft :=
  match draft.settle with
  | .error refusal => .error refusal
  | .ok _ => .error .helpWanted

/-- Takes an option that has a value, given with it or in the next word. -/
def addOption (draft : Draft) (option : ValueOption) (value : Option String) :
    Except Refusal Draft :=
  match draft.settle, value with
  | .error refusal, _ => .error refusal
  | .ok draft, some text => draft.assign option text
  | .ok draft, none => .ok { draft with pending := .value option none }

def addLong (draft : Draft) (name : String) (value : Option String) : Except Refusal Draft :=
  match ValueOption.ofName? name with
  | some option => draft.addOption option value
  | none =>
    if name == "verbose" then
      if value.isSome then .error .needlessValue else draft.setVerbose
    else if name == "help" then
      if value.isSome then .error .needlessValue else draft.wantHelp
    else .error .unknownWord

def addShort (draft : Draft) : List Char → Except Refusal Draft
  | [] => .ok draft
  | letter :: letters =>
    if letter = 'v' then
      match draft.setVerbose with
      | .error refusal => .error refusal
      | .ok draft => addShort draft letters
    else if letter = 'h' then draft.wantHelp
    else .error .unknownWord

/-- Takes a word that stands before any separator and is none. -/
def addWord (draft : Draft) : Word → Except Refusal Draft
  | .separator => .ok draft
  | .long name value => draft.addLong name value
  | .short letters => draft.addShort letters
  | .plain text => draft.addPlain text

/-- Takes words that are all paths. -/
def addPaths (draft : Draft) : List String → Except Refusal Draft
  | [] => .ok draft
  | path :: paths =>
    match draft.addPath path with
    | .error refusal => .error refusal
    | .ok draft => addPaths draft paths

def addWords (draft : Draft) : List String → Except Refusal Draft
  | [] => .ok draft
  | text :: texts =>
    match Word.ofText text with
    | .separator => draft.addPaths texts
    | word =>
      match draft.addWord word with
      | .error refusal => .error refusal
      | .ok draft => addWords draft texts

end Draft

/-- Reads the words behind `scan`. -/
def ScanRequest.ofWords (words : List String) : Except Refusal ScanRequest :=
  match Draft.addWords {} words with
  | .error refusal => .error refusal
  | .ok draft => draft.settle.map Draft.request

/-! ## Commands -/

/-- Why a word with a dash before its letters cannot stand alone; the help can be asked for so. -/
def refuseOption : Word → Refusal
  | .long "help" none => .helpWanted
  | .long "help" (some _) => .needlessValue
  | .short ('h' :: _) => .helpWanted
  | _ => .unknownWord

/-- Reads the words behind `init`, none of which means anything. -/
def readNothing : List String → Except Refusal Unit
  | [] => .ok ()
  | text :: texts =>
    match Word.ofText text with
    | .separator => if texts.isEmpty then .ok () else .error .unknownWord
    | word => .error (refuseOption word)

def commandNames : List String :=
  ["scan", "init", "help"]

/-- Answers a call for help about the command that the words name. -/
def refuseHelp : List String → Refusal
  | [] => .helpWanted
  | [name] => if commandNames.contains name then .helpWanted else .unknownCommand
  | _ => .unknownCommand

/-- Reads a command from its name and the words behind it. -/
def Command.ofName (name : String) (words : List String) : Except Refusal Command :=
  if name == "scan" then (ScanRequest.ofWords words).map .scan
  else if name == "init" then (readNothing words).map fun _ => .init
  else if name == "help" then .error (refuseHelp words)
  else .error .unknownCommand

/-- Why a word behind a separator cannot stand where a command should. -/
def refuseSeparated : List String → Except Refusal (Option Command)
  | [] => .ok none
  | name :: _ => .error (if commandNames.contains name then .unknownWord else .unknownCommand)

/-- Reads the words of a command line; none if there is nothing to do. -/
def Command.ofWords : List String → Except Refusal (Option Command)
  | [] => .ok none
  | text :: texts =>
    match Word.ofText text with
    | .separator => refuseSeparated texts
    | .long "version" none => .error .versionWanted
    | .long "version" (some _) => .error .needlessValue
    | .short ('V' :: _) => .error .versionWanted
    | .plain name => (Command.ofName name texts).map some
    | word => .error (refuseOption word)

end SiteSurvey.CommandLine
