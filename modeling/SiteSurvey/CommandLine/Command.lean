import SiteSurvey.Path

/-!
# Commands

What a command line can ask for: a survey with its options, or a new configuration file. A command
line that asks for none of them, or that asks for help, is refused with a reason.
-/

namespace SiteSurvey.CommandLine

/-! ## Commands -/

/-- The form in which a survey is reported. -/
inductive Format where
  | text
  | json
  deriving DecidableEq, Repr

namespace Format

def name : Format → String
  | text => "text"
  | json => "json"

def ofName? (name : String) : Option Format :=
  [text, json].find? (·.name == name)

end Format

/-- A survey as asked for; what is absent is taken from the configuration. -/
structure ScanRequest where
  paths : List Path := []
  format : Format := .text
  projectDepth : Option Nat := none
  appDepth : Option Nat := none
  verbose : Bool := false
  deriving DecidableEq, Repr

inductive Command where
  | scan (request : ScanRequest)
  /-- Write a configuration file that has only defaults. -/
  | init
  deriving DecidableEq, Repr

/-! ## Refusals -/

/-- Why words give no command. -/
inductive Refusal where
  /-- An option that is not known, or a word where none may stand. -/
  | unknownWord
  | unknownCommand
  /-- An option without its value, or a value that cannot be used. -/
  | unusableValue
  | notNatural
  /-- An option that comes twice. -/
  | repeatedOption
  /-- A value for an option that takes none. -/
  | needlessValue
  | helpWanted
  | versionWanted
  deriving DecidableEq, Repr

namespace Refusal

/-- Whether the words are sound and ask for a text only. -/
def isWish : Refusal → Bool
  | helpWanted | versionWanted => true
  | _ => false

def message : Refusal → String
  | unknownWord => "unexpected argument found"
  | unknownCommand => "unrecognized subcommand"
  | unusableValue => "a value is required and must be a possible one"
  | notNatural => "invalid number"
  | repeatedOption => "the argument cannot be used multiple times"
  | needlessValue => "unexpected value found"
  | helpWanted => "help"
  | versionWanted => "version"

end Refusal

/-! ## Words -/

/-- A word of a command line by its form. -/
inductive Word where
  /-- The word `--`, behind which no word is an option. -/
  | separator
  /-- A word like `--name` or `--name=value`. -/
  | long (name : String) (value : Option String)
  /-- A word like `-abc`: one or more short options. -/
  | short (letters : List Char)
  /-- Any other word. -/
  | plain (text : String)
  deriving DecidableEq, Repr

/-- The name and the value in the text of a long option. -/
def splitValue (text : List Char) : String × Option String :=
  let name := String.ofList (text.takeWhile (· != '='))
  match text.dropWhile (· != '=') with
  | [] => (name, none)
  | _ :: value => (name, some (String.ofList value))

def Word.ofText (text : String) : Word :=
  match text.toList with
  | ['-', '-'] => .separator
  | '-' :: '-' :: option => .long (splitValue option).1 (splitValue option).2
  | '-' :: letter :: letters => .short (letter :: letters)
  | _ => .plain text

end SiteSurvey.CommandLine
