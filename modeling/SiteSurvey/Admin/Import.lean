import SiteSurvey.Admin.Compiler
import SiteSurvey.Text.Blank
import SiteSurvey.Text.Split
import SiteSurvey.Text.Word

/-!
# Admin imports

Finds the name under which a module may register models: the local name that the first admin import
binds. The admin module is imported from a package whose dotted name ends in `contrib`, its
`register` and `site` from one whose name ends in `contrib.admin`. An import is read from one line.
-/

namespace SiteSurvey.Admin

open Text

/-! ## Import lines -/

/-- The imported list of an import line, by what it can import. -/
inductive Import where
  /-- From the admin module itself. -/
  | members (list : List Char)
  /-- From the package that holds the admin module. -/
  | modules (list : List Char)
  deriving DecidableEq, Repr

/-- What follows the spaces and tabs at the beginning of a text, if there are any. -/
def afterIndent? (text : List Char) : Option (List Char) :=
  if (text.head?.any isIndent) then some (text.dropWhile isIndent) else none

def isDotted (c : Char) : Bool :=
  isWord c || c == '.'

/-- The import that a line makes, if it imports from an admin package or its parent. -/
def Import.ofLine? (line : List Char) : Option Import := do
  let source ← afterIndent? (← after? "from".toList (line.dropWhile isIndent))
  let rest ← afterIndent? (source.dropWhile isDotted)
  let list ← afterIndent? (← after? "import".toList rest)
  let package := source.takeWhile isDotted
  if "contrib.admin".toList.isSuffixOf package then some (.members list)
  else if "contrib".toList.isSuffixOf package then some (.modules list)
  else none

/-! ## Import lists -/

/-- An entry of an import list: a name and the alias that it may be given. -/
structure Entry where
  name : List Char
  alias? : Option (List Char)
  deriving DecidableEq, Repr

/-- The name that the entry binds. -/
def Entry.bound (entry : Entry) : List Char :=
  entry.alias?.getD entry.name

def isParenthesis (c : Char) : Bool :=
  c == '(' || c == ')'

/-- The entry written in one part of an import list, parentheses and white space around it aside. -/
def Entry.ofPart? (part : List Char) : Option Entry :=
  let part := trim (trimBy isParenthesis (trim part))
  let name := part.takeWhile isWord
  if name.isEmpty then none
  else
    match part.dropWhile isWord with
    | [] => some ⟨name, none⟩
    | rest => do
      let given ← afterIndent? (← after? "as".toList (← afterIndent? rest))
      if !given.isEmpty && given.all isWord then some ⟨name, some given⟩ else none

/-- The entries of an import list that may end in backslashes. -/
def entries (list : List Char) : List Entry :=
  (splitAt ',' (list.reverse.dropWhile (· == '\\')).reverse).filterMap Entry.ofPart?

/-- The name that the first entry for one of the wanted names binds. -/
def boundName? (wanted : List (List Char)) (list : List Char) : Option (List Char) :=
  ((entries list).find? fun entry => wanted.contains entry.name).map Entry.bound

/-- The name that an import binds to the admin site or to something on it. -/
def Import.bound? : Import → Option (List Char)
  | members list => boundName? ["register".toList, "site".toList] list
  | modules list => boundName? ["admin".toList] list

/-! ## The scope of a module -/

/-- The name bound by the first admin import of a text. -/
def scope? (text : List Char) : Option (List Char) :=
  (lines text).findSome? fun line => (Import.ofLine? line).bind Import.bound?

/-- The variable that an unindented line sets to something that begins with the name `scope`. -/
def reboundInLine? (scope line : List Char) : Option (List Char) := do
  let target := line.takeWhile isWord
  let rest ← after? ['='] ((line.dropWhile isWord).dropWhile isIndent)
  let rest ← after? scope (rest.dropWhile isIndent)
  if !target.isEmpty && !rest.head?.any isWord then some target else none

/-- The variable that a text first sets to the scope. -/
def firstRebound? (scope text : List Char) : Option (List Char) :=
  (lines text).findSome? (reboundInLine? scope)

/-- The variable that a text first sets to the scope; none if it cannot be looked for. -/
def rebound? (compiler : Compiler) (scope text : List Char) : Option (List Char) :=
  if compiler.rebinding scope then firstRebound? scope text else none

/-- The name by which a text calls the admin site. -/
def registrar? (compiler : Compiler) (text : List Char) : Option (List Char) :=
  (scope? text).map fun scope => (rebound? compiler scope text).getD scope

end SiteSurvey.Admin
