import SiteSurvey.Admin.Import

/-!
# Registrations

A module registers models by a decorator, `@admin.register(Book, Author)`, or by a call,
`admin.site.register(Book)`. Each form is looked for at the beginnings of lines, on its own and
without overlaps: a line that begins inside an earlier find of the same form is passed over.
-/

namespace SiteSurvey.Admin

open Text

/-! ## Finds at line beginnings -/

/--
What `find?` makes of the text at the beginning of each line, from left to right. A find says how
many characters it covers, and the lines that begin among them are not tried; `covered` is how many
of them are left, and `lineStart` says whether the text begins a line.
-/
def findsFrom (find? : List Char → Option (α × Nat)) :
    (covered : Nat) → (lineStart : Bool) → List Char → List α
  | _, _, [] => []
  | covered + 1, _, c :: rest => findsFrom find? covered (c == '\n') rest
  | 0, false, c :: rest => findsFrom find? 0 (c == '\n') rest
  | 0, true, c :: rest =>
    match find? (c :: rest) with
    | some (value, length) => value :: findsFrom find? (length - 1) (c == '\n') rest
    | none => findsFrom find? 0 (c == '\n') rest

def finds (find? : List Char → Option (α × Nat)) (text : List Char) : List α :=
  findsFrom find? 0 true text

/-! ## The two forms -/

/-- What follows the opening parenthesis in a text that begins by calling the admin site `name`. -/
def afterCall? (name text : List Char) : Option (List Char) := do
  let rest ← after? name text
  after? ['('] (dropStart ".register".toList (dropStart ".site".toList rest))

/-- Whether a text begins with a comma and the keyword argument `site`. -/
def beginsSiteArgument (text : List Char) : Bool :=
  match after? [','] text with
  | none => false
  | some rest =>
    match after? "site".toList (rest.dropWhile isBlank) with
    | none => false
    | some rest => (rest.dropWhile isBlank).head? == some '='

/-- The arguments before the keyword argument `site`, or all of them without one. -/
def beforeSiteArgument : List Char → List Char
  | [] => []
  | c :: rest => if beginsSiteArgument (c :: rest) then [] else c :: beforeSiteArgument rest

/-- The models in a decorator at the beginning of a text, as the text that lists them. -/
def decorator? (name text : List Char) : Option (List Char × Nat) := do
  let arguments ← afterCall? name (← after? ['@'] (text.dropWhile isIndent))
  match arguments.dropWhile (· != ')') with
  | [] => none
  | _ :: rest =>
    some (beforeSiteArgument (arguments.takeWhile (· != ')')), text.length - rest.length)

/-- The model in a call at the beginning of a text. -/
def call? (name text : List Char) : Option (List Char × Nat) := do
  let arguments := (← afterCall? name (text.dropWhile isIndent)).dropWhile isBlank
  let model := arguments.takeWhile isWord
  if model.isEmpty then none
  else some (model, text.length - (arguments.dropWhile isWord).length)

/-! ## Models in order -/

/--
The models of decorators and calls in turn: all models of a decorator, then the model of a call, as
long as either is left.
-/
def interleave : (decorators calls : List (List Char)) → List (List Char)
  | [], calls => calls
  | decorator :: decorators, [] => words decorator ++ interleave decorators []
  | decorator :: decorators, call :: calls =>
    words decorator ++ call :: interleave decorators calls

/-- The models that a text without comments registers with the admin site `name`. -/
def registeredUnder (name text : List Char) : List (List Char) :=
  interleave (finds (decorator? name) text) (finds (call? name) text)

/-- The models registered with the admin site `name`; none if they cannot be looked for. -/
def registered (compiler : Compiler) (name text : List Char) : List (List Char) :=
  if compiler.registration name then registeredUnder name text else []

end SiteSurvey.Admin
