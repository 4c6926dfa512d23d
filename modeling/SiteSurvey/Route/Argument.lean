import SiteSurvey.Text.Split

/-!
# Route arguments

A route's path names its arguments in placeholders such as `<int:pk>`: a converter, a colon and a
name, or a name alone.
-/

namespace SiteSurvey.Route

/-! ## Converters -/

/-- The built-in converters of a placeholder. -/
inductive Converter where
  | string
  | slug
  | integer
  | uuid
  | path
  deriving DecidableEq, Repr

namespace Converter

/-- The converter that a placeholder writes as `tag`. -/
def ofTag? (tag : String) : Option Converter :=
  match tag with
  | "str" => some string
  | "slug" => some slug
  | "int" => some integer
  | "uuid" => some uuid
  | "path" => some path
  | _ => none

/-- The name of the converter's values in reports. -/
def label : Converter → String
  | string => "string"
  | slug => "slug"
  | integer => "integer"
  | uuid => "UUID"
  | path => "path"

end Converter

/-! ## Arguments -/

/-- A named argument; its converter is missing if the placeholder has none or an unknown one. -/
structure Argument where
  name : String
  converter : Option Converter
  deriving DecidableEq, Repr

namespace Argument

/-- The text without one `<` at its beginning and one `>` at its end. -/
def bareToken (token : List Char) : List Char :=
  let inner := Text.dropStart ['<'] token
  if inner.getLast? = some '>' then inner.dropLast else inner

/-- The argument of a placeholder: its first colon ends the converter. -/
def ofToken (token : List Char) : Argument :=
  let inner := bareToken token
  match inner.dropWhile (· != ':') with
  | [] => ⟨String.ofList inner, none⟩
  | _ :: name =>
    ⟨String.ofList name, Converter.ofTag? (String.ofList (inner.takeWhile (· != ':')))⟩

end Argument

/-! ## Placeholders of a text -/

/--
The placeholders that close in a text. `held` is the placeholder being read, in reverse and with its
`<`: each `<` begins a new one, and a `>` ends it if it has a name.
-/
def placeholdersFrom : (held : Option (List Char)) → List Char → List (List Char)
  | _, [] => []
  | held, c :: rest =>
    if c = '<' then placeholdersFrom (some [c]) rest
    else
      match held with
      | none => placeholdersFrom none rest
      | some token =>
        if c = '>' then
          if token.length = 1 then placeholdersFrom none rest
          else (c :: token).reverse :: placeholdersFrom none rest
        else placeholdersFrom (some (c :: token)) rest

/-- The placeholders of a text, each with its angle brackets, from left to right. -/
def placeholders (text : List Char) : List (List Char) :=
  placeholdersFrom none text

end SiteSurvey.Route
