/-!
# Styled text

Output is a list of spans, each with a style. Written with colour, a styled span stands between the
escape sequence of its style and the reset sequence; without colour only its text is written.
-/

namespace SiteSurvey.Report

/-! ## Styles -/

inductive Weight where
  | bold
  | dim
  deriving DecidableEq, Repr

def Weight.code : Weight → String
  | bold => "1"
  | dim => "2"

inductive Color where
  | red
  | green
  | yellow
  | cyan
  deriving DecidableEq, Repr

def Color.code : Color → String
  | red => "31"
  | green => "32"
  | yellow => "33"
  | cyan => "36"

structure Style where
  weight : Option Weight := none
  color : Option Color := none
  deriving DecidableEq, Repr

namespace Style

def isPlain (style : Style) : Bool :=
  style.weight.isNone && style.color.isNone

/-- The codes of the style, the weight first. -/
def codes (style : Style) : String :=
  ";".intercalate ((style.weight.map Weight.code).toList ++ (style.color.map Color.code).toList)

/-- The escape sequence that begins the style. -/
def start (style : Style) : String :=
  "\x1b[" ++ style.codes ++ "m"

/-- The escape sequence that ends every style. -/
def reset : String :=
  "\x1b[0m"

end Style

/-! ## Spans -/

structure Span where
  text : String
  style : Style := {}
  deriving DecidableEq, Repr

namespace Span

/-- The text with `start` again after each reset sequence inside it. -/
def restart (start : List Char) : List Char → List Char
  | '\x1b' :: '[' :: '0' :: 'm' :: rest =>
    '\x1b' :: '[' :: '0' :: 'm' :: (start ++ restart start rest)
  | c :: rest => c :: restart start rest
  | [] => []

def render (colored : Bool) (span : Span) : String :=
  if colored && !span.style.isPlain then
    let start := span.style.start
    start ++ String.ofList (restart start.toList span.text.toList) ++ Style.reset
  else span.text

end Span

/-- The spans one after another. -/
def render (colored : Bool) : List Span → String
  | [] => ""
  | span :: spans => span.render colored ++ render colored spans

/-! ## Styles in use -/

def plain (text : String) : Span :=
  ⟨text, {}⟩

def bold (text : String) : Span :=
  ⟨text, { weight := some .bold }⟩

def dim (text : String) : Span :=
  ⟨text, { weight := some .dim }⟩

def colored (color : Color) (text : String) : Span :=
  ⟨text, { color := some color }⟩

end SiteSurvey.Report
