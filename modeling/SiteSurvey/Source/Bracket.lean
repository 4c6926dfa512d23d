/-!
# Top-level bracket groups

Slices a text into its top-level groups of one kind of bracket, by counting depth alone: brackets of
the other kinds and quotes mean nothing. A group still open at the end of the text is dropped. A
closer outside every group is an error that carries its place.
-/

namespace SiteSurvey.Source

inductive Bracket where
  | round
  | square
  | curly
  | angle
  deriving DecidableEq, Repr

namespace Bracket

def opener : Bracket → Char
  | round => '('
  | square => '['
  | curly => '{'
  | angle => '<'

def closer : Bracket → Char
  | round => ')'
  | square => ']'
  | curly => '}'
  | angle => '>'

end Bracket

/-- A closer that no opener before it waits for. -/
structure Unmatched where
  glyph : Char
  /-- The number of UTF-8 bytes before the glyph. -/
  offset : Nat
  deriving DecidableEq, Repr

def Unmatched.message (fault : Unmatched) : String :=
  s!"unmatched '{fault.glyph}' at byte offset {fault.offset}"

namespace Bracket

/--
The groups that close in the rest of a text, given the byte offset of the rest, the depth reached
before it and, in reverse, the part of the open group read so far.
-/
def groupsFrom (bracket : Bracket) :
    (offset depth : Nat) → (held : List Char) → List Char → Except Unmatched (List (List Char))
  | _, _, _, [] => .ok []
  | offset, depth, held, c :: rest =>
    if c = bracket.opener then
      groupsFrom bracket (offset + c.utf8Size) (depth + 1) (c :: held) rest
    else if c = bracket.closer then
      match depth with
      | 0 => .error ⟨c, offset⟩
      | 1 => (groupsFrom bracket (offset + c.utf8Size) 0 [] rest).map ((c :: held).reverse :: ·)
      | depth + 2 => groupsFrom bracket (offset + c.utf8Size) (depth + 1) (c :: held) rest
    else
      groupsFrom bracket (offset + c.utf8Size) depth (if depth = 0 then [] else c :: held) rest

/-- The top-level groups of a text in order, each with its own brackets. -/
def groups (bracket : Bracket) (text : List Char) : Except Unmatched (List (List Char)) :=
  groupsFrom bracket 0 0 [] text

/-- A group without its own brackets. -/
def inside (group : List Char) : List Char :=
  group.tail.dropLast

/-- The top-level groups of a text in order, each without its own brackets. -/
def contents (bracket : Bracket) (text : List Char) : Except Unmatched (List (List Char)) :=
  (bracket.groups text).map (·.map inside)

end Bracket

end SiteSurvey.Source
