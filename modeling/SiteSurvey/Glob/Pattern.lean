/-!
# Glob patterns

A pattern is a sequence of tokens: single characters, sets of characters in square brackets, `?` for
any character, `*` for any text, and `**` for any directories. A faulty pattern is refused with the
position of its fault, counted in characters.
-/

namespace SiteSurvey.Glob

/-! ## Tokens -/

/-- A member of a bracketed set; a range is empty if its ends are in the wrong order. -/
inductive Member where
  | single (c : Char)
  | range (low high : Char)
  deriving DecidableEq, Repr

def Member.has : Member → Char → Bool
  | single own, c => c == own
  | range low high, c => low ≤ c && c ≤ high

inductive Token where
  | char (c : Char)
  | anyChar
  | anyOf (members : List Member)
  | noneOf (members : List Member)
  /-- Any text, slashes included. -/
  | anyText
  /-- Nothing, or any text that ends in a slash; at the end of a pattern any text. -/
  | anyDirectories
  deriving DecidableEq, Repr

/-- The tokens of a pattern. -/
abbrev Pattern := List Token

/-! ## Faults -/

inductive Cause where
  /-- Three stars or more in a row. -/
  | wildcards
  /-- Two stars that are not a whole path component. -/
  | recursiveWildcards
  /-- A bracketed set without its end. -/
  | range
  deriving DecidableEq, Repr

def Cause.message : Cause → String
  | wildcards => "wildcards are either regular `*` or recursive `**`"
  | recursiveWildcards => "recursive wildcards must form a single path component"
  | range => "invalid range pattern"

structure Fault where
  position : Nat
  cause : Cause
  deriving DecidableEq, Repr

def Fault.message (fault : Fault) : String :=
  s!"Pattern syntax error near position {fault.position}: {fault.cause.message}"

/-! ## Reading -/

/-- The members written between square brackets. -/
def membersOf : List Char → List Member
  | low :: '-' :: high :: rest => .range low high :: membersOf rest
  | c :: rest => .single c :: membersOf rest
  | [] => []

/-- What is being read: the pattern itself, or the inside of a bracketed set. -/
inductive Mode where
  /-- `first` says whether a run of two stars may begin here. -/
  | outside (componentStart : Bool)
  /-- After the bracket at `start`. -/
  | opened (start : Nat)
  /-- Inside the set that began at `start`, with its members so far in reverse. -/
  | inside (start : Nat) (negated : Bool) (held : List Char)
  deriving DecidableEq, Repr

/-- The tokens of the rest of a pattern, which begins at `position`. -/
def readFrom : Mode → (position : Nat) → List Char → Except Fault Pattern
  | .outside _, _, [] => .ok []
  | .outside _, position, '*' :: '*' :: '*' :: _ => .error ⟨position + 2, .wildcards⟩
  | .outside true, position, '*' :: '*' :: '/' :: rest =>
    (readFrom (.outside true) (position + 3) rest).map (.anyDirectories :: ·)
  | .outside true, _, ['*', '*'] => .ok [.anyDirectories]
  | .outside true, position, '*' :: '*' :: _ => .error ⟨position + 2, .recursiveWildcards⟩
  | .outside false, position, '*' :: '*' :: _ => .error ⟨position - 1, .recursiveWildcards⟩
  | .outside _, position, c :: rest =>
    match c with
    | '*' => (readFrom (.outside false) (position + 1) rest).map (.anyText :: ·)
    | '?' => (readFrom (.outside false) (position + 1) rest).map (.anyChar :: ·)
    | '[' => readFrom (.opened position) (position + 1) rest
    | c => (readFrom (.outside (c == '/')) (position + 1) rest).map (.char c :: ·)
  | .opened start, _, [] => .error ⟨start, .range⟩
  | .opened start, _, ['!'] => .error ⟨start, .range⟩
  | .opened start, position, '!' :: c :: rest =>
    readFrom (.inside start true [c]) (position + 2) rest
  | .opened start, position, c :: rest => readFrom (.inside start false [c]) (position + 1) rest
  | .inside start _ _, _, [] => .error ⟨start, .range⟩
  | .inside start negated held, position, c :: rest =>
    if c = ']' then
      let members := membersOf held.reverse
      let token := if negated then Token.noneOf members else Token.anyOf members
      (readFrom (.outside false) (position + 1) rest).map (token :: ·)
    else readFrom (.inside start negated (c :: held)) (position + 1) rest

def Pattern.read (text : String) : Except Fault Pattern :=
  readFrom (.outside true) 0 text.toList

/-- All patterns of a list, or the fault of the first faulty one. -/
def Pattern.readAll : List String → Except Fault (List Pattern)
  | [] => .ok []
  | text :: texts =>
    match Pattern.read text with
    | .error fault => .error fault
    | .ok pattern => (readAll texts).map (pattern :: ·)

end SiteSurvey.Glob
