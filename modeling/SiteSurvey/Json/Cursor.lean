/-!
# Reading positions

A cursor stands in a text that is being read: what is left of it, and the line and the column
reached. Lines count from one, columns count UTF-8 bytes from the beginning of the line. A fault
carries the position where it is noticed, which is either where the cursor stands or just behind the
byte that it looks at.
-/

namespace SiteSurvey.Json

/-! ## Faults -/

/-- What is wrong with a text, or with a value in it. -/
inductive Cause where
  | endOfList
  | endOfObject
  | endOfString
  | endOfValue
  | expectedColon
  | expectedListEnd
  | expectedObjectEnd
  | expectedIdent
  | expectedValue
  | invalidEscape
  | invalidNumber
  | numberOutOfRange
  | controlCharacter
  | keyNotString
  | loneSurrogate
  | unfinishedSurrogate
  | trailingComma
  | trailingCharacters
  /-- A sound value of another kind than expected. -/
  | wrongKind (found expected : String)
  /-- A sound number outside the expected range. -/
  | wrongValue (found expected : String)
  | repeatedField (name : String)
  deriving DecidableEq, Repr

namespace Cause

def message : Cause → String
  | endOfList => "EOF while parsing a list"
  | endOfObject => "EOF while parsing an object"
  | endOfString => "EOF while parsing a string"
  | endOfValue => "EOF while parsing a value"
  | expectedColon => "expected `:`"
  | expectedListEnd => "expected `,` or `]`"
  | expectedObjectEnd => "expected `,` or `\x7d`"
  | expectedIdent => "expected ident"
  | expectedValue => "expected value"
  | invalidEscape => "invalid escape"
  | invalidNumber => "invalid number"
  | numberOutOfRange => "number out of range"
  | controlCharacter => "control character (\\u0000-\\u001F) found while parsing a string"
  | keyNotString => "key must be a string"
  | loneSurrogate => "lone leading surrogate in hex escape"
  | unfinishedSurrogate => "unexpected end of hex escape"
  | trailingComma => "trailing comma"
  | trailingCharacters => "trailing characters"
  | wrongKind found expected => s!"invalid type: {found}, expected {expected}"
  | wrongValue found expected => s!"invalid value: {found}, expected {expected}"
  | repeatedField name => s!"duplicate field `{name}`"

end Cause

/-! ## Positions -/

structure Position where
  line : Nat := 1
  column : Nat := 0
  deriving DecidableEq, Repr

namespace Position

/-- The position behind a character. -/
def past (position : Position) (c : Char) : Position :=
  if c = '\n' then ⟨position.line + 1, 0⟩ else ⟨position.line, position.column + c.utf8Size⟩

/-- The position behind the first byte of a character. -/
def pastByte (position : Position) (c : Char) : Position :=
  if c = '\n' then ⟨position.line + 1, 0⟩ else ⟨position.line, position.column + 1⟩

/-- The position behind the first `bytes` bytes of a text. -/
def pastBytes (position : Position) : (bytes : Nat) → List Char → Position
  | _, [] => position
  | bytes, c :: rest =>
    if bytes = 0 then position
    else if c.utf8Size ≤ bytes then pastBytes (position.past c) (bytes - c.utf8Size) rest
    else ⟨position.line, position.column + bytes⟩

/-- The position behind a whole text. -/
def pastAll (position : Position) : List Char → Position
  | [] => position
  | c :: rest => pastAll (position.past c) rest

end Position

structure Fault where
  cause : Cause
  position : Position
  deriving DecidableEq, Repr

def Fault.message (fault : Fault) : String :=
  s!"{fault.cause.message} at line {fault.position.line} column {fault.position.column}"

/-! ## Cursors -/

structure Cursor where
  rest : List Char
  position : Position := {}
  deriving DecidableEq, Repr

namespace Cursor

def ofText (text : String) : Cursor :=
  ⟨text.toList, {}⟩

/-- The cursor one character further. -/
def next (cursor : Cursor) : Cursor :=
  match cursor.rest with
  | [] => cursor
  | c :: rest => ⟨rest, cursor.position.past c⟩

/-- A fault noticed where the cursor stands. -/
def faultHere (cursor : Cursor) (cause : Cause) : Fault :=
  ⟨cause, cursor.position⟩

/-- A fault noticed in the byte that the cursor looks at. -/
def faultAhead (cursor : Cursor) (cause : Cause) : Fault :=
  match cursor.rest with
  | [] => ⟨cause, cursor.position⟩
  | c :: _ => ⟨cause, cursor.position.pastByte c⟩

/-- The white space between the tokens of a text. -/
def isSpace (c : Char) : Bool :=
  c == ' ' || c == '\n' || c == '\t' || c == '\r'

def skipSpaceFrom (position : Position) : List Char → Cursor
  | [] => ⟨[], position⟩
  | c :: rest => if isSpace c then skipSpaceFrom (position.past c) rest else ⟨c :: rest, position⟩

/-- The cursor behind the white space that it stands before. -/
def skipSpace (cursor : Cursor) : Cursor :=
  skipSpaceFrom cursor.position cursor.rest

/-- The cursor behind the rest of a word whose first letter is read. -/
def skipWord (cursor : Cursor) : (word : List Char) → Except Fault Cursor
  | [] => .ok cursor
  | expected :: word =>
    match cursor.rest with
    | [] => .error (cursor.faultHere .endOfValue)
    | c :: _ =>
      if c = expected then skipWord cursor.next word
      else .error (cursor.faultAhead .expectedIdent)

end Cursor

end SiteSurvey.Json
