import SiteSurvey.Json.Cursor

/-!
# Reading strings

Reads a string from behind its opening quote. Escapes of code units must form characters: a high
surrogate must be followed by the escape of a low one. A string that is only passed over may hold
any code units.
-/

namespace SiteSurvey.Json

/-! ## Escapes -/

/-- The character that a short escape stands for. -/
def shortEscape? : Char → Option Char
  | '"' => some '"'
  | '\\' => some '\\'
  | '/' => some '/'
  | 'b' => some '\x08'
  | 'f' => some '\x0c'
  | 'n' => some '\n'
  | 'r' => some '\r'
  | 't' => some '\t'
  | _ => none

/-- The value of a hexadecimal digit. -/
def hexValue? (c : Char) : Option Nat :=
  if '0' ≤ c && c ≤ '9' then some (c.toNat - '0'.toNat)
  else if 'a' ≤ c && c ≤ 'f' then some (c.toNat - 'a'.toNat + 10)
  else if 'A' ≤ c && c ≤ 'F' then some (c.toNat - 'A'.toNat + 10)
  else none

/-- The code unit written by four hexadecimal digits. -/
def codeUnit? (a b c d : Char) : Option Nat := do
  return (((← hexValue? a) * 16 + (← hexValue? b)) * 16 + (← hexValue? c)) * 16 + (← hexValue? d)

/-- The number of bytes of a text in UTF-8. -/
def byteCount (text : List Char) : Nat :=
  text.foldl (fun count c => count + c.utf8Size) 0

/-- The fault of a text that should begin with four hexadecimal digits. -/
def digitsFault (position : Position) (text : List Char) : Fault :=
  if byteCount text < 4 then ⟨.endOfString, position.pastAll text⟩
  else ⟨.invalidEscape, position.pastBytes 4 text⟩

def isHighSurrogate (unit : Nat) : Bool :=
  0xD800 ≤ unit && unit ≤ 0xDBFF

def isLowSurrogate (unit : Nat) : Bool :=
  0xDC00 ≤ unit && unit ≤ 0xDFFF

/-- The character that two surrogates form. -/
def surrogatePair (high low : Nat) : Char :=
  Char.ofNat ((high - 0xD800) * 0x400 + (low - 0xDC00) + 0x10000)

/-! ## Strings -/

/--
Reads the rest of a string. `held` is what is read so far, in reverse, and `high` is a high
surrogate whose low one must follow.
-/
def stringFrom : (high : Option Nat) → (held : List Char) → Position → List Char →
    Except Fault (List Char × Cursor)
  | _, _, position, [] => .error ⟨.endOfString, position⟩
  | none, held, position, c :: rest =>
    if c = '"' then .ok (held.reverse, ⟨rest, position.past c⟩)
    else if c = '\\' then
      let position := position.past c
      match rest with
      | [] => .error ⟨.endOfString, position⟩
      | 'u' :: rest =>
        let position := position.past 'u'
        match rest with
        | a :: b :: c :: d :: rest' =>
          match codeUnit? a b c d with
          | none => .error (digitsFault position rest)
          | some unit =>
            let position := position.pastAll [a, b, c, d]
            if isLowSurrogate unit then .error ⟨.loneSurrogate, position⟩
            else if isHighSurrogate unit then stringFrom (some unit) held position rest'
            else stringFrom none (Char.ofNat unit :: held) position rest'
        | _ => .error (digitsFault position rest)
      | e :: rest =>
        match shortEscape? e with
        | some c => stringFrom none (c :: held) (position.past e) rest
        | none => .error ⟨.invalidEscape, position.pastByte e⟩
    else if c.toNat < 0x20 then .error ⟨.controlCharacter, position.past c⟩
    else stringFrom none (c :: held) (position.past c) rest
  | some high, held, position, c :: rest =>
    if c ≠ '\\' then .error ⟨.unfinishedSurrogate, position.pastByte c⟩
    else
      let position := position.past c
      match rest with
      | [] => .error ⟨.endOfString, position⟩
      | 'u' :: rest =>
        let position := position.past 'u'
        match rest with
        | a :: b :: c :: d :: rest' =>
          match codeUnit? a b c d with
          | none => .error (digitsFault position rest)
          | some unit =>
            let position := position.pastAll [a, b, c, d]
            if isLowSurrogate unit then
              stringFrom none (surrogatePair high unit :: held) position rest'
            else .error ⟨.loneSurrogate, position⟩
        | _ => .error (digitsFault position rest)
      | e :: _ => .error ⟨.unfinishedSurrogate, position.pastByte e⟩

/-- Reads a string whose opening quote is read. -/
def Cursor.string (cursor : Cursor) : Except Fault (String × Cursor) :=
  (stringFrom none [] cursor.position cursor.rest).map fun (text, cursor) =>
    (String.ofList text, cursor)

/-- Passes over the rest of a string. -/
def skipStringFrom : Position → List Char → Except Fault Cursor
  | position, [] => .error ⟨.endOfString, position⟩
  | position, c :: rest =>
    if c = '"' then .ok ⟨rest, position.past c⟩
    else if c = '\\' then
      let position := position.past c
      match rest with
      | [] => .error ⟨.endOfString, position⟩
      | 'u' :: rest =>
        let position := position.past 'u'
        match rest with
        | a :: b :: c :: d :: rest' =>
          if (codeUnit? a b c d).isSome then
            skipStringFrom (position.pastAll [a, b, c, d]) rest'
          else .error (digitsFault position rest)
        | _ => .error (digitsFault position rest)
      | e :: rest =>
        if (shortEscape? e).isSome then skipStringFrom (position.past e) rest
        else .error ⟨.invalidEscape, position.pastByte e⟩
    else if c.toNat < 0x20 then .error ⟨.controlCharacter, position⟩
    else skipStringFrom (position.past c) rest

/-- Passes over a string whose opening quote is read. -/
def Cursor.skipString (cursor : Cursor) : Except Fault Cursor :=
  skipStringFrom cursor.position cursor.rest

end SiteSurvey.Json
