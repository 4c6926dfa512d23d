import SiteSurvey.Config
import SiteSurvey.Json.Skip

/-!
# Reading configurations

Reads a configuration from its JSON text: an object with some of the four fields in any order, or an
array with the values of the fields in their order. Absent fields have their defaults, unknown
members of an object are passed over. A field that comes twice is a fault.
-/

namespace SiteSurvey.Config

open Json

/-! ## Values -/

/-- The fault of a value of another kind than `expected`, or the fault inside it. -/
def mismatch (expected : String) (cursor : Cursor) : Fault :=
  let wrong (found : String) (after : Cursor) : Fault := after.faultHere (.wrongKind found expected)
  let word (rest found : String) : Fault :=
    match cursor.next.skipWord rest.toList with
    | .error fault => fault
    | .ok after => wrong found after
  match cursor.rest with
  | [] => cursor.faultHere .endOfValue
  | c :: _ =>
    match c with
    | 'n' => word "ull" "null"
    | 't' => word "rue" "boolean `true`"
    | 'f' => word "alse" "boolean `false`"
    | '"' =>
      match cursor.next.string with
      | .error fault => fault
      | .ok (text, after) => wrong ("string " ++ Json.quoted text) after
    | '[' => wrong "sequence" cursor
    | '{' => wrong "map" cursor
    | c =>
      if c = '-' || c.isDigit then
        match cursor.number with
        | .error fault => fault
        | .ok (numeral, after) => wrong numeral.describe after
      else cursor.faultAhead .expectedValue

/-- Reads a natural number below the bound of 64 bits. -/
def readNatural (cursor : Cursor) : Except Fault (Nat × Cursor) :=
  let cursor := cursor.skipSpace
  if cursor.rest.head?.any fun c => c == '-' || c.isDigit then
    match cursor.number with
    | .error fault => .error fault
    | .ok (numeral, after) =>
      match numeral.natural? with
      | some n => .ok (n, after)
      | none =>
        if numeral.isNegativeInteger then
          .error (after.faultHere (.wrongValue numeral.describe "usize"))
        else .error (after.faultHere (.wrongKind numeral.describe "usize"))
  else .error (mismatch "usize" cursor)

/-- Reads a string. -/
def readString (cursor : Cursor) : Except Fault (String × Cursor) :=
  let cursor := cursor.skipSpace
  if cursor.rest.head? == some '"' then cursor.next.string else .error (mismatch "a string" cursor)

/-- Reads the strings that are left of an array, after a comma or as its first ones. -/
def readItemsWith : (fuel : Nat) → Cursor → Except Fault (List String × Cursor)
  | 0, cursor => .error (cursor.faultHere .endOfList)
  | fuel + 1, cursor =>
    match readString cursor with
    | .error fault => .error fault
    | .ok (item, cursor) =>
      let cursor := cursor.skipSpace
      match cursor.rest with
      | [] => .error (cursor.faultHere .endOfList)
      | c :: _ =>
        if c = ']' then .ok ([item], cursor.next)
        else if c = ',' then
          let cursor := cursor.next.skipSpace
          if cursor.rest.head? == some ']' then .error (cursor.faultAhead .trailingComma)
          else (readItemsWith fuel cursor).map fun (items, cursor) => (item :: items, cursor)
        else .error (cursor.faultAhead .expectedListEnd)

/-- Reads an array of strings. -/
def readStrings (cursor : Cursor) : Except Fault (List String × Cursor) :=
  let cursor := cursor.skipSpace
  if cursor.rest.head? == some '[' then
    let inner := cursor.next.skipSpace
    match inner.rest with
    | [] => .error (inner.faultHere .endOfList)
    | c :: _ => if c = ']' then .ok ([], inner.next) else readItemsWith inner.rest.length inner
  else .error (mismatch "a sequence" cursor)

/-! ## Fields -/

inductive Field where
  | ignores
  | projectDepth
  | appDepth
  | paths
  deriving DecidableEq, Repr

def Field.name : Field → String
  | ignores => "ignores"
  | projectDepth => "projectDepth"
  | appDepth => "appDepth"
  | paths => "paths"

def Field.all : List Field :=
  [ignores, projectDepth, appDepth, paths]

def Field.ofName? (name : String) : Option Field :=
  Field.all.find? (·.name == name)

/-- The fields read so far. -/
structure Draft where
  ignores : Option (List String) := none
  projectDepth : Option Nat := none
  appDepth : Option Nat := none
  paths : Option (List String) := none
  deriving DecidableEq, Repr

namespace Draft

def has (draft : Draft) : Field → Bool
  | .ignores => draft.ignores.isSome
  | .projectDepth => draft.projectDepth.isSome
  | .appDepth => draft.appDepth.isSome
  | .paths => draft.paths.isSome

/-- The configuration with defaults for the fields that are absent. -/
def config (draft : Draft) : Config :=
  let plain : Config := {}
  ⟨draft.ignores.getD plain.ignores, draft.projectDepth.getD plain.projectDepth,
    draft.appDepth.getD plain.appDepth, draft.paths.getD plain.paths⟩

end Draft

/-- Reads the value of a field into a draft. -/
def readField (draft : Draft) (field : Field) (cursor : Cursor) : Except Fault (Draft × Cursor) :=
  match field with
  | .ignores =>
    (readStrings cursor).map fun (v, after) => ({ draft with ignores := some v }, after)
  | .projectDepth =>
    (readNatural cursor).map fun (v, after) => ({ draft with projectDepth := some v }, after)
  | .appDepth =>
    (readNatural cursor).map fun (v, after) => ({ draft with appDepth := some v }, after)
  | .paths =>
    (readStrings cursor).map fun (v, after) => ({ draft with paths := some v }, after)

/-! ## Objects -/

/-- The fault of a field that comes again, noticed behind the white space and bracket after it. -/
def repeatedFault (field : Field) (cursor : Cursor) : Fault :=
  let cursor := cursor.skipSpace
  let cursor := if cursor.rest.head? == some '}' then cursor.next else cursor
  cursor.faultHere (.repeatedField field.name)

/-- Reads the value of the member with the given key, behind its colon. -/
def readMember (draft : Draft) (key : String) (cursor : Cursor) : Except Fault (Draft × Cursor) :=
  match Field.ofName? key with
  | none => cursor.skipValue.map fun after => (draft, after)
  | some field => readField draft field cursor

/-- Reads the members that are left of an object, the first of them at the cursor. -/
def readMembersWith : (fuel : Nat) → Draft → Cursor → Except Fault (Draft × Cursor)
  | 0, _, cursor => .error (cursor.faultHere .endOfObject)
  | fuel + 1, draft, cursor =>
    if cursor.rest.head? != some '"' then .error (cursor.faultAhead .keyNotString)
    else
      match cursor.next.string with
      | .error fault => .error fault
      | .ok (key, cursor) =>
        match (Field.ofName? key).filter draft.has with
        | some field => .error (repeatedFault field cursor)
        | none =>
          let cursor := cursor.skipSpace
          match cursor.rest with
          | [] => .error (cursor.faultHere .endOfObject)
          | c :: _ =>
            if c ≠ ':' then .error (cursor.faultAhead .expectedColon)
            else
              match readMember draft key cursor.next with
              | .error fault => .error fault
              | .ok (draft, cursor) =>
                let cursor := cursor.skipSpace
                match cursor.rest with
                | [] => .error (cursor.faultHere .endOfObject)
                | c :: _ =>
                  if c = '}' then .ok (draft, cursor.next)
                  else if c = ',' then
                    let cursor := cursor.next.skipSpace
                    match cursor.rest with
                    | [] => .error (cursor.faultHere .endOfValue)
                    | c :: _ =>
                      if c = '}' then .error (cursor.faultAhead .trailingComma)
                      else readMembersWith fuel draft cursor
                  else .error (cursor.faultAhead .expectedObjectEnd)

/-- Reads an object from behind its opening bracket. -/
def readObject (cursor : Cursor) : Except Fault (Draft × Cursor) :=
  let cursor := cursor.skipSpace
  match cursor.rest with
  | [] => .error (cursor.faultHere .endOfObject)
  | c :: _ =>
    if c = '}' then .ok ({}, cursor.next) else readMembersWith cursor.rest.length {} cursor

/-! ## Arrays -/

/-- Reads the end of an array whose fields are all read. -/
def readArrayEnd (draft : Draft) (cursor : Cursor) : Except Fault (Draft × Cursor) :=
  let cursor := cursor.skipSpace
  match cursor.rest with
  | [] => .error (cursor.faultHere .endOfList)
  | c :: _ =>
    if c = ']' then .ok (draft, cursor.next)
    else if c = ',' then
      let cursor := cursor.next.skipSpace
      if cursor.rest.head? == some ']' then .error (cursor.faultAhead .trailingComma)
      else .error (cursor.faultAhead .trailingCharacters)
    else .error (cursor.faultAhead .trailingCharacters)

/-- Reads the fields that are left of an array; a comma comes before all but the first. -/
def readPositional (draft : Draft) : (first : Bool) → List Field → Cursor →
    Except Fault (Draft × Cursor)
  | _, [], cursor => readArrayEnd draft cursor
  | first, field :: fields, cursor =>
    let cursor := cursor.skipSpace
    match cursor.rest with
    | [] => .error (cursor.faultHere .endOfList)
    | c :: _ =>
      let read (cursor : Cursor) : Except Fault (Draft × Cursor) :=
        match readField draft field cursor with
        | .error fault => .error fault
        | .ok (draft, cursor) => readPositional draft false fields cursor
      if c = ']' then .ok (draft, cursor.next)
      else if first then read cursor
      else if c = ',' then
        let cursor := cursor.next.skipSpace
        match cursor.rest with
        | [] => .error (cursor.faultHere .endOfValue)
        | c :: _ => if c = ']' then .error (cursor.faultAhead .trailingComma) else read cursor
      else .error (cursor.faultAhead .expectedListEnd)

/-! ## Texts -/

/-- Reads an object or an array. -/
def readDraft (cursor : Cursor) : Except Fault (Draft × Cursor) :=
  let cursor := cursor.skipSpace
  match cursor.rest with
  | [] => .error (cursor.faultHere .endOfValue)
  | c :: _ =>
    if c = '{' then readObject cursor.next
    else if c = '[' then readPositional {} true Field.all cursor.next
    else .error (mismatch "struct Config" cursor)

/-- The configuration that a text describes. -/
def read (text : String) : Except Fault Config :=
  match readDraft (Cursor.ofText text) with
  | .error fault => .error fault
  | .ok (draft, cursor) =>
    let cursor := cursor.skipSpace
    if cursor.rest.isEmpty then .ok draft.config
    else .error (cursor.faultAhead .trailingCharacters)

end SiteSurvey.Config
