import SiteSurvey.Json.Number
import SiteSurvey.Json.StringReader

/-!
# Passing over values

Reads past a value of any form without keeping it. Numbers are not checked for their range, and
strings may hold any code units.
-/

namespace SiteSurvey.Json.Cursor

mutual

/-- Passes over a value; each nested value takes some of the `fuel`. -/
def skipValueWith : (fuel : Nat) → Cursor → Except Fault Cursor
  | 0, cursor => .error (cursor.faultHere .endOfValue)
  | fuel + 1, cursor =>
    let cursor := cursor.skipSpace
    match cursor.rest with
    | [] => .error (cursor.faultHere .endOfValue)
    | c :: _ =>
      match c with
      | 'n' => cursor.next.skipWord "ull".toList
      | 't' => cursor.next.skipWord "rue".toList
      | 'f' => cursor.next.skipWord "alse".toList
      | '"' => cursor.next.skipString
      | '[' =>
        let inner := cursor.next.skipSpace
        match inner.rest with
        | [] => .error (inner.faultHere .endOfList)
        | c :: _ => if c = ']' then .ok inner.next else skipItemsWith fuel inner
      | '{' =>
        let inner := cursor.next.skipSpace
        match inner.rest with
        | [] => .error (inner.faultHere .endOfObject)
        | c :: _ => if c = '}' then .ok inner.next else skipMembersWith fuel inner
      | c =>
        if c = '-' || c.isDigit then (cursor.numeral .invalidNumber).map Prod.snd
        else .error (cursor.faultAhead .expectedValue)

/-- Passes over the items that are left of an array. -/
def skipItemsWith : (fuel : Nat) → Cursor → Except Fault Cursor
  | 0, cursor => .error (cursor.faultHere .endOfList)
  | fuel + 1, cursor =>
    match skipValueWith fuel cursor with
    | .error fault => .error fault
    | .ok cursor =>
      let cursor := cursor.skipSpace
      match cursor.rest with
      | [] => .error (cursor.faultHere .endOfList)
      | c :: _ =>
        if c = ',' then skipItemsWith fuel cursor.next
        else if c = ']' then .ok cursor.next
        else .error (cursor.faultAhead .expectedListEnd)

/-- Passes over the members that are left of an object. -/
def skipMembersWith : (fuel : Nat) → Cursor → Except Fault Cursor
  | 0, cursor => .error (cursor.faultHere .endOfObject)
  | fuel + 1, cursor =>
    let cursor := cursor.skipSpace
    match cursor.rest with
    | [] => .error (cursor.faultHere .endOfObject)
    | c :: _ =>
      if c ≠ '"' then .error (cursor.faultAhead .keyNotString)
      else
        match cursor.next.skipString with
        | .error fault => .error fault
        | .ok cursor =>
          let cursor := cursor.skipSpace
          match cursor.rest with
          | [] => .error (cursor.faultHere .endOfObject)
          | c :: _ =>
            if c ≠ ':' then .error (cursor.faultAhead .expectedColon)
            else
              match skipValueWith fuel cursor.next with
              | .error fault => .error fault
              | .ok cursor =>
                let cursor := cursor.skipSpace
                match cursor.rest with
                | [] => .error (cursor.faultHere .endOfObject)
                | c :: _ =>
                  if c = ',' then skipMembersWith fuel cursor.next
                  else if c = '}' then .ok cursor.next
                  else .error (cursor.faultAhead .expectedObjectEnd)

end

/-- Passes over a value. -/
def skipValue (cursor : Cursor) : Except Fault Cursor :=
  skipValueWith (2 * cursor.rest.length + 1) cursor

end SiteSurvey.Json.Cursor
