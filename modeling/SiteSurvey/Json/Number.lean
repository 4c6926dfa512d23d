import SiteSurvey.Json.Cursor
import SiteSurvey.Json.Double

/-!
# Reading numbers

Reads a number as it is written and tells the plain natural numbers below 2^64 from all others. All
but the integers of 64 bits are read as floating-point numbers; one that is too large is a fault.
-/

namespace SiteSurvey.Json

/-! ## Numbers as written -/

/-- A number as it is written. -/
structure Numeral where
  negative : Bool
  integer : List Char
  fraction : Option (List Char)
  /-- Whether the exponent is negative, and its digits. -/
  exponent : Option (Bool × List Char)
  deriving DecidableEq, Repr

namespace Cursor

/-- The digits that the cursor stands before, and the cursor behind them. -/
def digits (cursor : Cursor) : List Char × Cursor :=
  let digits := cursor.rest.takeWhile Char.isDigit
  (digits, ⟨cursor.rest.dropWhile Char.isDigit, cursor.position.pastAll digits⟩)

/-- Reads the digits before the point; `atEnd` is the fault if the text ends. -/
def integerPart (atEnd : Cause) (cursor : Cursor) : Except Fault (List Char × Cursor) :=
  match cursor.rest with
  | [] => .error (cursor.faultHere atEnd)
  | c :: rest =>
    if c = '0' then
      if rest.head?.any Char.isDigit then .error (cursor.next.faultAhead .invalidNumber)
      else .ok ([c], cursor.next)
    else if c.isDigit then .ok cursor.digits
    else .error (cursor.faultAhead .invalidNumber)

/-- Reads a point and the digits behind it, if there is one. -/
def fractionPart (atEnd : Cause) (cursor : Cursor) :
    Except Fault (Option (List Char) × Cursor) :=
  if cursor.rest.head? == some '.' then
    let (digits, after) := cursor.next.digits
    if digits.isEmpty then
      if after.rest.isEmpty then .error (after.faultHere atEnd)
      else .error (after.faultAhead .invalidNumber)
    else .ok (some digits, after)
  else .ok (none, cursor)

/-- Reads an exponent, if there is one. -/
def exponentPart (atEnd : Cause) (cursor : Cursor) :
    Except Fault (Option (Bool × List Char) × Cursor) :=
  if cursor.rest.head? == some 'e' || cursor.rest.head? == some 'E' then
    let signed := cursor.next
    let negative := signed.rest.head? == some '-'
    let unsigned := if negative || signed.rest.head? == some '+' then signed.next else signed
    let (digits, after) := unsigned.digits
    if digits.isEmpty then
      if after.rest.isEmpty then .error (after.faultHere atEnd)
      else .error (after.faultAhead .invalidNumber)
    else .ok (some (negative, digits), after)
  else .ok (none, cursor)

/-- Reads a number that the cursor stands before; `atEnd` is the fault if the text ends in it. -/
def numeral (atEnd : Cause) (cursor : Cursor) : Except Fault (Numeral × Cursor) := do
  let negative := cursor.rest.head? == some '-'
  let cursor := if negative then cursor.next else cursor
  let (integer, cursor) ← cursor.integerPart atEnd
  let (fraction, cursor) ← cursor.fractionPart atEnd
  let (exponent, cursor) ← cursor.exponentPart atEnd
  return (⟨negative, integer, fraction, exponent⟩, cursor)

end Cursor

/-! ## Values -/

/-- The value of decimal digits. -/
def digitsValue (digits : List Char) : Nat :=
  digits.foldl (fun value c => value * 10 + (c.toNat - '0'.toNat)) 0

/-- The bound of the natural numbers of 64 bits. -/
def wordBound : Nat :=
  Nat.pow 2 64

/--
As many of the digits as 64 bits can hold after a value, as a value, with the digits that they
cannot hold.
-/
def leadingValue (value : Nat) : List Char → Nat × List Char
  | [] => (value, [])
  | c :: rest =>
    let longer := value * 10 + (c.toNat - '0'.toNat)
    if longer < wordBound then leadingValue longer rest else (value, c :: rest)

namespace Numeral

/-- The floating-point number that the number is read as, without its sign; none if too large. -/
def double? (numeral : Numeral) : Option Rat :=
  let (value, dropped) := leadingValue 0 numeral.integer
  let fraction := numeral.fraction.getD []
  let (value, ignored) := leadingValue value fraction
  let shown : Int := dropped.length - (fraction.length - ignored.length : Nat)
  let exponent : Int :=
    match numeral.exponent with
    | none => 0
    | some (true, digits) => -digitsValue digits
    | some (false, digits) => digitsValue digits
  scaledDouble? value (shown + exponent)

/-- Whether the number exceeds every finite floating-point number. -/
def isTooLarge (numeral : Numeral) : Bool :=
  numeral.double?.isNone

/-- The value of a plain natural number below the bound of 64 bits. -/
def natural? (numeral : Numeral) : Option Nat :=
  let value := digitsValue numeral.integer
  if !numeral.negative && numeral.fraction.isNone && numeral.exponent.isNone && value < wordBound
  then some value
  else none

/-- Whether the number is a negative integer of 64 bits. -/
def isNegativeInteger (numeral : Numeral) : Bool :=
  let value := digitsValue numeral.integer
  numeral.negative && numeral.fraction.isNone && numeral.exponent.isNone && value != 0 &&
    value ≤ wordBound / 2

/-- What a number is called where another kind of value is expected, with its value as read. -/
def describe (numeral : Numeral) : String :=
  let sign := if numeral.negative then "-" else ""
  let integer := String.ofList numeral.integer
  let double := (numeral.double?.map doubleText).getD ""
  if numeral.natural?.isSome || numeral.isNegativeInteger then s!"integer `{sign}{integer}`"
  else s!"floating point `{sign}{double}`"

example : describe ⟨false, ['1'], none, some (false, ['3'])⟩ = "floating point `1000.0`" := by
  decide +kernel

end Numeral

/-- Reads a number that must be in the range of floating-point numbers. -/
def Cursor.number (cursor : Cursor) : Except Fault (Numeral × Cursor) := do
  let (numeral, after) ← cursor.numeral .endOfValue
  if numeral.natural?.isNone && numeral.isTooLarge then
    throw (after.faultHere .numberOutOfRange)
  return (numeral, after)

end SiteSurvey.Json
