/-!
# Floating-point numbers

Numbers without a sign as binary floating-point numbers of 64 bits: the nearest one to a number, the
one that a scaled integer is read as, and its text, which has the fewest digits that are read as it.
-/

namespace SiteSurvey.Json

/-! ## Rounding -/

/-- The natural number nearest to a number, the even one of two. -/
def nearest (x : Rat) : Nat :=
  let below := x.floor.toNat
  let rest := x - below
  if 1 / 2 < rest || (rest == 1 / 2 && below % 2 == 1) then below + 1 else below

/-- The exponent of the greatest power of two that is not above a positive number. -/
def binaryExponent (x : Rat) : Int :=
  let guess : Int := x.num.natAbs.log2 - x.den.log2
  if (2 : Rat) ^ guess ≤ x then guess else guess - 1

/-- The nearest number of 53 binary digits, fewer near zero, with no bound above. -/
def roundToDouble (x : Rat) : Rat :=
  let unit : Rat := 2 ^ max (binaryExponent x - 52) (-1074)
  nearest (x / unit) * unit

/-! ## Scaling -/

/-- The largest exponent of a power of ten that is used in one step. -/
def tenBound : Nat :=
  308

/-- A power of ten as a floating-point number. -/
def tens (exponent : Nat) : Rat :=
  roundToDouble (10 ^ exponent)

/-- Divides by a power of ten, in steps where the power is too large. -/
def overTens (x : Rat) (exponent : Nat) : Rat :=
  if exponent ≤ tenBound then roundToDouble (x / tens exponent)
  else if x = 0 then 0
  else overTens (roundToDouble (x / tens tenBound)) (exponent - tenBound)
termination_by exponent
decreasing_by simp only [tenBound] at *; omega

/-- The least power of two that is too large. -/
def doubleBound : Nat :=
  Nat.pow 2 1024

/-- The floating-point number that `value * 10 ^ scale` is read as; none if it is too large. -/
def scaledDouble? (value : Nat) (scale : Int) : Option Rat :=
  if value = 0 then some 0
  else if scale < 0 then some (overTens (roundToDouble value) (-scale).toNat)
  else if tenBound < scale then none
  else
    let scaled := roundToDouble (roundToDouble value * tens scale.toNat)
    if scaled < doubleBound then some scaled else none

/-! ## Texts -/

/-- The exponent of the greatest power of ten that is not above a positive number. -/
def decimalExponent (x : Rat) : Int :=
  if 1 ≤ x then (Nat.toDigits 10 x.floor.toNat).length - 1
  else -(Nat.toDigits 10 (x⁻¹.ceil.toNat - 1)).length

/-- The number of `count` digits nearest to a floating-point number of those read as it, if any. -/
def decimalOf? (x : Rat) (count : Nat) : Option (Nat × Int) :=
  let place := decimalExponent x + 1 - count
  let unit : Rat := 10 ^ place
  let below := (x / unit).floor.toNat
  ([nearest (x / unit), below, below + 1].find? fun (n : Nat) => roundToDouble (n * unit) == x).map
    fun n => (n, place)

/-- The shortest number read as a floating-point number; 17 digits are always enough. -/
def shortestDecimal (x : Rat) : Nat × Int :=
  ((List.range 17).findSome? fun count => decimalOf? x (count + 1)).getD (0, 0)

/-- The text of digits whose last one counts a power of ten. -/
def decimalText (digits : List Char) (place : Int) : String :=
  let point := digits.length + place
  let zeros (count : Int) := List.replicate count.toNat '0'
  if 0 < point && point ≤ 16 then
    let whole := digits.take point.toNat ++ zeros place
    let rest := digits.drop point.toNat
    String.ofList (whole ++ '.' :: (if rest.isEmpty then ['0'] else rest))
  else if -5 < point && point ≤ 0 then String.ofList ('0' :: '.' :: zeros (-point) ++ digits)
  else
    let rest := if digits.length ≤ 1 then [] else '.' :: digits.drop 1
    let sign := if point ≤ 0 then "" else "+"
    String.ofList (digits.take 1 ++ rest) ++ s!"e{sign}{point - 1}"

def doubleText (x : Rat) : String :=
  if x = 0 then "0.0"
  else
    let (n, place) := shortestDecimal x
    let digits := (Nat.toDigits 10 n).reverse
    let shown := digits.dropWhile (· == '0')
    decimalText shown.reverse (place + (digits.length - shown.length : Nat))

end SiteSurvey.Json
