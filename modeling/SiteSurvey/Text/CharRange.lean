/-!
# Ranges of characters

A class of characters is given as a list of closed ranges of code points in increasing order.
-/

namespace SiteSurvey.Text

/-- Closed ranges of code points, in increasing order. -/
abbrev CharRanges := List (Nat × Nat)

/-- Whether a code point lies in one of the ranges; the search ends at the first range above it. -/
def CharRanges.hasCode : CharRanges → Nat → Bool
  | [], _ => false
  | (low, high) :: later, n => if n < low then false else n ≤ high || hasCode later n

/-- Whether a character lies in one of the ranges. -/
def CharRanges.has (ranges : CharRanges) (c : Char) : Bool :=
  ranges.hasCode c.toNat

end SiteSurvey.Text
