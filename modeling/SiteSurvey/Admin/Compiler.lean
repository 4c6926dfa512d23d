/-!
# Compiled patterns

Rebindings and registrations are looked for by patterns that hold a name of the text. A pattern is
compiled first, and one that grows too large is refused, so nothing is found under a name that is
too long.
-/

namespace SiteSurvey.Admin

/-- Which names the patterns around them can be compiled for. -/
structure Compiler where
  /-- The pattern of a line that sets a variable to the name. -/
  rebinding : List Char → Bool
  /-- The patterns of decorators and calls under the name. -/
  registration : List Char → Bool

namespace Compiler

/-- The most bytes of a compiled pattern. -/
def programBound : Nat :=
  10485760

/-- About how many bytes of a compiled pattern are not due to the name in it. -/
def programFrame : Nat :=
  51200

/-- The bytes of a compiled pattern for a name in it, 32 for each byte of the name. -/
def nameProgram (name : List Char) : Nat :=
  32 * (name.map Char.utf8Size).foldr (· + ·) 0

def isShort (name : List Char) : Bool :=
  programFrame + nameProgram name ≤ programBound

/-- The compiler that refuses patterns beyond the bound. -/
def bounded : Compiler :=
  ⟨isShort, isShort⟩

end Compiler

end SiteSurvey.Admin
