import SiteSurvey.Admin.Registration
import SiteSurvey.Source.Comment

/-!
# Admin modules

The models that an admin module registers, in the order of discovery and with repetitions. A module
that does not import the admin site registers none.
-/

namespace SiteSurvey.Admin

/-- The models registered in the text of an admin module, as far as patterns can be compiled. -/
def modelsWith (compiler : Compiler) (text : String) : List String :=
  let text := Source.uncommented text.toList
  match registrar? compiler text with
  | none => []
  | some name => (registered compiler name text).map String.ofList

/-- The models registered in the text of an admin module. -/
def models (text : String) : List String :=
  modelsWith .bounded text

end SiteSurvey.Admin
