import SiteSurvey.Proofs.Survey.Models
import SiteSurvey.Proofs.Survey.Routes

/-!
# The project at a root

What is found from a project root on, by key: the models of an app are those of its admin modules,
and the routes of a namespace those of the last route file that declares it.
-/

namespace SiteSurvey.Survey

variable (view : FileView) (options : Options) (root : Path)

/-- The project that is found from its root on. -/
def projectAt : Project :=
  Project.ofFindings root (findAll view (appEvents view options root))

theorem ofPath_projects_of_root? {path : Path} (h : root? view options path = some root) :
    (ofPath view options path).projects = [projectAt view options root] := by
  rw [ofPath_projects, h]
  rfl

theorem get?_models_projectAt (app : String) :
    (projectAt view options root).models.get? app =
      if modelsOf (allAdminTexts view options root) app = [] then none
      else some (modelsOf (allAdminTexts view options root) app) := by
  rw [projectAt, Project.ofFindings, findAll_models_eq]
  dsimp only
  rw [ModelTable.get?_ofModules, contributed_entries]

theorem keys_routes_projectAt :
    (projectAt view options root).routes.keys =
      ((routeTexts view options root).map RouteText.space).eraseDups := by
  rw [projectAt, Project.ofFindings, findAll_routeFiles_eq]
  exact keys_routeTable _

theorem get?_routes_projectAt (space : Route.Namespace) :
    (projectAt view options root).routes.get? space =
      ((routeTexts view options root).filter (·.space = space)).getLast?.map
        (·.routes space) := by
  rw [projectAt, Project.ofFindings, findAll_routeFiles_eq]
  exact get?_routeTable _ space

end SiteSurvey.Survey
