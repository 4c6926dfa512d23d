import SiteSurvey.Glob.Match

/-!
# Ignored directories

The names of directories that a walk does not enter: a fixed list and the names that some pattern
matches.
-/

namespace SiteSurvey

structure IgnoreSet where
  patterns : List Glob.Pattern := []
  deriving DecidableEq, Repr

namespace IgnoreSet

/-- The names that are always ignored. -/
def builtin : List String :=
  [".git", ".hg", ".svn", ".idea", ".vscode", "__pycache__", "node_modules", "venv", ".venv", "env",
   ".env", ".tox", ".mypy_cache", ".pytest_cache", "build", "dist", "static", "staticfiles",
   "media", "templates", "migrations", "tests"]

/-- The fixed list extended by patterns, or the fault of the first faulty one. -/
def ofPatterns (patterns : List String) : Except Glob.Fault IgnoreSet :=
  (Glob.Pattern.readAll patterns).map fun patterns => ⟨patterns⟩

def ignores (set : IgnoreSet) (name : String) : Bool :=
  builtin.contains name || set.patterns.any (·.accepts name)

/-- More patterns ignore more. -/
theorem ignores_mono {first second : IgnoreSet} (h : first.patterns ⊆ second.patterns)
    {name : String} (hname : first.ignores name) : second.ignores name := by
  rw [ignores, Bool.or_eq_true, List.any_eq_true] at hname ⊢
  exact hname.imp_right fun ⟨pattern, hpattern, haccepts⟩ => ⟨pattern, h hpattern, haccepts⟩

end IgnoreSet

end SiteSurvey
