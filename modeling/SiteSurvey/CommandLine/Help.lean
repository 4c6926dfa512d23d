/-!
# Texts about the program

The help, which is written when no command is given, names the commands and the options.
-/

namespace SiteSurvey.CommandLine

def helpLines : List String :=
  ["A fast CLI tool for mining routes and admin models from Django projects",
   "",
   "Usage: routescout [COMMAND]",
   "",
   "Commands:",
   "  scan  Find Django projects and list their routes and registered admin models",
   "  init  Initialize a new .routescoutrc.json configuration file",
   "  help  Print this message or the help of the given subcommand(s)",
   "",
   "Options:",
   "  -h, --help     Print help",
   "  -V, --version  Print version"]

/-- The lines of the help, each with its newline. -/
def helpText : String :=
  String.join (helpLines.map (· ++ "\n"))

def versionText : String :=
  "routescout 0.1.0\n"

end SiteSurvey.CommandLine
