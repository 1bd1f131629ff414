/-!
# Help

What the command says about its own use.
-/

namespace Sketchbook

/-- The name of the command. -/
def commandName : String := "sketchtabs"

/-- The line that shows how the command is called. -/
def usageLine : String :=
  "usage: " ++ commandName ++ " [-h] [-b BUILD_PATH] [-r OLD NEW] [-d TAB] [-y] [sketch]"

/-- The lines of the help text. -/
def helpLines : List String := [
  usageLine,
  "",
  "Inspect and manage the tabs (source files) of an Arduino-style sketch.",
  "",
  "positional arguments:",
  "  sketch                Sketch folder or its main .ino/.pde file",
  "",
  "options:",
  "  -h, --help            show this help message and exit",
  "  -b BUILD_PATH, --build-path BUILD_PATH",
  "                        Build folder whose artifacts are removed along with a",
  "                        deleted tab",
  "  -r OLD NEW, --rename OLD NEW",
  "                        Rename a tab",
  "  -d TAB, --delete TAB  Delete a tab and its build artifacts",
  "  -y, --yes             Skip confirmation"]

end Sketchbook
