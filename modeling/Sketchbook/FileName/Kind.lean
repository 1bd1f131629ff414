/-!
# Kinds of files

The names that a sketch folder gives a meaning to: the extensions of its tabs, its fixed
subfolders, and the longest name a tab may bear.
-/

namespace Sketchbook

/-- The extensions of a main file. -/
def sketchExtensions : List String := ["ino", "pde"]

/-- The extensions of the tabs beside the main file. -/
def auxiliaryExtensions : List String := ["c", "cpp", "h", "hh", "hpp", "s"]

/-- The extensions of all tabs. -/
def sourceExtensions : List String := sketchExtensions ++ auxiliaryExtensions

/-- The extension of a tab that is given none. -/
def defaultExtension : String := "ino"

/-- The folder inside the build folder that holds compiled files as well. -/
def buildSubfolder : String := "sketch"

/-- The folder of a sketch for compiled code. -/
def codeFolderName : String := "code"

/-- The folder of a sketch for its data. -/
def dataFolderName : String := "data"

/-- The greatest number of characters in the name of a tab, its extension left out. -/
def maxNameLength : Nat := 63

end Sketchbook
