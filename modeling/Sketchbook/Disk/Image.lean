import Sketchbook.Disk.Arrange
import Sketchbook.Text.Utf8

/-!
# Disk images

A disk written down as lines of text, one for each entry, with the fields of a line kept apart by
tabs. A line begins with the kind of the entry, `folder`, `file` or `link`, and goes on with its
path and with the text of a file or the target of a link. A line of the kind `access` gives the
file or folder at its path the permissions in its letters, and one of the kind `here` names the
current folder. In the text of a file line breaks, tabs and backslashes are written `\n`, `\t`
and `\\`. Lines of another form are passed over.
-/

namespace Sketchbook

/-- A text with its escapes replaced by what they stand for. -/
def unescape : List Char → List Char
  | '\\' :: 'n' :: cs => '\n' :: unescape cs
  | '\\' :: 't' :: cs => '\t' :: unescape cs
  | '\\' :: '\\' :: cs => '\\' :: unescape cs
  | c :: cs => c :: unescape cs
  | [] => []

/-- The access that the letters `r`, `w` and `x` allow. -/
def Access.ofLetters (letters : String) : Access :=
  ⟨letters.toList.contains 'r', letters.toList.contains 'w', letters.toList.contains 'x'⟩

namespace Disk

/-- The disk with one more entry, as a line describes it. -/
def addLine (d : Disk) (line : String) : Disk :=
  match (splitAtEach '\t' line.toList).map String.ofList with
  | ["folder", p] => d.placeFolder [] (Path.ofString p).parts
  | ["file", p, text] =>
    d.placeFile [] (Path.ofString p).parts (Utf8.encodeChars (unescape text.toList))
  | ["link", p, target] => d.placeLink [] (Path.ofString p).parts target
  | ["access", p, letters] => d.permit [] (Path.ofString p).parts (Access.ofLetters letters)
  | ["here", p] =>
    let (d, place) := d.makeFolders [] (Path.ofString p).parts
    { d with cwd := place }
  | _ => d

/-- The disk that the lines describe. -/
def ofImage (lines : List String) : Disk :=
  lines.foldl addLine (blank [])

end Disk

end Sketchbook
