import Sketchbook.FileName.Extension
import Sketchbook.Path
import Sketchbook.Text.Lines
import Sketchbook.Text.Utf8

/-!
# Tabs

A tab is the text of one file as it stands in memory, with the path of the file and a mark that
is set when the text has been edited since it was last read or written. It also has a slot for
whatever its owner wants to keep with it, which is never looked at here.
-/

namespace Sketchbook

/-- Where the messages of a tab or a set of tabs go. -/
inductive Sink
  /-- They are kept. -/
  | memory
  /-- They are written to the console. -/
  | console
  deriving DecidableEq, Repr

/-- A tab, with a slot for data of the type `μ`. -/
structure Tab (μ : Type) where
  path : Path
  text : Text
  dirty : Bool
  metadata : Option μ
  sink : Sink
  deriving DecidableEq

namespace Tab

variable {μ : Type}

instance : Inhabited (Tab μ) :=
  ⟨⟨⟨.root, []⟩, "", false, none, .memory⟩⟩

/-- The name of the file of the tab. -/
def filename (t : Tab μ) : String :=
  t.path.name

/-- The name of the file without its extension. -/
def prettyName (t : Tab μ) : String :=
  stem t.filename

/-- The name shown on the tab: the extension of the main kind is left out. -/
def displayName (t : Tab μ) : String :=
  if (".ino".toList).isSuffixOf t.filename.toList then t.prettyName else t.filename

/-- The tab as it is described to a programmer. -/
def describe (t : Tab μ) : String :=
  "FileUnit(" ++ t.filename ++ (if t.dirty then "*" else "") ++ ")"

/-- The name of the file, marked if the tab has been edited. -/
def markedName (t : Tab μ) : String :=
  t.filename ++ (if t.dirty then "*" else "")

/-- The text as it can be shown. -/
def content (t : Tab μ) : String :=
  t.text.shown

/-- The number of line breaks in the text. -/
def lines (t : Tab μ) : Nat :=
  lineBreaks t.text

/-- The tab with another text. Any new text counts as an edit, even the same one. -/
def edit (t : Tab μ) (text : Text) : Tab μ :=
  { t with text := text, dirty := true }

/-- The tab with text added at the end. -/
def append (t : Tab μ) (text : Text) : Tab μ :=
  t.edit (t.text ++ text)

/-- The tab with other data in its slot. -/
def withMetadata (t : Tab μ) (data : Option μ) : Tab μ :=
  { t with metadata := data }

/-- Whether a text was read from bytes that could not all be read, or might have been. -/
def isDamaged (text : String) : Bool :=
  text.toList.contains Utf8.replacement

/-- The message about a file whose bytes could not all be read. -/
def damageWarning (filename : String) : String :=
  "\"" ++ filename ++ "\" contains unrecognized characters. " ++
    "If this code was created with an older version of Arduino, " ++
    "you may need to use Tools -> Fix Encoding & Reload to update " ++
    "the sketch to use UTF-8 encoding. If not, you may need to " ++
    "delete the bad characters to get rid of this warning."

/-- The message about a file that could not be read at all. -/
def unreadableWarning (filename : String) : String :=
  "Error while loading code " ++ filename

end Tab

end Sketchbook
