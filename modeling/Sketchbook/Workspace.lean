import Sketchbook.Tab.Disk

/-!
# Workspaces

A workspace holds a disk and all tabs that have been opened, each under a number that stands for
it from then on: two tabs may have the same file and the same text and still be different ones.
It also holds the messages that have been written.
-/

namespace Sketchbook

/-- A message, with where it went. -/
structure Message where
  sink : Sink
  text : String
  deriving DecidableEq, Repr

/-- The number that stands for a tab. -/
abbrev TabId := Nat

/-- A disk, the tabs that have been opened and the messages written so far. Without a console
messages to it are dropped. -/
structure Workspace (μ : Type) where
  disk : Disk
  tabs : List (Tab μ)
  journal : List Message
  hasConsole : Bool

namespace Workspace

variable {μ : Type}

/-- The workspace in which nothing has been opened. -/
def ofDisk (d : Disk) (hasConsole : Bool) : Workspace μ :=
  ⟨d, [], [], hasConsole⟩

/-- Writes messages. -/
def tell (w : Workspace μ) (sink : Sink) (texts : List String) : Workspace μ :=
  if sink = .console ∧ w.hasConsole = false then w
  else { w with journal := w.journal ++ texts.map (Message.mk sink) }

/-- The tab with this number. -/
def tab (w : Workspace μ) (id : TabId) : Tab μ :=
  w.tabs.getD id default

/-- Puts a changed tab in the place of the one with this number. -/
def setTab (w : Workspace μ) (id : TabId) (t : Tab μ) : Workspace μ :=
  { w with tabs := w.tabs.set id t }

/-- Puts another disk in place. -/
def setDisk (w : Workspace μ) (d : Disk) : Workspace μ :=
  { w with disk := d }

/-- Takes in tabs, which get the next numbers. -/
def addTabs (w : Workspace μ) (ts : List (Tab μ)) : Workspace μ :=
  { w with tabs := w.tabs ++ ts }

/-- The numbers that the next so many tabs will get. -/
def nextIds (w : Workspace μ) (count : Nat) : List TabId :=
  List.range' w.tabs.length count

/-- Opens a tab for the file at a path. -/
def openTab (w : Workspace μ) (p : Path) (data : Option μ) (sink : Sink) :
    Except Failure TabId × Workspace μ :=
  match Tab.load w.disk p data sink with
  | .error f => (.error f, w)
  | .ok (t, texts) => (.ok w.tabs.length, (w.addTabs [t]).tell sink texts)

/-- Gives a tab another text. -/
def edit (w : Workspace μ) (id : TabId) (text : Text) : Workspace μ :=
  w.setTab id ((w.tab id).edit text)

/-- Adds text at the end of a tab. -/
def append (w : Workspace μ) (id : TabId) (text : Text) : Workspace μ :=
  w.setTab id ((w.tab id).append text)

/-- Puts data in the slot of a tab. -/
def setMetadata (w : Workspace μ) (id : TabId) (data : Option μ) : Workspace μ :=
  w.setTab id ((w.tab id).withMetadata data)

/-- Takes the steps of an operation on a tab. What they have come to when they end is what the tab,
the disk and the messages are then, be it that they have failed. -/
def carryOut {ε α : Type} (w : Workspace μ) (id : TabId) (steps : Steps μ ε α) :
    Except ε α × Workspace μ :=
  let (r, desk) := steps.run ⟨w.tab id, w.disk, []⟩
  (r, ((w.setTab id desk.tab).setDisk desk.disk).tell desk.tab.sink desk.texts)

/-- Reads the file of a tab again. -/
def reload (w : Workspace μ) (id : TabId) : Except Failure Unit × Workspace μ :=
  w.carryOut id Tab.reload

/-- Writes a tab to its file. -/
def save (room : Room) (w : Workspace μ) (id : TabId) : Except WriteFailure Unit × Workspace μ :=
  w.carryOut id (Tab.save room)

/-- Writes a tab to another file. -/
def saveAs (room : Room) (w : Workspace μ) (id : TabId) (p : Path) :
    Except WriteFailure Unit × Workspace μ :=
  w.carryOut id (Tab.saveAs room p)

/-- Renames the file of a tab. Tells whether the disk let it. -/
def rename (w : Workspace μ) (id : TabId) (p : Path) : Except Failure Bool × Workspace μ :=
  w.carryOut id (Tab.rename p)

/-- Deletes the file of a tab and what was compiled from it into the folders. -/
def delete (o : ListingOrder) (w : Workspace μ) (id : TabId) (folders : List Path) :
    Except Failure Bool × Workspace μ :=
  let r := (w.tab id).delete o w.disk folders
  (r.1, w.setDisk r.2)

end Workspace

end Sketchbook
