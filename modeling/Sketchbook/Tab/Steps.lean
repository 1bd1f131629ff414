import Sketchbook.Disk.Change
import Sketchbook.Disk.Host
import Sketchbook.Failure
import Sketchbook.Tab.Basic

/-!
# Operations on a tab, step by step

An operation on a tab is a sequence of steps. They work on a desk, on which lie the tab, the disk
and the messages about the tab. A step that fails ends the operation, and what the steps before it
have done to the desk stays done: `Steps.run` gives the desk as it is in the end, be it that the
operation has failed.
-/

namespace Sketchbook

/-- A tab that is worked on, the disk, and the messages about the tab so far. -/
structure Desk (μ : Type) where
  tab : Tab μ
  disk : Disk
  texts : List String

/-- Steps that give a value of the type `α`, or fail with one of the type `ε`. -/
abbrev Steps (μ ε α : Type) : Type :=
  ExceptT ε (StateM (Desk μ)) α

namespace Steps

variable {μ ε α β : Type}

/-- Takes the steps at a desk. -/
def run (steps : Steps μ ε α) (desk : Desk μ) : Except ε α × Desk μ :=
  StateT.run (ExceptT.run steps) desk

/-- The tab on the desk. -/
def tab : Steps μ ε (Tab μ) := do
  return (← get).tab

/-- The disk on the desk. -/
def disk : Steps μ ε Disk := do
  return (← get).disk

/-- Changes the tab. -/
def setTab (f : Tab μ → Tab μ) : Steps μ ε Unit :=
  modify fun desk => { desk with tab := f desk.tab }

/-- Puts another disk in place. -/
def setDisk (d : Disk) : Steps μ ε Unit :=
  modify fun desk => { desk with disk := d }

/-- Writes a message. -/
def tell (text : String) : Steps μ ε Unit :=
  modify fun desk => { desk with texts := desk.texts ++ [text] }

/-- Gives a result that has been computed, or fails with it. -/
def given (r : Except ε α) : Steps μ ε α :=
  match r with
  | .ok a => return a
  | .error e => throw e

/-- Opens the file at a path for writing, which empties or makes it, and gives its place. -/
def openEmptied (p : Path) : Steps μ WriteFailure Place := do
  match (← disk).openEmptied p with
  | .error e => throw (.refused (.disk e p))
  | .ok (place, d) =>
    setDisk d
    return place

/-- Writes a text to the file at a place, which has been opened. -/
def write (room : Room) (text : Text) (place : Place) : Steps μ WriteFailure Unit := do
  match text.encode with
  | .error s => throw (.brokenOff (.unencodable s))
  | .ok bytes =>
    let d ← disk
    let count := room d place bytes
    setDisk (d.fill place (bytes.take count))
    if count < bytes.length then throw (.brokenOff .noRoom)

/-- Writes a text to the file at a path. -/
def saveText (room : Room) (text : Text) (p : Path) : Steps μ WriteFailure Unit := do
  let place ← openEmptied p
  write room text place

@[simp] theorem run_bind (steps : Steps μ ε α) (next : α → Steps μ ε β) (desk : Desk μ) :
    (steps >>= next).run desk = match steps.run desk with
      | (.ok a, desk) => (next a).run desk
      | (.error e, desk) => (.error e, desk) := by
  unfold run
  rw [ExceptT.run_bind, StateT.run_bind]
  generalize StateT.run (ExceptT.run steps) desk = r
  obtain ⟨_ | _, _⟩ := r <;> rfl

@[simp] theorem run_pure (a : α) (desk : Desk μ) :
    (pure a : Steps μ ε α).run desk = (.ok a, desk) := rfl

@[simp] theorem run_throw (e : ε) (desk : Desk μ) :
    (throw e : Steps μ ε α).run desk = (.error e, desk) := rfl

@[simp] theorem run_tab (desk : Desk μ) :
    (tab : Steps μ ε (Tab μ)).run desk = (.ok desk.tab, desk) := rfl

@[simp] theorem run_disk (desk : Desk μ) :
    (disk : Steps μ ε Disk).run desk = (.ok desk.disk, desk) := rfl

@[simp] theorem run_setTab (f : Tab μ → Tab μ) (desk : Desk μ) :
    (setTab f : Steps μ ε Unit).run desk = (.ok (), { desk with tab := f desk.tab }) := rfl

@[simp] theorem run_setDisk (d : Disk) (desk : Desk μ) :
    (setDisk d : Steps μ ε Unit).run desk = (.ok (), { desk with disk := d }) := rfl

@[simp] theorem run_tell (text : String) (desk : Desk μ) :
    (tell text : Steps μ ε Unit).run desk =
      (.ok (), { desk with texts := desk.texts ++ [text] }) := rfl

@[simp] theorem run_given (r : Except ε α) (desk : Desk μ) :
    (given r : Steps μ ε α).run desk = (r, desk) := by
  cases r <;> rfl

end Steps

end Sketchbook
