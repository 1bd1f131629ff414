import Sketchbook.TabSet.Disk

/-!
# Sessions

A session is a workspace together with the sets of tabs that have been made in it. What is done
in a session is a sequence of operations; each gives a reply or a failure, and the session as it
is afterwards. The main definition is `Session.performUnder`.
-/

namespace Sketchbook

/-- The number that stands for a set of tabs. -/
abbrev SetId := Nat

/-- A workspace and the sets of tabs in it. -/
structure Session (μ : Type) where
  workspace : Workspace μ
  sets : List TabSet

/-- What can be done in a session. -/
inductive Operation (μ : Type)
  /-- Open a tab for a file. -/
  | openTab (path : Path) (data : Option μ) (sink : Sink)
  /-- Give a tab another text. -/
  | edit (tab : TabId) (text : Text)
  /-- Add text at the end of a tab. -/
  | append (tab : TabId) (text : Text)
  /-- Put data in the slot of a tab. -/
  | setMetadata (tab : TabId) (data : Option μ)
  /-- Read the file of a tab again. -/
  | reload (tab : TabId)
  /-- Write a tab to its file. -/
  | save (tab : TabId)
  /-- Write a tab to another file. -/
  | saveAs (tab : TabId) (path : Path)
  /-- Rename the file of a tab. -/
  | rename (tab : TabId) (path : Path)
  /-- Delete the file of a tab and what was compiled from it. -/
  | delete (tab : TabId) (folders : List Path)
  /-- Make a set for the sketch with a main file. -/
  | makeSet (primary : Path) (sink : Sink) (accepts : Option String → Bool)
  /-- Build a set anew from its folder. -/
  | load (set : SetId)
  /-- Save the tabs of a set that have been edited. -/
  | saveAll (set : SetId)
  /-- Put a set in order. -/
  | sort (set : SetId)
  /-- Take all tabs out of a set. -/
  | clear (set : SetId)
  /-- Add a tab to a set. -/
  | add (set : SetId) (tab : TabId)
  /-- Move a tab to the front of a set. -/
  | moveToFront (set : SetId) (tab : TabId)
  /-- Put a tab in the position of the one with its name. -/
  | replace (set : SetId) (tab : TabId)
  /-- Take a tab out of a set. -/
  | remove (set : SetId) (tab : TabId)

/-- What an operation replies. -/
inductive Reply
  /-- It is done. -/
  | done
  /-- Whether it was done. -/
  | flag (b : Bool)
  /-- The tab that was opened. -/
  | tab (id : TabId)
  /-- The set that was made. -/
  | set (id : SetId)
  /-- A file was opened for writing, and did not get the whole text. -/
  | brokenOff (b : Breakage)
  deriving DecidableEq, Repr

/-- What is replied once a text was to be written. -/
def Reply.ofWrite : Except WriteFailure Unit → Except Failure Reply
  | .ok () => .ok .done
  | .error (.refused f) => .error f
  | .error (.brokenOff b) => .ok (.brokenOff b)

namespace Session

variable {μ : Type}

/-- The session in which nothing has been done. -/
def ofDisk (d : Disk) (hasConsole : Bool) : Session μ :=
  ⟨.ofDisk d hasConsole, []⟩

/-- The set with this number. -/
def set? (s : Session μ) (id : SetId) : Option TabSet :=
  s.sets[id]?

/-- The session with another workspace. -/
def withWorkspace (s : Session μ) (w : Workspace μ) : Session μ :=
  { s with workspace := w }

/-- Puts a changed set in the place of the one with this number. -/
def setSet (s : Session μ) (id : SetId) (t : TabSet) : Session μ :=
  { s with sets := s.sets.set id t }

/-- Takes in the outcome of an operation on the workspace. -/
def settle {ε α : Type} (s : Session μ) (reply : Except ε α → Except Failure Reply)
    (r : Except ε α × Workspace μ) : Except Failure Reply × Session μ :=
  (reply r.1, s.withWorkspace r.2)

/-- Changes a set; where there is none with the number nothing is done. -/
def updateSet (s : Session μ) (id : SetId)
    (f : TabSet → Except Failure Reply × TabSet × Workspace μ) :
    Except Failure Reply × Session μ :=
  match s.set? id with
  | none => (.ok .done, s)
  | some t =>
    let r := f t
    (r.1, (s.setSet id r.2.1).withWorkspace r.2.2)

/-- Performs an operation under a host. -/
def performUnder (h : Host) (s : Session μ) : Operation μ → Except Failure Reply × Session μ
  | .openTab p data sink => s.settle (·.map .tab) (s.workspace.openTab p data sink)
  | .edit id text => (.ok .done, s.withWorkspace (s.workspace.edit id text))
  | .append id text => (.ok .done, s.withWorkspace (s.workspace.append id text))
  | .setMetadata id data => (.ok .done, s.withWorkspace (s.workspace.setMetadata id data))
  | .reload id => s.settle (·.map fun _ => .done) (s.workspace.reload id)
  | .save id => s.settle Reply.ofWrite (s.workspace.save h.room id)
  | .saveAs id p => s.settle Reply.ofWrite (s.workspace.saveAs h.room id p)
  | .rename id p => s.settle (·.map .flag) (s.workspace.rename id p)
  | .delete id folders => s.settle (·.map .flag) (s.workspace.delete h.order id folders)
  | .makeSet p sink accepts =>
    match TabSet.ofPrimary s.workspace.disk p sink accepts with
    | .error f => (.error f, s)
    | .ok t => (.ok (.set s.sets.length), { s with sets := s.sets ++ [t] })
  | .load id => s.updateSet id fun t =>
      let r := t.loadIn h.order s.workspace
      (r.1.map fun _ => .done, r.2)
  | .saveAll id => s.updateSet id fun t =>
      let r := t.save h.room s.workspace
      (Reply.ofWrite r.1, t, r.2)
  | .sort id => s.updateSet id fun t => (.ok .done, t.sort s.workspace, s.workspace)
  | .clear id => s.updateSet id fun t => (.ok .done, t.clear, s.workspace)
  | .add id tab => s.updateSet id fun t => (.ok .done, t.add tab, s.workspace)
  | .moveToFront id tab => s.updateSet id fun t => (.ok .done, t.moveToFront tab, s.workspace)
  | .replace id tab => s.updateSet id fun t => (.ok .done, t.replace s.workspace tab, s.workspace)
  | .remove id tab => s.updateSet id fun t => (.ok .done, t.remove s.workspace tab)

/-- Performs an operation under the plain host. -/
def perform (s : Session μ) (op : Operation μ) : Except Failure Reply × Session μ :=
  s.performUnder .plain op

/-- Performs operations one after the other, whatever comes of each. The host may be another one
each time. -/
def performAll (s : Session μ) : List (Host × Operation μ) → Session μ
  | [] => s
  | (h, op) :: ops => (s.performUnder h op).2.performAll ops

/-- Whether a message that was kept mentions the text. -/
def mentions (s : Session μ) (text : String) : Bool :=
  s.workspace.journal.any fun m => m.sink == .memory && occursIn text.toList m.text.toList

end Session

end Sketchbook
