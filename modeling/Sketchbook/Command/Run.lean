import Sketchbook.Command.Arguments
import Sketchbook.Command.Help
import Sketchbook.Disk.Resolve
import Sketchbook.TabSet.Action
import Sketchbook.TabSet.Disk
import Sketchbook.TabSet.Report
import Sketchbook.Text.Blank

/-!
# Running the command

A run of the command as a function: from a disk, the arguments and what is typed to what is
written, how the run ends and the disk that it leaves. The sketch is looked up and loaded, a tab
is renamed and one deleted if that is asked for, and the tabs are shown. The main definition is
`Command.runIn`, for any order in which the disk lists names.
-/

namespace Sketchbook.Command

/-- What is typed when the command asks for confirmation. -/
inductive Typed
  /-- The lines that can be read. -/
  | text (s : String)
  /-- The run is interrupted. -/
  | interrupt
  /-- The input has been closed, and no line can be asked for. -/
  | closed
  deriving DecidableEq, Repr

/-- How a run ends. -/
inductive Ending
  /-- With an exit status. -/
  | exit (status : Nat)
  /-- No line could be read where one was wanted: nothing was typed, or the input was closed. -/
  | endOfInput {closed : Bool}
  /-- The sketch or the build folder lies in a loop of links. -/
  | linkLoop (p : Path)
  deriving DecidableEq, Repr

/-- The text an ending is reported with where it is more than an exit status. -/
def Ending.message : Ending → String
  | .exit _ => ""
  | @endOfInput closed => if closed then "input(): lost sys.stdin" else "EOF when reading a line"
  | .linkLoop p => "Symlink loop from " ++ quoted p.toString

/-- What is left of a run: how it ended, what it wrote to its two outputs, and the disk. -/
structure Outcome where
  ending : Ending
  out : String
  err : String
  disk : Disk
  deriving DecidableEq, Repr

/-- A run on a sketch while it is under way. -/
structure Progress where
  set : TabSet
  workspace : Workspace Unit
  out : String

namespace Progress

/-- Writes a line. -/
def print (p : Progress) (line : String) : Progress :=
  { p with out := p.out ++ line ++ "\n" }

/-- Writes a text as it is. -/
def write (p : Progress) (text : String) : Progress :=
  { p with out := p.out ++ text }

/-- Reports an error. -/
def report (p : Progress) (text : String) : Progress :=
  { p with workspace := p.workspace.tell .console ["Error: " ++ text] }

/-- What has been written to the console. -/
def err (p : Progress) : String :=
  TabSet.asText ((p.workspace.journal.filter (·.sink == .console)).map (·.text))

/-- The outcome of a run that ends here. -/
def finish (p : Progress) (e : Ending) : Outcome :=
  ⟨e, p.out, p.err, p.workspace.disk⟩

/-- The outcome of a run that fails here. -/
def fail (p : Progress) (f : Failure) : Outcome :=
  (p.report f.message).finish (.exit 1)

end Progress

/-- How an action of a run comes out: the run goes on, and the action succeeded or was refused,
or the run ends. -/
inductive Turn
  | goOn (ok : Bool) (p : Progress)
  | stop (o : Outcome)

/-- The outcome of a run that fails before a sketch has been found. -/
def earlyFailure (d : Disk) (text : String) : Outcome :=
  ⟨.exit 1, "", "Error: " ++ text ++ "\n", d⟩

/-- The outcome of a run for whose path there is no way to resolve it. -/
def unresolved (d : Disk) : ResolveFault → Outcome
  | .loop p => ⟨.linkLoop p, "", "", d⟩
  | .nul => earlyFailure d Fault.nulInPath.message
  | .noCurrentFolder => earlyFailure d Failure.noCurrentFolder.message

/-- The first line of a text. -/
def firstLine (cs : List Char) : List Char :=
  cs.takeWhile (· != '\n')

/-- Whether a line that was typed confirms. -/
def confirms (s : String) : Bool :=
  lowerChars (trim (firstLine s.toList)) == ['y']

/-- Renames a tab. -/
def renameStep (p : Progress) (old new : String) : Turn :=
  let r := p.set.renameTab p.workspace old new
  let p : Progress := { p with set := r.2.1, workspace := r.2.2 }
  match r.1 with
  | .error f => .stop (p.fail f)
  | .ok (.error refusal) => .goOn false (p.report refusal.message)
  | .ok (.ok ()) => .goOn true (p.print ("Renamed: " ++ old ++ " -> " ++ new))

/-- Deletes a tab, once this has been confirmed. -/
def deleteConfirmed (o : ListingOrder) (p : Progress) (id : TabId) (name : String)
    (build : Option Path) : Turn :=
  let r := p.set.deleteMember o p.workspace id name build
  let p : Progress := { p with set := r.set, workspace := r.workspace }
  let p := match r.refusal with
    | some refusal => p.report refusal.message
    | none => p
  match r.failure with
  | some f => .stop (p.fail f)
  | none => if r.refusal.isNone then .goOn true (p.print ("Deleted: " ++ name)) else .goOn false p

/-- Deletes a tab, after asking unless this has been confirmed beforehand. -/
def deleteStep (o : ListingOrder) (p : Progress) (name : String) (build : Option Path)
    (yes : Bool) (typed : Typed) : Turn :=
  match p.set.deletable p.workspace name with
  | .error r => .goOn false (p.report r.message)
  | .ok id =>
    if yes then deleteConfirmed o p id name build
    else
      let asked := p.write ("> Delete '" ++ name ++ "'? (y/N): ")
      match typed with
      | .closed => .stop (p.finish (@Ending.endOfInput true))
      | .interrupt => .stop ((asked.write "\nCancelled.\n").finish (.exit 1))
      | .text s =>
        if s.isEmpty then .stop (asked.finish (@Ending.endOfInput false))
        else if confirms s then deleteConfirmed o asked id name build
        else .goOn true (asked.print "Skipped.")

/-- Shows the tabs and ends the run. -/
def showTabs (p : Progress) (ok : Bool) : Outcome :=
  (p.write (p.set.table p.workspace)).finish (.exit (if ok then 0 else 1))

/-- Goes on with a run after an action. -/
def Turn.andThen (s : Turn) (next : Bool → Progress → Outcome) : Outcome :=
  match s with
  | .goOn ok p => next ok p
  | .stop o => o

/-- The actions that are asked for on a sketch that has been loaded. -/
def act (o : ListingOrder) (p : Progress) (request : Request) (build : Option Path)
    (typed : Typed) : Outcome :=
  let renamed : Turn := match request.rename with
    | some (old, new) => renameStep p old new
    | none => .goOn true p
  renamed.andThen fun ok p =>
    let deleted : Turn := match request.delete with
      | some name =>
        if name.isEmpty then .goOn true p else deleteStep o p name build request.yes typed
      | none => .goOn true p
    deleted.andThen fun ok₂ p => showTabs p (ok && ok₂)

/-- The lines about the sketch that has been found. -/
def header (primary : Path) : String :=
  TabSet.asText ["--- " ++ commandName ++ " ---", "Sketch: " ++ primary.parent.toString,
    "Main:   " ++ primary.name]

/-- Loads the sketch with this main file and works on it. -/
def workOn (o : ListingOrder) (d : Disk) (primary : Path) (request : Request)
    (build : Option Path) (typed : Typed) : Outcome :=
  let w : Workspace Unit := .ofDisk d true
  match TabSet.ofPrimary d primary .console acceptsSanitary with
  | .error f => { earlyFailure d f.message with out := header primary }
  | .ok s =>
    match s.loadIn o w with
    | (.error f, s, w) => (⟨s, w, header primary⟩ : Progress).fail f
    | (.ok (), s, w) => act o ⟨s, w, header primary⟩ request build typed

/-- The build folder that is asked for, resolved. An empty path asks for none. -/
def resolveBuild (d : Disk) (request : Request) : Except ResolveFault (Option Path) :=
  match request.build with
  | none => .ok none
  | some b => if b.isEmpty then .ok none else (d.resolve (Path.ofString b)).map some

/-- The sketch that is asked for, as a text: the current folder if none is named. -/
def sketchText (d : Disk) (request : Request) : String :=
  request.sketch.getD (Path.toString ⟨.root, d.cwd⟩)

/-- Finds the sketch that is asked for and works on it. -/
def work (o : ListingOrder) (d : Disk) (request : Request) (typed : Typed) : Outcome :=
  match d.resolve (Path.ofString (sketchText d request)) with
  | .error e => unresolved d e
  | .ok p =>
    match primaryOf d p with
    | .error f => earlyFailure d f.message
    | .ok none => earlyFailure d ("No sketch found at '" ++ sketchText d request ++ "'")
    | .ok (some primary) =>
      match resolveBuild d request with
      | .error e => unresolved d e
      | .ok build => workOn o d primary request build typed

/-- Runs the command, if the disk lists folders in this order. It needs a current folder, whatever
it is asked for. -/
def runIn (o : ListingOrder) (d : Disk) (args : List String) (typed : Typed) : Outcome :=
  if d.lost ≠ 0 then earlyFailure d Failure.noCurrentFolder.message
  else match readArguments args with
    | .error e =>
      ⟨.exit 2, "", TabSet.asText [usageLine, commandName ++ ": error: " ++ e.message], d⟩
    | .ok .help => ⟨.exit 0, TabSet.asText helpLines, "", d⟩
    | .ok (.work request) => work o d request typed

/-- Runs the command, if the disk lists names as they are kept. -/
def run (d : Disk) (args : List String) (typed : Typed) : Outcome :=
  runIn .asKept d args typed

end Sketchbook.Command
