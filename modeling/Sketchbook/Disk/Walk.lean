import Sketchbook.Disk.Basic
import Sketchbook.Path

/-!
# Walking a path

How a path leads to a place on a disk. The walk goes from folder to folder, one step for each
name, and goes on at the target when it meets a link. Whether a link at the end of the path is
followed depends on the `Aim` of the walk. The number of links on one walk is bounded, so every
walk ends. The main definition is `Disk.find`, which gives the `Spot` a path leads to.
-/

namespace Sketchbook

/-- One step of a walk. -/
inductive Step
  /-- Stay in the folder. -/
  | here
  /-- Go to the folder above. -/
  | up
  /-- Go to the entry of this name. -/
  | down (name : String)
  /-- Stay, as after a slash at the end of a path: what has been reached must be a folder. -/
  | slash
  deriving DecidableEq, Repr

/-- The step that a name stands for. -/
def Step.ofName (n : String) : Step :=
  if n = "." then .here else if n = ".." then .up else .down n

/-- What a walk is for. -/
inductive Aim
  /-- An entry itself: a link at the end is not followed. -/
  | entry
  /-- What a path leads to: a link at the end is followed. -/
  | target
  /-- A file that is to be written: a link at the end is followed, and a path that ends in a slash
  is refused as naming a folder. -/
  | writing
  deriving DecidableEq, Repr

/-- Where a walk ends. -/
inductive Spot
  /-- At an entry. -/
  | entry (place : Place) (node : Node)
  /-- In a folder that has no entry of the last name. -/
  | vacant (folder : Place) (name : String)
  /-- In a folder that has been removed, and has no place on the disk any more. -/
  | lost
  deriving DecidableEq, Repr

/-- The number of links that one walk follows. -/
def maxLinks : Nat := 40

/-- The greatest number of bytes in the name of an entry. -/
def maxNameBytes : Nat := 255

/-- Whether no entry can bear the name because it is too long. -/
def isOverlong (n : String) : Bool :=
  maxNameBytes < n.utf8ByteSize

/-- The steps to the target of a link. -/
def linkSteps (target : String) : List Step :=
  let pieces := (splitAtEach '/' target.toList).map String.ofList
  (pieces.filter (· != "")).map Step.ofName ++
    (if target.toList.getLast? = some '/' then [.slash] else [])

/-- Where the walk to the target of a link starts, if the link lies in this folder. -/
def linkStart (folder : Place) (target : String) : Place :=
  if target.toList.head? = some '/' then [] else folder

/-- The steps of a path. The path without any name is written as a dot, and a dot is a step. -/
def Path.steps (p : Path) : List Step :=
  if p.anchor = .current ∧ p.parts = [] then [.here] else p.parts.map Step.ofName

namespace Disk

/-- A walk from a place. What is to be done at a link is given by `onLink`: it gets the folder of
the link, its target and the steps after it. -/
def walkVia (d : Disk) (aim : Aim) (onLink : Place → String → List Step → Except Fault Spot) :
    Place → List Step → Except Fault Spot
  | here, [] =>
    match d.node? here with
    | some n => .ok (.entry here n)
    | none => .error .missing
  | here, s :: rest =>
    match d.node? here with
    | none => .error .missing
    | some (.folder access) =>
      if s = .slash then d.walkVia aim onLink here rest
      else if !access.execute then .error .denied
      else match s with
        | .here | .slash => d.walkVia aim onLink here rest
        | .up => d.walkVia aim onLink here.dropLast rest
        | .down name =>
          if aim = .writing ∧ rest = [.slash] then .error .isFolder
          else if isOverlong name then .error .nameTooLong
          else match d.node? (here ++ [name]) with
            | none => if rest.isEmpty then .ok (.vacant here name) else .error .missing
            | some (.link target) =>
              if rest = [] ∧ aim = .entry then .ok (.entry (here ++ [name]) (.link target))
              else onLink here target rest
            | some _ => d.walkVia aim onLink (here ++ [name]) rest
    | some _ => .error .notFolder

/-- A walk from a place that follows at most so many links. -/
def walk (d : Disk) (aim : Aim) : Nat → Place → List Step → Except Fault Spot
  | 0 => d.walkVia aim fun _ _ _ => .error .linkLoop
  | links + 1 => d.walkVia aim fun folder target rest =>
      d.walk aim links (linkStart folder target) (linkSteps target ++ rest)

/-- A walk from the current folder, if it lies so many levels below `cwd` and has been removed.
There is nothing in such a folder, but the folders above it can still be reached from it. -/
def walkLost (d : Disk) (aim : Aim) : Nat → List Step → Except Fault Spot
  | 0, steps => d.walk aim maxLinks d.cwd steps
  | _ + 1, [] => .ok .lost
  | levels + 1, .here :: rest => d.walkLost aim (levels + 1) rest
  | levels + 1, .slash :: rest => d.walkLost aim (levels + 1) rest
  | levels + 1, .up :: rest => d.walkLost aim levels rest
  | _ + 1, .down _ :: _ => .error .missing

/-- The spot a path leads to. -/
def find (d : Disk) (aim : Aim) (p : Path) : Except Fault Spot :=
  if p.hasNul then .error .nulInPath
  else if p.isAbsolute then d.walk aim maxLinks [] p.steps
  else d.walkLost aim d.lost p.steps

/-- The path made absolute, which takes a current folder if it is relative. -/
def absolute? (d : Disk) (p : Path) : Option Path :=
  if p.isAbsolute || d.lost == 0 then some (p.absolute d.cwd) else none

end Disk

end Sketchbook
