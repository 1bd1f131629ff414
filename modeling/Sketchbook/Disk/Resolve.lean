import Sketchbook.Disk.Query

/-!
# Resolving a path

Resolving a path takes the links and double dots out of it. It is done on the text of the path:
names that lead nowhere are kept, and any number of links is followed, each of them once. A link
that is met again while its own target is being resolved ends the search. What remains of the
text is then put behind the path of this link, as it is written; if the path so found still leads
into a loop of links, resolving fails. The main definition is `Disk.resolve`.
-/

namespace Sketchbook

/-- Why a path cannot be resolved. -/
inductive ResolveFault
  /-- The path leads into a loop of links. -/
  | loop (p : Path)
  /-- The path holds a NUL character. -/
  | nul
  /-- The path is relative, and the current folder has been removed. -/
  | noCurrentFolder
  deriving DecidableEq, Repr

/-- What is known of the links that have been met, by the paths they were met at: the path that
the target stands for, or `none` while it is being resolved. -/
abbrev KnownLinks := List (Path × Option Path)

/-- What is found for a text while its links are followed. -/
inductive Trace
  /-- A path without links, and what has come to be known. -/
  | settled (p : Path) (known : KnownLinks)
  /-- A path that goes through a link to itself. -/
  | looped (p : Path)
  deriving DecidableEq, Repr

namespace Path

/-- The path of the folder above, for a path without links. Above the current folder the double
dots are written out. -/
def above (p : Path) : Path :=
  match p.parts.getLast? with
  | none => if p.isAbsolute then p else p.child ".."
  | some n => if n = ".." then p.child ".." else p.parent

/-- The path with a text behind it that is given in pieces, as it stood between slashes. If the
first piece is empty the text begins with a slash, and is a path of its own. -/
def joinPieces (p : Path) (pieces : List String) : Path :=
  p.join ("/".intercalate pieces)

/-- The path without double dots: each takes away the name before it. -/
def cancelDots (p : Path) : Path :=
  let add (done : List String) (n : String) : List String :=
    if n = ".." then done.dropLast else done ++ [n]
  { p with parts := p.parts.foldl add [] }

/-- The path of the current folder or of the root. -/
def base (p : Path) : Path :=
  ⟨if p.isAbsolute then .root else .current, []⟩

end Path

/-- A path without links, with the place it leads to, if there is one. -/
structure Reached where
  path : Path
  place : Option Place
  deriving DecidableEq, Repr

namespace Disk

/-- What is reached with a path without links. -/
def reached (d : Disk) (p : Path) : Reached :=
  ⟨p, match d.find .target p with
    | .ok (.entry place _) => some place
    | _ => none⟩

/-- What is reached one folder further up. Where the path ends in a name the folder is the one
that holds the name; otherwise it takes one more step. -/
def goUp (d : Disk) (r : Reached) : Reached :=
  match r.place with
  | none => d.reached r.path.above
  | some place =>
    if r.path.endsInName then ⟨r.path.above, some place.dropLast⟩
    else ⟨r.path.above, match d.walk .target maxLinks place [.up] with
      | .ok (.entry above _) => some above
      | _ => none⟩

/-- What there is under a name at what has been reached. A link is not followed. -/
def entryIn? (d : Disk) (r : Reached) (n : String) : Option (Place × Node) :=
  match r.place with
  | none => none
  | some place =>
    match d.walk .entry maxLinks place [.down n] with
    | .ok (.entry place node) => some (place, node)
    | _ => none

/-- Follows the links in the pieces of a text, from what has been reached. The target of a link
that is not known yet is resolved by `onLink`, from the folder of the link. -/
def traceVia (d : Disk) (onLink : KnownLinks → Path → String → Except ResolveFault Trace) :
    KnownLinks → Reached → List String → Except ResolveFault Trace
  | known, done, [] => .ok (.settled done.path known)
  | known, done, n :: rest =>
    if n = "" ∨ n = "." then d.traceVia onLink known done rest
    else if n = ".." then d.traceVia onLink known (d.goUp done) rest
    else if holdsNul n then .error .nul
    else
      let next := done.path.child n
      match d.entryIn? done n with
      | some (_, .link target) =>
        match known.lookup next with
        | some (some p) => d.traceVia onLink known (d.reached p) rest
        | some none => .ok (.looped (next.joinPieces rest))
        | none =>
          match onLink ((next, none) :: known) done.path target with
          | .ok (.settled p known) =>
            d.traceVia onLink ((next, some p) :: known) (d.reached p) rest
          | .ok (.looped p) => .ok (.looped (p.joinPieces rest))
          | .error e => .error e
      | some (place, _) => d.traceVia onLink known ⟨next, some place⟩ rest
      | none => d.traceVia onLink known ⟨next, none⟩ rest

/-- Follows the links in the pieces of a text, at most so many of them one inside the other. -/
def trace (d : Disk) : Nat → KnownLinks → Path → List String → Except ResolveFault Trace
  | 0, known, p => d.traceVia (fun _ folder _ => .ok (.looped folder)) known (d.reached p)
  | depth + 1, known, p =>
    d.traceVia (fun known folder target =>
      let pieces := (splitAtEach '/' target.toList).map String.ofList
      d.trace depth known (if (Path.ofString target).isAbsolute then ⟨.root, []⟩ else folder)
        pieces) known (d.reached p)

/-- How many links can be under way at once. A link is met by its absolute path or by a relative
one, which goes up from the current folder so far and then down. -/
def traceDepth (d : Disk) : Nat :=
  d.tree.branches.size * (d.cwd.length + 2) + 1

/-- The absolute path without links and double dots that a path stands for. -/
def resolve (d : Disk) (p : Path) : Except ResolveFault Path :=
  match d.trace d.traceDepth [] p.base p.parts with
  | .error e => .error e
  | .ok t =>
    let found := match t with
      | .settled q _ => q
      | .looped q => q
    match d.absolute? found with
    | none => .error .noCurrentFolder
    | some q =>
      let full := q.cancelDots
      match d.stat full with
      | .error .linkLoop => .error (.loop full)
      | .error .nulInPath => .error .nul
      | _ => .ok full

end Disk

end Sketchbook
