import Sketchbook.Sketch.Primary
import Sketchbook.TabSet.Basic

/-!
# Renaming and deleting tabs of a set

A tab of a sketch is renamed or deleted under its name, after checks that protect the main file
and the other tabs. Why such an action is refused is a `Refusal`.
-/

namespace Sketchbook

/-- Why a name cannot be given to a tab. -/
inductive NameProblem
  /-- It has no extension of a tab. -/
  | noExtension
  /-- The policy on names does not allow it. -/
  | unsanitary
  /-- Another tab has it. -/
  | taken
  deriving DecidableEq, Repr

/-- The text a problem with a name is reported with. -/
def NameProblem.message (name : String) : NameProblem → String
  | .noExtension =>
    "'" ++ name ++ "' must end with one of: " ++
      ", ".intercalate (sourceExtensions.map ("." ++ ·))
  | .unsanitary => "'" ++ name ++ "' is not a valid tab name"
  | .taken => "A tab named '" ++ name ++ "' already exists"

/-- Why an action on a tab is refused. -/
inductive Refusal
  | noSuchTab (name : String)
  | renamesPrimary
  | badName (name : String) (problem : NameProblem)
  | notRenamed (old new : String)
  | deletesPrimary
  | notDeleted (name : String)
  deriving DecidableEq, Repr

/-- The text a refusal is reported with. -/
def Refusal.message : Refusal → String
  | .noSuchTab name => "No tab named '" ++ name ++ "'"
  | .renamesPrimary => "Renaming the main sketch file is not supported"
  | .badName name problem => problem.message name
  | .notRenamed old new => "Could not rename '" ++ old ++ "' to '" ++ new ++ "'"
  | .deletesPrimary => "The main sketch file can't be deleted"
  | .notDeleted name => "Could not delete '" ++ name ++ "' (or some of its build files)"

/-- What comes of deleting a tab: why it is refused, what stopped it, and the set and the
workspace as they are then. -/
structure Deletion (μ : Type) where
  refusal : Option Refusal
  failure : Option Failure
  set : TabSet
  workspace : Workspace μ

namespace TabSet

variable {μ : Type}

/-- What is wrong with a new name for a tab, if anything is. -/
def nameProblem (s : TabSet) (w : Workspace μ) (name : String) : Option NameProblem :=
  match splitExtension? name sourceExtensions with
  | none => some .noExtension
  | some base =>
    if !isSanitary base then some .unsanitary
    else if (s.find? w name).isSome then some .taken
    else none

/-- The tab of this name, provided that it may be renamed to the new name. -/
def renamable (s : TabSet) (w : Workspace μ) (old new : String) : Except Refusal TabId :=
  match s.find? w old with
  | none => .error (.noSuchTab old)
  | some id =>
    if s.isPrimary w id then .error .renamesPrimary
    else match s.nameProblem w new with
      | some problem => .error (.badName new problem)
      | none => .ok id

/-- Renames the tab with the old name. The set is put in order afterwards. -/
def renameTab (s : TabSet) (w : Workspace μ) (old new : String) :
    Except Failure (Except Refusal Unit) × TabSet × Workspace μ :=
  match s.renamable w old new with
  | .error r => (.ok (.error r), s, w)
  | .ok id =>
    match w.rename id (s.folder.join new) with
    | (.error f, w) => (.error f, s, w)
    | (.ok false, w) => (.ok (.error (.notRenamed old new)), s, w)
    | (.ok true, w) => (.ok (.ok ()), s.sort w, w)

/-- The tab of this name, provided that it may be deleted. -/
def deletable (s : TabSet) (w : Workspace μ) (name : String) : Except Refusal TabId :=
  match s.find? w name with
  | none => .error (.noSuchTab name)
  | some id => if s.isPrimary w id then .error .deletesPrimary else .ok id

/-- The folders cleared of compiled files along with a tab. -/
def outputFolders : Option Path → List Path
  | none => []
  | some build => buildOutputFolders build

/-- Deletes a tab that may be deleted. It leaves the set when its file is gone, be it that some
compiled file could not be deleted. -/
def deleteMember (o : ListingOrder) (s : TabSet) (w : Workspace μ) (id : TabId) (name : String)
    (build : Option Path) : Deletion μ :=
  match w.delete o id (outputFolders build) with
  | (.error f, w) => ⟨none, some f, s, w⟩
  | (.ok true, w) =>
    let (s, w) := s.remove w id
    ⟨none, none, s, w⟩
  | (.ok false, w) =>
    let refusal := some (.notDeleted name)
    match (w.tab id).exists? w.disk with
    | .error f => ⟨refusal, some f, s, w⟩
    | .ok true => ⟨refusal, none, s, w⟩
    | .ok false =>
      let (s, w) := s.remove w id
      ⟨refusal, none, s, w⟩

/-- Deletes the tab of this name and what was compiled from it into the build folder. -/
def deleteTab (o : ListingOrder) (s : TabSet) (w : Workspace μ) (name : String)
    (build : Option Path) : Deletion μ :=
  match s.deletable w name with
  | .error r => ⟨some r, none, s, w⟩
  | .ok id => s.deleteMember o w id name build

end TabSet

end Sketchbook
