import Sketchbook.FileName.SourceFilter
import Sketchbook.TabSet.Basic

/-!
# Sets of tabs and the disk

Loading the tabs of a sketch from its folder, and saving those that have been edited. Loading
examines the entries of the folder one by one (`TabSet.examine`), gathers what is found
(`TabSet.scan`) and puts the tabs in order.
-/

namespace Sketchbook

/-- What an entry of a sketch folder turns out to be. -/
inductive Finding (μ : Type)
  /-- No source file. -/
  | ignored
  /-- A source file whose name the policy refuses. -/
  | refused
  /-- A tab, with the messages about it. -/
  | tab (t : Tab μ) (texts : List String)
  /-- It could not be found out. -/
  | failed (f : Failure)

/-- What is found in a sketch folder, up to the first entry that stops the search. -/
structure Haul (μ : Type) where
  tabs : List (Tab μ)
  texts : List String
  failure : Option Failure

namespace TabSet

variable {μ : Type}

/-- The message about a source file whose name the policy refuses. -/
def refusedWarning (filename : String) : String :=
  "File name " ++ filename ++ " is invalid: ignored"

/-- Examines the entry of this name in the sketch folder. -/
def examine (s : TabSet) (d : Disk) (filename : String) : Finding μ :=
  if !isSourceName filename then .ignored
  else
    let p := s.folder.child filename
    match d.isFolder? p with
    | .error e => .failed (.disk e p)
    | .ok true => .ignored
    | .ok false =>
      if s.accepts (splitExtension? filename sourceExtensions) then
        match Tab.load d p none s.sink with
        | .ok (t, texts) => .tab t texts
        | .error f => .failed f
      else .refused

/-- Examines entries one after the other, until one of them fails. -/
def scan (s : TabSet) (d : Disk) : List String → Haul μ
  | [] => ⟨[], [], none⟩
  | n :: ns =>
    match s.examine d n with
    | .failed f => ⟨[], [], some f⟩
    | .ignored => scan s d ns
    | .refused =>
      let rest : Haul μ := scan s d ns
      { rest with texts := refusedWarning n :: rest.texts }
    | .tab t texts =>
      let rest : Haul μ := scan s d ns
      { rest with tabs := t :: rest.tabs, texts := texts ++ rest.texts }

/-- Builds the set anew from the entries of the sketch folder, in the order in which they are
listed. -/
def loadListed (s : TabSet) (w : Workspace μ) (names : List String) :
    Except Failure Unit × TabSet × Workspace μ :=
  let haul : Haul μ := s.scan w.disk names
  let s := { s with members := w.nextIds haul.tabs.length }
  let w := (w.addTabs haul.tabs).tell s.sink haul.texts
  match haul.failure with
  | some f => (.error f, s, w)
  | none =>
    if s.members.isEmpty then (.error .noCode, s, w)
    else (.ok (), (s.pinPrimary w).sort w, w)

/-- Builds the set anew from the sketch folder, if the disk lists it in this order. -/
def loadIn (s : TabSet) (o : ListingOrder) (w : Workspace μ) :
    Except Failure Unit × TabSet × Workspace μ :=
  match w.disk.list s.folder with
  | .error .nulInPath => (.error (.disk .nulInPath s.folder), s.clear, w)
  | .error _ => (.error (.unlistable s.folder), s.clear, w)
  | .ok names => s.loadListed w (o.arrange names)

/-- Saves those of the tabs that have been edited, one after the other, until one cannot be. -/
def saveEdited (room : Room) (w : Workspace μ) :
    List TabId → Except WriteFailure Unit × Workspace μ
  | [] => (.ok (), w)
  | id :: ids =>
    if (w.tab id).dirty then
      match w.save room id with
      | (.ok (), w) => saveEdited room w ids
      | (.error f, w) => (.error f, w)
    else saveEdited room w ids

/-- Saves the tabs of the set that have been edited, in order. -/
def save (room : Room) (s : TabSet) (w : Workspace μ) :
    Except WriteFailure Unit × Workspace μ :=
  saveEdited room w s.members

end TabSet

end Sketchbook
