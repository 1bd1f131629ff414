import Sketchbook.TabSet.Basic

/-!
# Reports on a set of tabs

The tabs of a set as they are shown in a table: a line for each, with its index, its lines and
its marks, and the sums below.
-/

namespace Sketchbook

/-- What is reported about a tab. -/
structure TabSummary where
  index : Nat
  path : Path
  filename : String
  lines : Nat
  dirty : Bool
  readOnly : Bool
  deriving DecidableEq, Repr

namespace TabSummary

variable {μ : Type}

/-- What there is to report about a tab on a disk. -/
def ofTab (d : Disk) (index : Nat) (t : Tab μ) : TabSummary :=
  ⟨index, t.path, t.filename, t.lines, t.dirty, t.isReadOnly d⟩

/-- The marks of a tab: a star if it has been edited, and `RO` if its file cannot be written
to. -/
def flags (t : TabSummary) : String :=
  " ".intercalate ((if t.dirty then ["*"] else []) ++ (if t.readOnly then ["RO"] else []))

end TabSummary

namespace TabSet

variable {μ : Type}

/-- What there is to report about the tabs of a set, in order. -/
def summaries (s : TabSet) (w : Workspace μ) : List TabSummary :=
  s.members.zipIdx.map fun m => TabSummary.ofTab w.disk m.2 (w.tab m.1)

/-- A text filled up with blanks to a width. -/
def padded (width : Nat) (text : String) : String :=
  text ++ String.ofList (List.replicate (width - text.length) ' ')

/-- One line of a table. -/
def tableLine (index lines flags file : String) : String :=
  padded 5 index ++ " | " ++ padded 7 lines ++ " | " ++ padded 5 flags ++ " | " ++ file

/-- The rule above and below the tabs in a table. -/
def tableRule : String :=
  String.ofList (List.replicate 60 '-')

/-- The line of a tab in a table. -/
def summaryLine (t : TabSummary) : String :=
  tableLine (toString t.index) (toString t.lines) t.flags t.filename

/-- The number of line breaks in all tabs together. -/
def totalLines : List TabSummary → Nat
  | [] => 0
  | t :: ts => t.lines + totalLines ts

/-- The lines of a table of tabs. -/
def tableLines (ts : List TabSummary) : List String :=
  ["", tableLine "Index" "Lines" "Flags" "File", tableRule] ++ ts.map summaryLine ++
    [tableRule, "Total tabs:  " ++ toString ts.length,
      "Total lines: " ++ toString (totalLines ts)]

/-- The lines as a text, each with a line break after it. -/
def asText (lines : List String) : String :=
  String.join (lines.map (· ++ "\n"))

/-- The table of the tabs of a set. -/
def table (s : TabSet) (w : Workspace μ) : String :=
  asText (tableLines (s.summaries w))

end TabSet

end Sketchbook
