import Sketchbook.FileName.Kind
import Sketchbook.Text.Blank
import Sketchbook.Text.Glob.Expression
import Sketchbook.Text.Glob.Reading
import Sketchbook.Text.Glob.Table
import Sketchbook.Text.Lowercase

/-!
# The filter for source files

Which names in a sketch folder are taken for source files is decided by a list of rules of the
kind that version control uses to leave files out: each rule is a pattern for one component of a
path, and the last rule that applies decides. `SourceFilter.ofExtensions` admits every extension
by a rule of its own and then excludes the names that begin with a dot, `SourceFilter.build` also
reports what is wrong with a rule, and `SourceFilter.admits` applies the rules to a name in
lowercase. Main statement: `SourceFilter.scope_eq`.
-/

namespace Sketchbook

/-- How a rule applies to a path. -/
inductive Scope
  /-- The path itself matches. -/
  | file
  /-- A folder that the path goes through matches. -/
  | folder
  deriving DecidableEq, Repr

/-- One rule: what matches the pattern is admitted or excluded. -/
structure FilterRule where
  keep : Bool
  pattern : Glob
  deriving DecidableEq, Repr

namespace FilterRule

/-- What comes before the pattern in the expression of a rule: the folders on the way. -/
def folderExpression : List Char :=
  "^(?:.+/)?".toList

/-- A rule as a regular expression. -/
def expression (r : FilterRule) : List Char :=
  folderExpression ++ r.pattern.expression

end FilterRule

/-- What can be wrong with a rule: a range in its pattern. -/
structure FilterProblem where
  rule : FilterRule
  range : Glob.ReversedRange
  deriving DecidableEq, Repr

/-- The text a problem with a rule is reported with. -/
def FilterProblem.message (p : FilterProblem) : String :=
  p.range.message p.rule.expression

/-- What is wrong with a rule, if anything is. -/
def FilterRule.problem? (r : FilterRule) : Option FilterProblem :=
  (Glob.reversedRange? r.pattern).map fun range => ⟨r, range.behind folderExpression⟩

/-- Rules in order; the last one that applies decides. -/
abbrev SourceFilter := List FilterRule

namespace SourceFilter

/-- The rule that admits an extension, `none` if it has brackets that are never closed. Blanks at
its end do not count. -/
def extensionRule? (extension : String) : Option FilterRule :=
  (Glob.parse? (trimEnd ('*' :: '.' :: lowerChars extension.toList))).map (⟨true, ·⟩)

/-- The rule that excludes names with a dot in front. -/
def dotRule : FilterRule :=
  ⟨false, [.literal '.', .run]⟩

/-- The rules that admit the extensions, and exclude names with a dot in front. -/
def ofExtensions (extensions : List String) : SourceFilter :=
  extensions.filterMap extensionRule? ++ [dotRule]

/-- A path as the rules see it: one slash, or else a dot and a slash, is dropped in front. -/
def normalizePath : List Char → List Char
  | '/' :: cs => cs
  | '.' :: '/' :: cs => cs
  | cs => cs

/-- For each suffix after the first character of a text whether a component may begin there. The
text before the slash in front of it must have no line break and not be empty; `empty` tells
whether none of it has been passed. -/
def innerOpenings (empty : Bool) : List Char → List Bool
  | [] => []
  | c :: cs =>
    if c == '\n' then List.replicate (cs.length + 1) false
    else (c == '/' && !empty) :: innerOpenings false cs

/-- For each suffix of a path whether a component may begin there. -/
def openings (path : List Char) : List Bool :=
  true :: innerOpenings true path

/-- The suffixes of a path with which a component may begin, the shortest one first. -/
def starts (path : List Char) : List (List Char) :=
  ((((openings path).zip (Glob.suffixes path)).filter (·.1)).map (·.2)).reverse

/-- What a match means that leaves this text over. At the end of the path one line break may be
left over. -/
def scopeOf : List Char → Option Scope
  | '/' :: _ => some .folder
  | [] => some .file
  | ['\n'] => some .file
  | _ => none

/-- How a pattern applies to a path, if it does. The last component where it does so counts. -/
def scope (pattern : Glob) (path : List Char) : Option Scope :=
  ((openings path).zip (Glob.findTable scopeOf pattern path)).reverse.findSome? fun e =>
    if e.1 then e.2 else none

/-- Whether the last rule that applies in the given way admits the path; `none` if no rule
applies in this way. -/
def verdict (rules : SourceFilter) (s : Scope) (path : List Char) : Option Bool :=
  (rules.reverse.find? fun r => scope r.pattern path == some s).map (·.keep)

/-- Whether a path in lowercase is admitted. A rule that applies to the file itself goes before
one that applies to a folder. -/
def admitsLowered (rules : SourceFilter) (path : List Char) : Bool :=
  let path := normalizePath path
  match verdict rules .file path with
  | some b => b
  | none => (verdict rules .folder path).getD false

/-- Whether a name is admitted, without regard to case. -/
def admits (rules : SourceFilter) (filename : String) : Bool :=
  admitsLowered rules (lowerChars filename.toList)

/-- The rules for the tabs of a sketch. -/
def standard : SourceFilter :=
  ofExtensions sourceExtensions

/-- The rules for the extensions, unless something is wrong with one of them: then what is wrong
with the first such rule. -/
def build (extensions : List String) : Except FilterProblem SourceFilter :=
  let rules := ofExtensions extensions
  match rules.findSome? FilterRule.problem? with
  | some problem => .error problem
  | none => .ok rules

theorem findSome?_openings {α : Type} (f : List Char → Option α) (bs : List Bool)
    (rs : List (List Char)) :
    ((bs.zip (rs.map f)).reverse.findSome? fun e => if e.1 then e.2 else none) =
      (((bs.zip rs).filter (·.1)).map (·.2)).reverse.findSome? f := by
  induction rs generalizing bs with
  | nil => simp
  | cons r rs ih =>
    cases bs with
    | nil => simp
    | cons b bs =>
      cases b <;> simp [List.findSome?_append, ih]

/-- A pattern applies to a path as it does to the last component that it matches, and there as
the first rest tells. -/
theorem scope_eq (pattern : Glob) (path : List Char) :
    scope pattern path =
      (starts path).findSome? fun r => (Glob.rests pattern r).findSome? scopeOf := by
  rw [scope, Glob.findTable_eq, findSome?_openings, starts]

end SourceFilter

/-- Whether a name is that of a source file. -/
def isSourceName (filename : String) : Bool :=
  SourceFilter.standard.admits filename

end Sketchbook
