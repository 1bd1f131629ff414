import Sketchbook.Text.Digit
import Sketchbook.Text.Quoted

/-!
# Command-line arguments

The arguments of the command are read in two steps. `Word.classify` tells options from values,
by their look alone; after two hyphens that stand alone everything is a value. `readWords` then
goes through the words: an option takes the values after it that it needs, the first other value
names the sketch, and whatever is left over is complained about at the end. The main definition
is `readArguments`.
-/

namespace Sketchbook

/-- The options of the command. -/
inductive OptionKind
  | help
  | build
  | rename
  | delete
  | yes
  deriving DecidableEq, Repr

namespace OptionKind

/-- All options, in the order in which they are listed. -/
def all : List OptionKind := [help, build, rename, delete, yes]

/-- The letter of the short spelling. -/
def letter : OptionKind → Char
  | help => 'h'
  | build => 'b'
  | rename => 'r'
  | delete => 'd'
  | yes => 'y'

/-- The word of the long spelling. -/
def word : OptionKind → String
  | help => "help"
  | build => "build-path"
  | rename => "rename"
  | delete => "delete"
  | yes => "yes"

/-- The number of values that the option takes. -/
def arity : OptionKind → Nat
  | help => 0
  | build => 1
  | rename => 2
  | delete => 1
  | yes => 0

/-- The long spelling. -/
def long (k : OptionKind) : List Char :=
  '-' :: '-' :: k.word.toList

/-- Both spellings, as they stand in a message. -/
def label (k : OptionKind) : String :=
  "-" ++ k.letter.toString ++ "/--" ++ k.word

/-- The option with this letter. -/
def ofLetter? (c : Char) : Option OptionKind :=
  all.find? fun k => k.letter == c

end OptionKind

/-- What is wrong with the arguments. -/
inductive UsageProblem
  /-- The option could be an abbreviation of several. -/
  | ambiguous (text : String) (candidates : List OptionKind)
  /-- The option lacks a value. -/
  | lacksValues (option : OptionKind)
  /-- The option has a value that it does not take. -/
  | needlessValue (option : OptionKind) (text : String)
  /-- These are left over. -/
  | unrecognized (texts : List String)
  deriving DecidableEq, Repr

/-- The text a problem with the arguments is reported with. -/
def UsageProblem.message : UsageProblem → String
  | .ambiguous text candidates =>
    "ambiguous option: " ++ text ++ " could match " ++
      ", ".intercalate (candidates.map fun k => String.ofList k.long)
  | .lacksValues k =>
    "argument " ++ k.label ++ ": " ++
      (if k.arity = 1 then "expected one argument"
        else "expected " ++ toString k.arity ++ " arguments")
  | .needlessValue k text =>
    "argument " ++ k.label ++ ": ignored explicit argument " ++ quoted text
  | .unrecognized texts => "unrecognized arguments: " ++ " ".intercalate texts

/-- What a word is by its look. -/
inductive Word
  /-- A value. -/
  | value (text : String)
  /-- The two hyphens after which everything is a value. -/
  | separator
  /-- An option in its short spelling, with the text directly behind it. -/
  | short (kind : OptionKind) (tail : List Char)
  /-- An option in its long spelling, with the value behind an equals sign if there is one. -/
  | long (kind : OptionKind) (attached : Option (List Char))
  /-- An option that the command does not have. -/
  | unknown (text : String)
  deriving DecidableEq, Repr

namespace Word

/-- The text that a word stands for when it is taken as it is. -/
def text : Word → String
  | value t => t
  | separator => "--"
  | unknown t => t
  | short .. | long .. => ""

/-- A text without the line break at its very end, if there is one. -/
def dropFinalBreak (cs : List Char) : List Char :=
  if cs.getLast? = some '\n' then cs.dropLast else cs

/-- Whether the text after a hyphen is that of a number: digits, at most one point among them,
and at least one of them at the end. -/
def isNumber (cs : List Char) : Bool :=
  let (whole, rest) := cs.span isDecimalDigit
  match rest with
  | [] => !whole.isEmpty
  | '.' :: fraction => !fraction.isEmpty && fraction.all isDecimalDigit
  | _ => false

/-- Whether the text after a hyphen looks like a number, a line break at its end set aside. -/
def looksNumeric (cs : List Char) : Bool :=
  isNumber cs || isNumber (dropFinalBreak cs)

/-- The text before the first equals sign, and the one after it if there is one. -/
def splitSign (cs : List Char) : List Char × Option (List Char) :=
  match cs.span (· != '=') with
  | (front, []) => (front, none)
  | (front, _ :: after) => (front, some after)

/-- The options whose long spelling begins with the text. -/
def abbreviated (cs : List Char) : List OptionKind :=
  OptionKind.all.filter fun k => cs.isPrefixOf k.long

/-- What a word is that begins with a hyphen, is longer than that, and is not the name of an
option. -/
def fallback (s : String) (afterHyphen : List Char) : Word :=
  if looksNumeric afterHyphen || s.toList.contains ' ' then value s else unknown s

/-- What a word is that is not a separator. -/
def ofString (s : String) : Except UsageProblem Word :=
  match s.toList with
  | '-' :: '-' :: _ =>
    let (front, attached) := splitSign s.toList
    match OptionKind.all.find? fun k => k.long == front with
    | some k => .ok (.long k attached)
    | none =>
      match abbreviated front with
      | [] => .ok (fallback s (s.toList.drop 1))
      | [k] => .ok (.long k attached)
      | ks => .error (.ambiguous s ks)
  | '-' :: c :: rest =>
    match OptionKind.ofLetter? c with
    | none => .ok (fallback s (c :: rest))
    | some k => .ok (.short k rest)
  | _ => .ok (.value s)

/-- What the arguments are, one by one. -/
def classify : List String → Except UsageProblem (List Word)
  | [] => .ok []
  | s :: rest =>
    if s = "--" then .ok (.separator :: rest.map .value)
    else
      match ofString s with
      | .error e => .error e
      | .ok w =>
        match classify rest with
        | .error e => .error e
        | .ok ws => .ok (w :: ws)

/-- Whether the word is an option, known or not. -/
def isOption : Word → Bool
  | short .. | long .. | unknown _ => true
  | _ => false

end Word

/-- What the command is asked for. -/
structure Request where
  sketch : Option String
  build : Option String
  rename : Option (String × String)
  delete : Option String
  yes : Bool
  deriving DecidableEq, Repr

/-- The request of a command line without arguments. -/
def Request.none : Request :=
  ⟨.none, .none, .none, .none, false⟩

/-- What has been read of the arguments. `helped` tells that help has been asked for,
`placed` that the place of the sketch among the arguments has been passed, and `leftOver` what
could not be made use of. -/
structure Reading where
  request : Request
  helped : Bool
  placed : Bool
  leftOver : List String
  deriving DecidableEq, Repr

namespace Reading

/-- Nothing has been read yet. -/
def start : Reading :=
  ⟨.none, false, false, []⟩

/-- Takes note of an option with its values. The last one of a kind counts, also one that came
without a value and so takes back what was asked for before. -/
def note (r : Reading) : OptionKind × List String → Reading
  | (.help, _) => { r with helped := true }
  | (.yes, _) => { r with request.yes := true }
  | (.build, vs) => { r with request.build := vs.head? }
  | (.delete, vs) => { r with request.delete := vs.head? }
  | (.rename, [a, b]) => { r with request.rename := some (a, b) }
  | (.rename, _) => r

/-- Takes note of words that could not be made use of. -/
def leave (r : Reading) (texts : List String) : Reading :=
  { r with leftOver := r.leftOver ++ texts }

end Reading

/-- The first values among the words; `none` if there are not so many in front. -/
def takeValues : Nat → List Word → Option (List String × List Word)
  | 0, ws => some ([], ws)
  | n + 1, .value v :: ws => (takeValues n ws).map fun r => (v :: r.1, r.2)
  | _, _ => none

/-- What comes of an option word: the options in it with their values, and the words after it that
have not been taken. -/
structure Taken where
  options : List (OptionKind × List String)
  rest : List Word
  deriving DecidableEq, Repr

/-- Puts an option in front of what else has been taken. -/
def Taken.cons (k : OptionKind) (t : Taken) : Taken :=
  { t with options := (k, []) :: t.options }

/-- Takes an option that has no value attached. -/
def takeFollowing (k : OptionKind) (ws : List Word) : Except UsageProblem Taken :=
  match takeValues k.arity ws with
  | some (vs, rest) => .ok ⟨[(k, vs)], rest⟩
  | none => .error (.lacksValues k)

/-- The values in an attached text: it is a value itself, unless it is two hyphens and no more. -/
def attachedValues (attached : List Char) : List String :=
  if attached = ['-', '-'] then [] else [String.ofList attached]

/-- Takes an option with an attached value. -/
def takeAttached (k : OptionKind) (attached : List Char) (ws : List Word) :
    Except UsageProblem Taken :=
  match k.arity with
  | 0 => .error (.needlessValue k (String.ofList attached))
  | 1 => .ok ⟨[(k, attachedValues attached)], ws⟩
  | _ => .error (.lacksValues k)

/-- Takes a short option with the text attached to it. Where the option takes no value the text is
read as the letters of further short options, and what is not such a letter is a needless value. -/
def takeJoined (k : OptionKind) (ws : List Word) : List Char → Except UsageProblem Taken
  | [] => takeAttached k [] ws
  | c :: cs =>
    match k.arity, OptionKind.ofLetter? c with
    | 0, some next =>
      (if cs = [] then takeFollowing next ws else takeJoined next ws cs).map (Taken.cons k)
    | _, _ => takeAttached k (c :: cs) ws

/-- Takes a short option with the text directly behind it. An equals sign in front of this text
does not belong to it. -/
def takeShort (k : OptionKind) (ws : List Word) : List Char → Except UsageProblem Taken
  | [] => takeFollowing k ws
  | '=' :: attached => takeJoined k ws attached
  | attached => takeJoined k ws attached

/-- Takes the words that name the sketch: a value, with separators around it. -/
def takeSketch (ws : List Word) : List String × List Word :=
  let afterFront := ws.dropWhile (· == .separator)
  match afterFront with
  | .value v :: rest => ([v], rest.dropWhile (· == .separator))
  | rest => ([], rest)

/-- Takes the words that name the sketch, unless that has been done. -/
def readSketch (r : Reading) (ws : List Word) : Reading × List Word :=
  if r.placed then (r, ws)
  else
    let (vs, rest) := takeSketch ws
    ({ r with placed := true, request.sketch := vs.head? }, rest)

/-- Reads an option word that the command has. Other words have nothing in them. -/
def takeOption (ws : List Word) : Word → Except UsageProblem Taken
  | .short k tail => takeShort k ws tail
  | .long k none => takeFollowing k ws
  | .long k (some attached) => takeAttached k attached ws
  | _ => .ok ⟨[], ws⟩

/-- Reads words, at most so many options among them; once help has been asked for the rest is not
looked at. -/
def readUpTo : Nat → Reading → List Word → Except UsageProblem Reading
  | 0, r, _ => .ok r
  | n + 1, r, ws =>
    if ws.any Word.isOption then
      let (r, ws) := if ws.head?.any Word.isOption then (r, ws) else readSketch r ws
      let r := r.leave ((ws.takeWhile (!·.isOption)).map Word.text)
      match ws.dropWhile (!·.isOption) with
      | [] => .ok r
      | .unknown text :: ws => readUpTo n (r.leave [text]) ws
      | w :: ws =>
        match takeOption ws w with
        | .error e => .error e
        | .ok t =>
          let r := t.options.foldl Reading.note r
          if r.helped then .ok r else readUpTo n r t.rest
    else
      let (r, ws) := readSketch r ws
      .ok (r.leave (ws.map Word.text))

/-- Reads words. Each turn but the last takes an option, so no word is left out. -/
def readWords (ws : List Word) : Except UsageProblem Reading :=
  readUpTo (ws.length + 1) .start ws

/-- What the arguments ask for. -/
inductive Asked
  /-- The help text. -/
  | help
  /-- Work on a sketch. -/
  | work (request : Request)
  deriving DecidableEq, Repr

/-- Reads the arguments of the command. -/
def readArguments (args : List String) : Except UsageProblem Asked :=
  match Word.classify args with
  | .error e => .error e
  | .ok ws =>
    match readWords ws with
    | .error e => .error e
    | .ok r =>
      if r.helped then .ok .help
      else if r.leftOver.isEmpty then .ok (.work r.request)
      else .error (.unrecognized r.leftOver)

end Sketchbook
