import Sketchbook.Command.Run
import Sketchbook.Disk.Image

/-!
# The command

The program reads the image of a disk from its standard input, up to the first empty line, and
runs the command with its arguments on that disk. The lines after the image are what is typed
when the command asks for confirmation.
-/

namespace Sketchbook.Main

/-- The lines of a stream, from here to its end. -/
partial def readLines (stream : IO.FS.Stream) (done : Array String) : IO (Array String) := do
  let line ← stream.getLine
  if line.isEmpty then return done
  else readLines stream (done.push line)

/-- A line without the line break at its end. -/
def withoutBreak (line : String) : String :=
  String.ofList (line.toList.takeWhile (· != '\n'))

/-- The exit status of a run. A run that did not come to its end counts as failed. -/
def status : Command.Ending → UInt32
  | .exit n => n.toUInt32
  | _ => 1

end Sketchbook.Main

/-- Runs the command. -/
def main (args : List String) : IO UInt32 := do
  let lines := (← Sketchbook.Main.readLines (← IO.getStdin) #[]).toList
  let image := (lines.takeWhile (· != "\n")).map Sketchbook.Main.withoutBreak
  let typed := String.join ((lines.dropWhile (· != "\n")).drop 1)
  let o := Sketchbook.Command.run (Sketchbook.Disk.ofImage image) args (.text typed)
  IO.print o.out
  IO.eprint o.err
  unless o.ending.message.isEmpty do
    IO.eprintln o.ending.message
  return Sketchbook.Main.status o.ending
