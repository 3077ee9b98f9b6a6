import Palette.CommandLine

/-!
# The program

Reads what a command asks for, runs the command and prints what it says.
-/

namespace Palette

/-- Why reading failed. -/
def ReadFailure.ofError : IO.Error → ReadFailure
  | .noFileOrDirectory .. => .notFound
  | .permissionDenied .. => .notPermitted
  | e => .other (toString e)

/-- Reads the bytes of a source. -/
def Source.read : Source → IO ByteArray
  | standardInput => do (← IO.getStdin).readBinToEnd
  | file path => IO.FS.readBinFile path

/-- Reads the text of a source. -/
def Source.content (s : Source) : IO (Except ReadFailure String) := do
  match ← s.read.toBaseIO with
  | .ok bytes => return ReadFailure.decode bytes
  | .error e => return .error (.ofError e)

end Palette

/-- Runs the command that the arguments give. -/
def main (arguments : List String) : IO UInt32 := do
  let command := Palette.Command.ofArguments arguments
  let content ←
    match command.source? with
    | some source => source.content
    | none => pure (.ok "")
  let exit := command.run content
  IO.print exit.output
  IO.eprint exit.errorOutput
  return exit.code.toUInt32
