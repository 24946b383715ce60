import StackCalc.CommandLine.Command

/-! The calculator as a program: it reads its arguments, its settings file and its input, and prints
what the library answers. -/
namespace StackCalc

/-- The distribution that this program belongs to. It is installed without its manifest. -/
def distribution : Version.Distribution := { platform := some "Lean 4" }

def lookUpFile (path : String) : IO Found := do
  try
    return .file (← IO.FS.readFile path)
  catch
    | .inappropriateType .. => return .directory
    | .invalidArgument .. => return .nameTooLong
    | _ => return .nothing

def conclude (outcome : Outcome) : IO UInt32 := do
  match outcome with
  | .usage =>
    IO.eprintln "Usage: opcalc [--version] [-v] (eval | dump | repl) [OPTIONS] [EXPRESSION]"
    return 2
  | .finished code output errors =>
    IO.print output
    IO.eprint errors
    return UInt32.ofNat code
  | .broken cause output =>
    IO.print output
    IO.eprintln cause.message
    return 1

/-- Reads lines and answers each of them before the next is read. -/
partial def interact (settings : Settings) (m : Machine) : IO UInt32 := do
  IO.print Repl.promptText
  (← IO.getStdout).flush
  let line ← (← IO.getStdin).getLine
  if line.isEmpty then
    return 0
  let (events, next) := Repl.react settings m (.ofLine line)
  for event in events do
    IO.print event.printed
    IO.eprint event.reported
  match next, Repl.broken? events with
  | some m', _ => interact settings m'
  | none, none => return 0
  | none, some e => conclude (.broken (.markup e) "")

end StackCalc

open StackCalc in
/-- Runs the command line; the interactive loop answers line by line, as they come. -/
def main (args : List String) : IO UInt32 := do
  match Command.ofArgs? args with
  | none => conclude .usage
  | some command =>
    let settings ← match command.config? with
      | none => pure (.ok {})
      | some asked =>
        let directory := (← IO.currentDir).toString
        let environment ← IO.getEnv Settings.variableName
        let (_, path) := Settings.locate asked environment directory
        pure (Settings.load path (← lookUpFile path)).1
    match command, settings with
    | .repl _, .ok s => interact s s.machine.1
    | _, _ => conclude (command.run distribution settings "")
