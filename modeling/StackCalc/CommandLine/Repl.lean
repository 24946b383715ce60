import StackCalc.CommandLine.Grid
import StackCalc.Settings

/-! The interactive loop. Lines are read one at a time; each is blank, a command that starts with a
colon, or an expression. An expression is evaluated in one machine that lives as long as the loop;
its value is printed and kept in a register, and if it fails the loop goes on. Only a register whose
name cannot be shown breaks it off. -/
namespace StackCalc

/-- Why an expression has no value. -/
inductive EvaluationError where
  | compile (e : CompileError)
  | fault (f : Fault)
deriving DecidableEq, Repr

/-- The text of an evaluation error, with the place in the source if it has one. -/
def EvaluationError.text : EvaluationError → String
  | .compile e => e.report.text
  | .fault f => f.message

/-- Compiles an expression and folds it if asked to. -/
def prepare (source : String) (optimize : Bool) : Except EvaluationError Program :=
  match Program.ofSource source with
  | .error e => .error (.compile e)
  | .ok p =>
    if optimize then p.optimize.mapError .fault else .ok p

def evaluate (source : String) (optimize : Bool) (m : Machine) :
    Except EvaluationError Float × Machine :=
  match prepare source optimize with
  | .error e => (.error e, m)
  | .ok p =>
    let (outcome, m') := p.execute m
    (outcome.mapError .fault, m')

def errorReport (text : String) : String :=
  Markup.visible ("[red]Error:[/red] " ++ Markup.escape text)

def errorLine (text : String) : String :=
  errorReport text ++ "\n"

/-- What the loop shows. -/
inductive Repl.Event where
  /-- A line is asked for. -/
  | prompt
  /-- Something is printed. -/
  | output (text : String)
  /-- An error is reported. -/
  | error (text : String)
  /-- Something cannot be printed, and the loop breaks off. -/
  | broken (e : MarkupError)
deriving DecidableEq, Repr

namespace Repl

/-- What a line asks for. -/
inductive Input where
  | blank
  | quit
  | list
  | clear
  | expression (source : String)
deriving DecidableEq, Repr

/-- Understands a line; blanks at its ends do not count. -/
def Input.ofLine (line : String) : Input :=
  match Text.stripped line with
  | "" => .blank
  | ":quit" => .quit
  | ":regs" => .list
  | ":clear" => .clear
  | source => .expression source

def listing (r : Registers) : Except MarkupError String :=
  if r.entries.isEmpty then .ok "No registers set\n"
  else (Grid.registers r).map fun lines => String.join (lines.map (· ++ "\n"))

/-- Does what a line asks for: what it shows, and the machine after it, or nothing if the loop
ends. -/
def react (settings : Settings) (m : Machine) (input : Input) : List Event × Option Machine :=
  match input with
  | .blank => ([], some m)
  | .quit => ([], none)
  | .list =>
    match listing m.store with
    | .ok text => ([.output text], some m)
    | .error e => ([.broken e], none)
  | .clear => ([], some m.clear)
  | .expression source =>
    match evaluate source settings.optimize m with
    | (.ok x, m') =>
      ([.output (Number.brief x ++ "\n")],
        some { m' with store := m'.store.set (.text settings.lastRegister) x })
    | (.error e, m') => ([.error (errorLine e.text)], some m')

/-- Runs the loop over lines, to the first that ends it or to the last. The prompt is shown once
more at the end of the lines. -/
def run (settings : Settings) (m : Machine) : List String → List Event × Machine
  | [] => ([.prompt], m)
  | line :: rest =>
    match react settings m (.ofLine line) with
    | (events, some m') =>
      let (more, last) := run settings m' rest
      (.prompt :: events ++ more, last)
    | (events, none) => (.prompt :: events, m)

def promptText : String := "> "

def Event.printed : Event → String
  | .prompt => promptText
  | .output text => text
  | .error _ | .broken _ => ""

def Event.reported : Event → String
  | .error text => text
  | _ => ""

def broken? (events : List Event) : Option MarkupError :=
  events.findSome? fun
    | .broken e => some e
    | _ => none

end Repl

end StackCalc
