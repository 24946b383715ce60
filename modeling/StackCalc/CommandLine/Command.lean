import StackCalc.Assignment
import StackCalc.CommandLine.Options
import StackCalc.CommandLine.Repl
import StackCalc.Version

/-! The command line. There are three commands: one evaluates an expression, one lists the opcodes
of an expression, and one starts the interactive loop. -/
namespace StackCalc

/-- What the command line asks for. -/
inductive Command where
  /-- Prints the version. -/
  | version
  /-- Evaluates an expression with registers set by hand. -/
  | eval (expression : String) (assignments : List String) (optimize : Option Bool)
    (config : Option String)
  /-- Lists the opcodes of an expression. -/
  | dump (expression : String) (optimize : Bool)
  /-- Starts the interactive loop. -/
  | repl (config : Option String)
deriving DecidableEq, Repr

namespace Command

/-- The options of all commands. -/
inductive Tag where
  | version
  | verbose
  | set
  | optimize
  | noOptimize
  | config
deriving DecidableEq, Repr

def generalOptions : List (Options.Known Tag) :=
  [⟨.version, "--version", none, false⟩, ⟨.verbose, "--verbose", some 'v', false⟩]

def evalOptions : List (Options.Known Tag) :=
  [⟨.set, "--set", some 's', true⟩, ⟨.optimize, "--optimize", none, false⟩,
    ⟨.noOptimize, "--no-optimize", none, false⟩, ⟨.config, "--config", some 'c', true⟩]

def dumpOptions : List (Options.Known Tag) :=
  [⟨.optimize, "--optimize", some 'O', false⟩]

def replOptions : List (Options.Known Tag) :=
  [⟨.config, "--config", some 'c', true⟩]

/-- The choice between folding and not folding that was made last. -/
def lastChoice (g : Options.Given Tag) : Option Bool :=
  (g.options.filterMap fun (tag, _) =>
    match tag with
    | .optimize => some true
    | .noOptimize => some false
    | _ => none).getLast?

def ofName? (name : String) (args : List String) : Option Command :=
  match name with
  | "eval" =>
    match Options.read? evalOptions true args with
    | some g =>
      match g.arguments with
      | [expression] =>
        some (.eval expression (g.values .set) (lastChoice g) (g.values .config).getLast?)
      | _ => none
    | none => none
  | "dump" =>
    match Options.read? dumpOptions true args with
    | some g =>
      match g.arguments with
      | [expression] => some (.dump expression (g.has .optimize))
      | _ => none
    | none => none
  | "repl" =>
    match Options.read? replOptions true args with
    | some g => if g.arguments.isEmpty then some (.repl (g.values .config).getLast?) else none
    | none => none
  | _ => none

/-- Whether the general options at the front of the arguments ask for the version. -/
def asksVersion (args : List String) : Bool :=
  match Options.read? generalOptions false args with
  | some g => g.has .version
  | none => false

/-- Understands a whole command line; nothing if it is not used as it should be. The version is
shown before the command is looked at. What follows two dashes is still a command, or else is taken
for general options once more. -/
def ofArgs? (args : List String) : Option Command :=
  match Options.read? generalOptions false args with
  | none => none
  | some g =>
    if g.has .version then some .version
    else
      match g.arguments with
      | [] => none
      | name :: rest =>
        match ofName? name rest with
        | some command => some command
        | none =>
          if ["eval", "dump", "repl"].contains name then none
          else if asksVersion (name :: rest) then some .version
          else none

/-- Where the settings of a command are looked for, if it needs any. -/
def config? : Command → Option (Option String)
  | .eval _ _ _ config => some config
  | .repl config => some config
  | .version | .dump .. => none

end Command

/-- What can break a command off. -/
inductive Breakdown where
  /-- The settings file cannot be used. -/
  | settings (e : SettingsError)
  /-- Something cannot be printed. -/
  | markup (e : MarkupError)

def Breakdown.message : Breakdown → String
  | .settings e => e.message
  | .markup e => e.message

/-- How a command ends. -/
inductive Outcome where
  /-- The command line is not used as it should be. -/
  | usage
  /-- The command has ended with an exit code. -/
  | finished (code : Nat) (output errors : String)
  /-- The command has broken off, after some output. -/
  | broken (cause : Breakdown) (output : String)

namespace Command

/-- A report that ends a command. The explanation of a file that is no TOML document follows on the
same line, so the line stays open. -/
def settingsFailure (e : SettingsError) : Outcome :=
  match e with
  | .notShown _ | .noMember .. | .tooLarge | .tooManyDigits _ | .tooDeep | .isDirectory _
  | .nameTooLong _ =>
    .broken (.settings e) ""
  | .notToml _ => .finished 1 "" (errorReport e.message)
  | _ => .finished 1 "" (errorLine e.message)

/-- The machine in which one expression is evaluated: that of the settings, in whose registers those
given by hand are set. -/
def evalMachine (settings : Settings) (given : Registers) : Machine :=
  let seeded := settings.machine.1
  { seeded with store := given.mergeInto seeded.store }

def runEval (settings : Settings) (expression : String) (assignments : List String)
    (optimize : Option Bool) : Outcome :=
  match readAssignments assignments with
  | .error _ => .usage
  | .ok given =>
    match evaluate expression (optimize.getD settings.optimize) (evalMachine settings given) with
    | (.ok x, _) => .finished 0 (Number.brief x ++ "\n") ""
    | (.error e, _) => .finished 1 "" (errorLine e.text)

def runDump (expression : String) (optimize : Bool) : Outcome :=
  match prepare expression optimize with
  | .ok p => .finished 0 (s!"{p.listing}\n{p.size} opcode(s)\n") ""
  | .error e => .finished 1 "" (errorLine e.text)

def runRepl (settings : Settings) (input : String) : Outcome :=
  let lines := (Text.lines input.toList).map String.ofList
  let (events, _) := Repl.run settings settings.machine.1 lines
  let output := String.join (events.map Repl.Event.printed)
  match Repl.broken? events with
  | some e => .broken (.markup e) output
  | none => .finished 0 output (String.join (events.map Repl.Event.reported))

/-- Runs a command of a distribution. `settings` is what loading its settings came to, and `input`
is what is typed. -/
def run (c : Command) (distribution : Version.Distribution)
    (settings : Except SettingsError Settings) (input : String) : Outcome :=
  match c, settings with
  | .version, _ => .finished 0 distribution.report ""
  | .dump expression optimize, _ => runDump expression optimize
  | .eval expression assignments optimize _, .ok s => runEval s expression assignments optimize
  | .repl _, .ok s => runRepl s input
  | .eval .., .error e | .repl _, .error e => settingsFailure e

end Command

structure Surroundings where
  /-- The working directory, as it is shown. -/
  directory : String
  /-- The value of the environment variable for settings. -/
  environment : Option String
  /-- What is found at a location. -/
  find : Location → Found
  /-- What is typed. -/
  input : String
  /-- Where the command comes from. -/
  distribution : Version.Distribution := {}

def runCommandLine (args : List String) (s : Surroundings) : Outcome :=
  match Command.ofArgs? args with
  | none => .usage
  | some command =>
    let settings :=
      match command.config? with
      | none => .ok {}
      | some asked =>
        let (location, path) := Settings.locate asked s.environment s.directory
        (Settings.load path (s.find location)).1
    command.run s.distribution settings s.input

end StackCalc
