import StackCalc.Location
import StackCalc.Program
import StackCalc.Text.Lines
import StackCalc.Toml.Document

/-! Settings. They are read from a TOML file: whether programs are folded before they run, the
register that takes the results of an interactive session, and registers with their first values. A
file that does not exist stands for the defaults. -/
namespace StackCalc

/-- How expressions are evaluated. -/
structure Settings where
  /-- Whether programs are folded before they run. -/
  optimize : Bool := true
  /-- The register that takes each result of an interactive session. -/
  lastRegister : String := "last"
  /-- Registers with their first values. -/
  registers : Registers := .empty
deriving DecidableEq

/-- Why a settings file cannot be used. -/
inductive SettingsError where
  /-- The file is no TOML document. -/
  | notToml (path : String)
  | badOptimize (value : Toml.Value)
  | badLastRegister (value : Toml.Value)
  | badRegister (name : String) (value : Toml.Value)
  /-- A value is refused but cannot be shown. -/
  | notShown (obstacle : Toml.Obstacle)
  /-- A section is not a table, so it has no such member. -/
  | noMember (value : Toml.Value) (member : String)
  /-- A whole number beyond the range of doubles. -/
  | tooLarge
  /-- A decimal integer has more digits than are read. -/
  | tooManyDigits (count : Nat)
  /-- Values are nested deeper than they are read. -/
  | tooDeep
  /-- The path leads to a directory. -/
  | isDirectory (path : String)
  /-- The path, or a name in it, is longer than the system allows. -/
  | nameTooLong (path : String)

def SettingsError.message : SettingsError → String
  | .notToml path => s!"Invalid TOML in {path}"
  | .badOptimize value => s!"calculator.optimize must be true or false, got {value.describe}"
  | .badLastRegister value => s!"calculator.last_register must be a name, got {value.describe}"
  | .badRegister name value =>
    s!"Register {Text.quoted name} must be a number, got {value.describe}"
  | .notShown .tooLong =>
    s!"Exceeds the limit ({Toml.digitLimit} digits) for integer string conversion; " ++
      "use sys.set_int_max_str_digits() to increase the limit"
  | .notShown .tooDeep => "maximum recursion depth exceeded while getting the repr of an object"
  | .noMember value member => s!"'{value.typeName}' object has no attribute '{member}'"
  | .tooLarge => Fault.tooLarge.message
  | .tooManyDigits count =>
    s!"Exceeds the limit ({Toml.digitLimit} digits) for integer string conversion: value has " ++
      s!"{count} digits; use sys.set_int_max_str_digits() to increase the limit"
  | .tooDeep => "maximum recursion depth exceeded"
  | .isDirectory path => s!"[Errno 21] Is a directory: {Text.quoted path}"
  | .nameTooLong path => s!"[Errno 36] File name too long: {Text.quoted path}"

namespace Settings

def variableName : String := "OPCALC_CONFIG"

def defaultName : String := "opcalc.toml"

/-- Where the settings are: at a path that was asked for, else where the environment variable points
if it is not empty, else in the working directory. The location to look at comes with the path to
show. -/
def locate (asked environment : Option String) (directory : String) : Location × String :=
  match asked, environment.filter (· ≠ "") with
  | some path, _ | none, some path => (.ofPath path, (Location.ofPath path).path)
  | none, none => (⟨"", [defaultName]⟩, s!"{directory}/{defaultName}")

def sectionOf (document : Toml.Table) (name : String) : Toml.Value :=
  (document.lookup name).getD (.table [])

/-- The entries of a section; `member` is what is asked of it. -/
def entriesOf (value : Toml.Value) (member : String) : Except SettingsError Toml.Table :=
  match value with
  | .table entries => .ok entries
  | _ => .error (.noMember value member)

/-- The error about a value that cannot be used; it shows the value if that is possible. -/
def refusal (value : Toml.Value) (e : SettingsError) : SettingsError :=
  match value.obstacle? Toml.shownRoom with
  | some obstacle => .notShown obstacle
  | none => e

/-- Whether programs are folded, by default yes. -/
def optimizeOf (entries : Toml.Table) : Except SettingsError Bool :=
  match entries.lookup "optimize" with
  | none => .ok true
  | some (.boolean b) => .ok b
  | some value => .error (refusal value (.badOptimize value))

/-- The register for results; its name is a text that is not empty. -/
def lastRegisterOf (entries : Toml.Table) : Except SettingsError String :=
  match entries.lookup "last_register" with
  | none => .ok "last"
  | some (.text name) => if name = "" then .error (.badLastRegister (.text name)) else .ok name
  | some value => .error (refusal value (.badLastRegister value))

/-- The first value of a register: an integer or a real that fits a double. -/
def registerOf (name : String) (value : Toml.Value) : Except SettingsError Float :=
  match value with
  | .real x => .ok x
  | .integer n =>
    match Number.ofInt? n with
    | some x => .ok x
    | none => .error .tooLarge
  | _ => .error (refusal value (.badRegister name value))

/-- A warning about a register whose first value is not finite. -/
def nonFinite (name : String) (value : Toml.Value) : Log.Record :=
  ⟨.warning, .settings, s!"Register {Text.quoted name} has non-finite default {value.describe}"⟩

/-- The registers of a section, up to the first that cannot be used, with the warnings so far. -/
def registersOf (entries : Toml.Table) (r : Registers) :
    Except SettingsError Registers × List Log.Record :=
  match entries with
  | [] => (.ok r, [])
  | (name, value) :: rest =>
    match registerOf name value with
    | .error e => (.error e, [])
    | .ok x =>
      let (result, log) := registersOf rest (r.set (.text name) x)
      (result, if x.isFinite then log else nonFinite name value :: log)

def ofDocument (path : String) (document : Toml.Table) :
    Except SettingsError Settings × List Log.Record :=
  let choices := do
    let calculator ← entriesOf (sectionOf document "calculator") "get"
    let optimize ← optimizeOf calculator
    let lastRegister ← lastRegisterOf calculator
    let entries ← entriesOf (sectionOf document "registers") "items"
    return (optimize, lastRegister, entries)
  match choices with
  | .error e => (.error e, [])
  | .ok (optimize, lastRegister, entries) =>
    match registersOf entries .empty with
    | (.error e, log) => (.error e, log)
    | (.ok registers, log) =>
      let loaded := s!"Loaded config from {path} with {registers.size} register(s)"
      (.ok ⟨optimize, lastRegister, registers⟩, log ++ [⟨.debug, .settings, loaded⟩])

def load (path : String) (found : Found) : Except SettingsError Settings × List Log.Record :=
  match found with
  | .nothing => (.ok {}, [⟨.debug, .settings, s!"No config at {path}, using defaults"⟩])
  | .directory => (.error (.isDirectory path), [])
  | .nameTooLong => (.error (.nameTooLong path), [])
  | .file text =>
    match Toml.read (Text.unifyLineEnds text.toList) with
    | .ok document => ofDocument path document
    | .error .malformed => (.error (.notToml path), [])
    | .error (.tooManyDigits count) => (.error (.tooManyDigits count), [])
    | .error .tooDeep => (.error .tooDeep, [])

/-- A machine with the registers of the settings, and the record of setting them. -/
def machine (s : Settings) : Machine × List Log.Record :=
  let empty : Machine := .fresh .empty
  (.fresh (s.registers.mergeInto .empty), [Log.merged s.registers empty])

end Settings

end StackCalc
