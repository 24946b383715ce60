import StackCalc.Program

/-! Sessions. A host works with named contexts and named programs, one step after the other. A step
that fails leaves everything else as it is, and the session goes on. -/
namespace StackCalc

/-- Named things; the latest under a name counts. -/
abbrev Slots (α : Type) := List (String × α)

/-- The contexts and programs of a host. -/
structure Session where
  contexts : Slots Machine
  programs : Slots Program

namespace Session

def empty : Session := ⟨[], []⟩

/-- What a host can ask for. -/
inductive Step where
  /-- Makes an empty context, in place of any other of the name. -/
  | newContext (context : String)
  /-- Compiles a source. -/
  | compile (program source : String)
  /-- Folds a program into a slot. -/
  | optimize (program target : String)
  /-- Lists a program. -/
  | list (program : String)
  /-- Runs a program, in a context of its own if none is named. -/
  | execute (program : String) (context : Option String)
  | get (context name : String)
  | set (context name : String) (value : Number.Given)
  | setAll (context : String) (values : List (String × Number.Given))
  | clear (context : String)
  /-- Copies the registers of a context into another. -/
  | merge (context target : String)
  | describe (context : String)
  /-- Takes the registers of a context and sets one of the copies. -/
  | copyAndSet (context name : String) (value : Number.Given)

inductive Answer where
  | done
  | size (opcodes : Nat)
  | optimized (same : Bool) (opcodes : Nat)
  | text (s : String)
  | listing (s : String)
  | result (x : Float)
  | value (x : Option Float)
  | registers (r : Registers)

inductive Failure where
  | compile (e : CompileError)
  | fault (f : Fault)
  /-- Nothing has that name. -/
  | unknown (name : String)

/-- The context that a step works on, whose state is of interest after it. -/
def Step.context? : Step → Option String
  | .newContext c | .get c _ | .set c _ _ | .setAll c _ | .clear c | .describe c
  | .copyAndSet c _ _ => some c
  | .execute _ c => c
  | .merge _ target => some target
  | .compile .. | .optimize .. | .list .. => none

def putContext (s : Session) (name : String) (m : Machine) : Session :=
  { s with contexts := (name, m) :: s.contexts }

def putProgram (s : Session) (name : String) (p : Program) : Session :=
  { s with programs := (name, p) :: s.programs }

def onContext (s : Session) (name : String) (work : Machine → Except Failure Answer × Machine) :
    Except Failure Answer × Session :=
  match s.contexts.lookup name with
  | none => (.error (.unknown name), s)
  | some m =>
    let (answer, m') := work m
    (answer, s.putContext name m')

def withProgram (s : Session) (name : String)
    (work : Program → Except Failure Answer × Session) : Except Failure Answer × Session :=
  match s.programs.lookup name with
  | none => (.error (.unknown name), s)
  | some p => work p

/-- An outcome without a value of its own. -/
def acknowledge (outcome : Except Fault Unit) : Except Failure Answer :=
  match outcome with
  | .ok _ => .ok .done
  | .error fault => .error (.fault fault)

def run (p : Program) (m : Machine) : Except Failure Answer × Machine :=
  match p.execute m with
  | (.ok x, m') => (.ok (.result x), m')
  | (.error fault, m') => (.error (.fault fault), m')

def step (s : Session) : Step → Except Failure Answer × Session
  | .newContext c => (.ok .done, s.putContext c (.fresh .empty))
  | .compile name source =>
    match Program.ofSource source with
    | .ok p => (.ok (.size p.size), s.putProgram name p)
    | .error e => (.error (.compile e), s)
  | .optimize name target =>
    s.withProgram name fun p =>
      match p.folded? with
      | .ok folded =>
        let q := folded.getD p
        (.ok (.optimized folded.isNone q.size), s.putProgram target q)
      | .error fault => (.error (.fault fault), s)
  | .list name => s.withProgram name fun p => (.ok (.listing p.listing), s)
  | .execute name context =>
    s.withProgram name fun p =>
      match context with
      | some c => s.onContext c (run p)
      | none => ((run p (.fresh .empty)).1, s)
  | .get c name =>
    s.onContext c fun m =>
      let (value, m') := m.lookUp (.text name)
      (.ok (.value value), m')
  | .set c name value =>
    s.onContext c fun m =>
      let (outcome, m') := m.give (.text name) value
      (acknowledge outcome, m')
  | .setAll c values =>
    s.onContext c fun m =>
      let (outcome, m') := m.giveAll (values.map fun (name, value) => (.text name, value))
      (acknowledge outcome, m')
  | .clear c => s.onContext c fun m => (.ok .done, m.clear)
  | .merge c target =>
    match s.contexts.lookup c with
    | none => (.error (.unknown c), s)
    | some m =>
      s.onContext target fun m' => (.ok .done, { m' with store := m.store.mergeInto m'.store })
  | .describe c => s.onContext c fun m => (.ok (.text (Machine.describe m)), m)
  | .copyAndSet c name value =>
    s.onContext c fun m =>
      match (m.store.giveAll [(.text name, value)]) with
      | (.ok _, copy) => (.ok (.registers copy), m)
      | (.error fault, _) => (.error (.fault fault), m)

def steps (s : Session) : List Step → List (Except Failure Answer) × Session
  | [] => ([], s)
  | first :: rest =>
    let (answer, s') := s.step first
    let (answers, s'') := s'.steps rest
    (answer :: answers, s'')

end Session

end StackCalc
