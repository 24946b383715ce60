import StackCalc.Session

/-! The bench: named contexts of both kinds, driven one operation at a time. What an operation did
before it failed stays done. -/
namespace StackCalc

/-- A context of either kind. -/
inductive AnyContext where
  | machine (m : Machine)
  | replay (r : Replay)

namespace AnyContext

def work {α : Type} (c : AnyContext)
    (f : {σ : Type} → [Store σ] → Context σ → α × Context σ) : α × AnyContext :=
  match c with
  | .machine m =>
    let (a, m') := f m
    (a, .machine m')
  | .replay r =>
    let (a, r') := f r
    (a, .replay r')

def describeStack : AnyContext → List String
  | .machine m => m.describeStack
  | .replay r => r.describeStack

def describeSince (c : AnyContext) (start : Int) : List String :=
  let elements :=
    match c with
    | .machine m => m.since start
    | .replay r => r.since start
  elements.map Element.describe

end AnyContext

abbrev Bench := Slots AnyContext

namespace Bench

/-- What can be done on a bench. -/
inductive Step where
  | newMachine (context : String) (registers : List (String × Number.Given))
  | newReplay (context : String)
  | push (context : String) (value : Number.Given)
  | pushReference (context name : String)
  | pop (context : String)
  | popValue (context : String)
  /-- Moves the topmost element to another context. -/
  | move (context target : String)
  | writeTop (context : String) (value : Number.Given)
  | topValue (context : String)
  | perform (context : String) (op : Opcode)
  | execute (context : String) (program : Program)
  | get (context name : String)
  | setAll (context : String) (values : List (String × Number.Given))
  | clear (context : String)
  | merge (context target : String)
  | since (context : String) (start : Int)

inductive Answer where
  | done
  | element (e : Element)
  | value (x : Option Float)
  | result (x : Float)
  | elements (shown : List String)

/-- The context whose state is of interest after a step. -/
def Step.context : Step → String
  | .newMachine c _ | .newReplay c | .push c _ | .pushReference c _ | .pop c | .popValue c
  | .writeTop c _ | .topValue c | .perform c _ | .execute c _ | .get c _ | .setAll c _ | .clear c
  | .since c _ => c
  | .move _ target | .merge _ target => target

def put (b : Bench) (name : String) (c : AnyContext) : Bench :=
  (name, c) :: b

/-- Works on the context of a name; a name without a context stands for an empty machine. -/
def on {α : Type} (b : Bench) (name : String)
    (f : {σ : Type} → [Store σ] → Context σ → α × Context σ) : α × Bench :=
  let c := (b.lookup name).getD (.machine (.fresh .empty))
  let (a, c') := c.work f
  (a, b.put name c')

def acknowledge {σ : Type} (r : Result σ Unit) : Except Fault Answer × Context σ :=
  (r.1.map fun _ => .done, r.2)

/-- Names as registers are named. -/
def named (values : List (String × Number.Given)) : List (Name × Number.Given) :=
  values.map fun (name, value) => (.text name, value)

def step (b : Bench) : Step → Except Fault Answer × Bench
  | .newMachine name values =>
    match (Registers.empty.giveAll (named values)) with
    | (.ok _, r) => (.ok .done, b.put name (.machine (.fresh r)))
    | (.error fault, _) => (.error fault, b)
  | .newReplay name => (.ok .done, b.put name (.replay (.start registerStandIn)))
  | .push name value => b.on name fun c => acknowledge (c.pushGiven value)
  | .pushReference name register =>
    b.on name fun c => (.ok .done, c.push (.reference (.text register)))
  | .pop name =>
    b.on name fun c =>
      let (outcome, c') := c.pop
      (outcome.map .element, c')
  | .popValue name =>
    b.on name fun c =>
      let (outcome, c') := c.popValue
      (outcome.map (.value ∘ some), c')
  | .move name target =>
    match b.on name fun c => c.pop with
    | (.ok e, b') => b'.on target fun c => (.ok .done, c.push e)
    | (.error fault, b') => (.error fault, b')
  | .writeTop name value => b.on name fun c => acknowledge (c.writeTop value)
  | .topValue name =>
    b.on name fun c =>
      let (value, c') := c.topValue
      (.ok (.value value), c')
  | .perform name op => b.on name fun c => acknowledge (c.perform op)
  | .execute name program =>
    b.on name fun c =>
      let (outcome, c') := program.execute c
      (outcome.map .result, c')
  | .get name register =>
    b.on name fun c =>
      let (value, c') := c.lookUp (.text register)
      (.ok (.value value), c')
  | .setAll name values => b.on name fun c => acknowledge (c.giveAll (named values))
  | .clear name => b.on name fun c => (.ok .done, c.clear)
  | .merge name target =>
    let entries :=
      match b.lookup name with
      | some (.machine m) => m.store.entries
      | _ => []
    b.on target fun c => acknowledge (c.giveAll (entries.map fun (n, x) => (n, .real x)))
  | .since name start =>
    let shown := (b.lookup name).elim [] (·.describeSince start)
    (.ok (.elements shown), b)

end Bench

end StackCalc
