import StackCalc.Number.Arithmetic
import StackCalc.Number.Reader
import StackCalc.Registers

/-! Contexts, and what one opcode does to a context. A context is a stack with a store of registers
below it. There are two kinds of stores: one keeps real values, the other, which is used for
folding, keeps none and only notes that it was touched. The rules of the opcodes are the same over
both.

A name on the stack is not looked up when it is pushed but when its value is needed, so it sees
every assignment made in between. -/
namespace StackCalc

/-- An element of the stack. -/
inductive Element where
  /-- A number. -/
  | literal (x : Float)
  /-- A register whose value is looked up when it is needed. -/
  | reference (name : Name)
deriving DecidableEq

namespace Element

def isLiteral : Element → Bool
  | .literal _ => true
  | .reference _ => false

def toOpcode : Element → Opcode
  | .literal x => .number x
  | .reference name => ⟨.identifier, name⟩

def describe : Element → String
  | .literal x => s!"Literal({Number.text x})"
  | .reference name => s!"VariableReference({name.describe})"

end Element

/-- What a context needs of its registers. -/
class Store (σ : Type) where
  /-- Looks a register up, and the store after that. -/
  read : σ → Name → Option Float × σ
  /-- Sets a register. -/
  write : σ → Name → Float → σ
  /-- What comes onto the stack when an element is pushed, and the store after that. -/
  incoming : σ → Element → Element × σ
  /-- Sets registers to numbers that a host hands over, up to the first that does not fit. -/
  giveAll : σ → List (Name × Number.Given) → Except Fault Unit × σ
  /-- Unsets every register. -/
  clear : σ → σ

/-- Sets registers to numbers that a host hands over. Those before one that is out of range are set,
those behind it are not. -/
def Registers.giveAll (r : Registers) : List (Name × Number.Given) → Except Fault Unit × Registers
  | [] => (.ok (), r)
  | (name, given) :: rest =>
    match given.toFloat? with
    | some value => giveAll (r.set name value) rest
    | none => (.error .tooLarge, r)

/-- A store of real values: reading changes nothing, and elements come onto the stack as they
are. -/
instance : Store Registers where
  read r name := (r.get? name, r)
  write r name value := r.set name value
  incoming r e := (e, r)
  giveAll := Registers.giveAll
  clear _ := .empty

/-- A stack over a store. -/
structure Context (σ : Type) where
  /-- The elements, the topmost first. -/
  stack : List Element
  store : σ
deriving DecidableEq

/-- A context with real registers, in which programs run. -/
abbrev Machine := Context Registers

/-- What an operation gives back, and the context as it leaves it, after a fault too. -/
abbrev Result (σ α : Type) := Except Fault α × Context σ

/-- The number that a number opcode pushes. -/
def Payload.toNumber : Payload → Except Fault Float
  | .number x => .ok x
  | .text s =>
    match Number.read? s with
    | some x => .ok x
    | none => .error (.notNumeric s)
  | .empty => .error .missingNumber

namespace Context
variable {σ : Type}

def fresh (store : σ) : Context σ := ⟨[], store⟩

def depth (c : Context σ) : Nat := c.stack.length

def pop (c : Context σ) : Result σ Element :=
  match c.stack with
  | [] => (.error .underflow, c)
  | e :: rest => (.ok e, { c with stack := rest })

def topIsLiteral (c : Context σ) : Bool :=
  match c.stack with
  | .literal _ :: _ => true
  | _ => false

/-- The elements above the lowest `start`, from the bottom up. -/
def above (c : Context σ) (start : Nat) : List Element :=
  c.stack.reverse.drop start

/-- The elements from an index on, from the bottom up; a negative index counts from the top. -/
def since (c : Context σ) (start : Int) : List Element :=
  if 0 ≤ start then c.above start.toNat else c.above (start + c.depth).toNat

/-- The stack from the bottom up, for diagnosis. -/
def describeStack (c : Context σ) : List String :=
  c.stack.reverse.map Element.describe

variable [Store σ]

def push (c : Context σ) (e : Element) : Context σ :=
  let (e', store) := Store.incoming c.store e
  ⟨e' :: c.stack, store⟩

/-- The value of an element; a register that is not set counts as zero and stays unset. -/
def valueOf (c : Context σ) : Element → Float × Context σ
  | .literal x => (x, c)
  | .reference name =>
    let (value, store) := Store.read c.store name
    (value.getD 0, { c with store })

def popValue (c : Context σ) : Result σ Float :=
  match c.stack with
  | [] => (.error .underflow, c)
  | e :: rest =>
    let (value, c') := valueOf { c with stack := rest } e
    (.ok value, c')

/-- Assigns the value of the topmost element to the register below it. Both are removed, and the
value comes back as a number. -/
def assign (c : Context σ) : Result σ Unit :=
  match c.popValue with
  | (.error fault, c') => (.error fault, c')
  | (.ok value, c') =>
    match c'.pop with
    | (.error fault, c'') => (.error fault, c'')
    | (.ok (.literal _), c'') => (.error .notAssignable, c'')
    | (.ok (.reference name), c'') =>
      (.ok (), push { c'' with store := Store.write c''.store name value } (.literal value))

/-- Replaces the two topmost elements by the result of an operator on their values. -/
def calculate (c : Context σ) (op : Arithmetic) : Result σ Unit :=
  match c.popValue with
  | (.error fault, c') => (.error fault, c')
  | (.ok right, c') =>
    match c'.popValue with
    | (.error fault, c'') => (.error fault, c'')
    | (.ok left, c'') => (.ok (), c''.push (.literal (op.apply left right)))

def perform (c : Context σ) (op : Opcode) : Result σ Unit :=
  match op.kind with
  | .number =>
    match op.payload.toNumber with
    | .ok x => (.ok (), c.push (.literal x))
    | .error fault => (.error fault, c)
  | .identifier => (.ok (), c.push (.reference op.payload))
  | .symbol (.operator .assign) => c.assign
  | .symbol (.operator (.arithmetic a)) => c.calculate a
  | .symbol _ => (.error (.notExecutable op.kind), c)

/-- Executes opcodes in order, up to the first fault. -/
def performAll (c : Context σ) : List Opcode → Result σ Unit
  | [] => (.ok (), c)
  | op :: rest =>
    match c.perform op with
    | (.ok _, c') => performAll c' rest
    | (.error fault, c') => (.error fault, c')

/-- Executes opcodes and takes the value of the element they leave on top. -/
def execute (c : Context σ) (ops : List Opcode) : Result σ Float :=
  match c.performAll ops with
  | (.ok _, c') => c'.popValue
  | (.error fault, c') => (.error fault, c')

def giveAll (c : Context σ) (entries : List (Name × Number.Given)) : Result σ Unit :=
  let (outcome, store) := Store.giveAll c.store entries
  (outcome, { c with store })

def give (c : Context σ) (name : Name) (given : Number.Given) : Result σ Unit :=
  c.giveAll [(name, given)]

/-- Unsets every register. The stack stays as it is. -/
def clear (c : Context σ) : Context σ :=
  { c with store := Store.clear c.store }

def lookUp (c : Context σ) (name : Name) : Option Float × Context σ :=
  let (value, store) := Store.read c.store name
  (value, { c with store })

def pushGiven (c : Context σ) (given : Number.Given) : Result σ Unit :=
  match given.toFloat? with
  | some x => (.ok (), c.push (.literal x))
  | none => (.error .tooLarge, c)

def topValue (c : Context σ) : Option Float × Context σ :=
  match c.stack with
  | [] => (none, c)
  | e :: _ =>
    let (value, c') := c.valueOf e
    (some value, c')

/-- Gives the register on top of the stack a value. -/
def writeTop (c : Context σ) (given : Number.Given) : Result σ Unit :=
  match c.stack with
  | [] => (.error .nothingOnTop, c)
  | .literal _ :: _ => (.error .fixedLiteral, c)
  | .reference name :: _ => c.give name given

end Context

def Machine.describe (m : Machine) : String :=
  s!"ExecutionContext(registers={m.store.describe})"

end StackCalc
