import StackCalc.Context

/-! Constant folding. Opcodes are replayed on a context whose store holds no values. Every access to
a register is noted there, and the element that comes onto the stack next is then not a number but a
placeholder. What remains a number was computed from numbers alone; it is emitted only when an
opcode that touches a register needs it. -/
namespace StackCalc

/-- A store without values. -/
structure Symbolic where
  /-- The value that every register seems to have. -/
  standIn : Float
  /-- Whether a register was read or written since the last element came onto the stack. -/
  touched : Bool
deriving DecidableEq

/-- What stands on the stack for a value that depends on a register. -/
def placeholder : Element := .reference (.text "**unknown**")

instance : Store Symbolic where
  read s _ := (some s.standIn, { s with touched := true })
  write s _ _ := { s with touched := true }
  incoming s e := if s.touched then (placeholder, { s with touched := false }) else (e, s)
  giveAll s _ := (.ok (), { s with touched := true })
  clear s := { s with touched := true }

/-- A context in which opcodes are replayed for folding. -/
abbrev Replay := Context Symbolic

/-- The value that registers seem to have while opcodes are folded. It never shows in the result. -/
def registerStandIn : Float := 1

def Replay.start (standIn : Float) : Replay := .fresh ⟨standIn, false⟩

/-- Folding in progress. -/
structure Folder where
  replay : Replay
  /-- The opcodes that are kept so far. -/
  emitted : List Opcode
  /-- How many elements of the stack the emitted opcodes rebuild. -/
  bound : Nat
deriving DecidableEq

namespace Folder

def start (standIn : Float) : Folder := ⟨.start standIn, [], 0⟩

/-- Replays one opcode. If it leaves no number on top, it is kept, behind the numbers that stood on
top before it and have not been emitted. -/
def step (f : Folder) (op : Opcode) : Except Fault Folder :=
  let waiting := if f.replay.topIsLiteral then f.replay.above f.bound else []
  match f.replay.perform op with
  | (.error fault, _) => .error fault
  | (.ok _, replay) =>
    if replay.topIsLiteral then .ok { f with replay }
    else .ok ⟨replay, f.emitted ++ waiting.map Element.toOpcode ++ [op], replay.depth⟩

def steps (f : Folder) : List Opcode → Except Fault Folder
  | [] => .ok f
  | op :: rest =>
    match f.step op with
    | .ok f' => steps f' rest
    | .error fault => .error fault

end Folder

/-- What folding comes to. -/
inductive Folded where
  /-- The opcodes leave a number that depends on no register. -/
  | constant (x : Float)
  /-- Fewer opcodes do the same. -/
  | shorter (ops : List Opcode)
  /-- There is nothing to fold. -/
  | unchanged
deriving DecidableEq

/-- Folds opcodes, with a given value in place of every register. -/
def foldWith (standIn : Float) (ops : List Opcode) : Except Fault Folded :=
  match (Folder.start standIn).steps ops with
  | .error fault => .error fault
  | .ok f =>
    match f.replay.stack with
    | .literal x :: _ => .ok (.constant x)
    | _ => .ok (if f.emitted.length < ops.length then .shorter f.emitted else .unchanged)

def fold (ops : List Opcode) : Except Fault Folded :=
  foldWith registerStandIn ops

/-- The opcodes after folding, if they changed. -/
def Folded.opcodes? : Folded → Option (List Opcode)
  | .constant x => some [.number x]
  | .shorter ops => some ops
  | .unchanged => none

end StackCalc
