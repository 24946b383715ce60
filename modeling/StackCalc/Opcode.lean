import StackCalc.Kind
import StackCalc.Number.Written

/-! Opcodes, the instructions of the stack machine. An opcode is a kind with a payload. Compiled
code gives a payload to numbers and identifiers only, but a host may hand over opcodes of any shape.
-/
namespace StackCalc

/-- What an opcode carries besides its kind. -/
inductive Payload where
  | empty
  | number (x : Float)
  | text (s : String)
deriving DecidableEq

instance : Coe String Payload := ⟨.text⟩

/-- Equality by value: numbers compare as numbers, so the two zeros are equal, and a text never
equals a number. -/
def Payload.sameAs : Payload → Payload → Bool
  | .empty, .empty => true
  | .number x, .number y => x == y
  | .text s, .text t => s == t
  | _, _ => false

/-- An instruction of the stack machine. -/
structure Opcode where
  kind : Kind
  payload : Payload
deriving DecidableEq

namespace Opcode

def number (x : Float) : Opcode := ⟨.number, .number x⟩

def identifier (name : String) : Opcode := ⟨.identifier, .text name⟩

def operator (op : Operator) : Opcode := ⟨.symbol (.operator op), .empty⟩

/-- Equality by value. -/
def sameAs (a b : Opcode) : Bool :=
  a.kind == b.kind && a.payload.sameAs b.payload

/-- One line of a listing: the kind, and the payload if there is one. -/
def listed (op : Opcode) : String :=
  match op.payload with
  | .empty => op.kind.name
  | .number x => s!"{op.kind.name} {Number.brief x}"
  | .text s => s!"{op.kind.name} {s}"

end Opcode

end StackCalc
