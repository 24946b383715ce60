import StackCalc.Compile
import StackCalc.Log

/-! Programs. A program is a list of opcodes that can be run any number of times; it comes from a
source or from a host. -/
namespace StackCalc

/-- A list of opcodes. -/
structure Program where
  opcodes : List Opcode
deriving DecidableEq

namespace Program

def ofSource (source : String) : Except CompileError Program :=
  (compile source).map Program.mk

def size (p : Program) : Nat := p.opcodes.length

def execute {σ : Type} [Store σ] (p : Program) (c : Context σ) : Result σ Float :=
  c.execute p.opcodes

/-- The folded program, or nothing when there is nothing to fold. -/
def folded? (p : Program) : Except Fault (Option Program) :=
  (fold p.opcodes).map fun outcome => outcome.opcodes?.map Program.mk

/-- The program with its constant parts computed in advance; the program itself when there is
nothing to fold. -/
def optimize (p : Program) : Except Fault Program :=
  p.folded?.map (·.getD p)

/-- Equality by value: same kinds in the same order, payloads that are equal by value. -/
def sameAs (p q : Program) : Bool :=
  p.size == q.size && (p.opcodes.zip q.opcodes).all fun (a, b) => a.sameAs b

def listing (p : Program) : String :=
  "\n".intercalate (p.opcodes.map Opcode.listed)

def describe (p : Program) : String :=
  s!"Program({p.size} opcodes)"

end Program

end StackCalc
