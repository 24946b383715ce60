import StackCalc.Kind
import StackCalc.Text.Quoted

/-! Faults of a running program. A fault stops the program; what was done before it stays done. -/
namespace StackCalc

/-- Why an operation on a context fails. -/
inductive Fault where
  /-- An operand is due and the stack is empty. -/
  | underflow
  /-- The target of an assignment is no register. -/
  | notAssignable
  /-- Opcodes of this kind do nothing. -/
  | notExecutable (kind : Kind)
  /-- Arithmetic with an operator that is not arithmetic. -/
  | notArithmetic (kind : Kind)
  /-- A literal cannot be given a value. -/
  | fixedLiteral
  /-- A number opcode without payload. -/
  | missingNumber
  /-- A number opcode whose text is no number. -/
  | notNumeric (text : String)
  /-- A whole number beyond the range of doubles. -/
  | tooLarge
  /-- The topmost element of an empty stack was to be written. -/
  | nothingOnTop
deriving DecidableEq, Repr

def Fault.message : Fault → String
  | .underflow => "Stack underflow: the program is malformed"
  | .notAssignable => "Can only assign to a variable"
  | .notExecutable kind => s!"Opcode {kind.name} cannot be executed"
  | .notArithmetic kind => s!"Unknown binary opcode: {kind.name}"
  | .fixedLiteral => "Cannot assign a value to a literal"
  | .missingNumber => "float() argument must be a string or a real number, not 'NoneType'"
  | .notNumeric text => s!"could not convert string to float: {Text.quoted text}"
  | .tooLarge => "int too large to convert to float"
  | .nothingOnTop => "'NoneType' object has no attribute 'value'"

end StackCalc
