import StackCalc.Fault
import StackCalc.Number.Binary64

/-! Arithmetic on doubles. No operation fails: division by zero and results out of range give
infinities, and what has no value gives the undefined number. -/
namespace StackCalc

/-- Exponentiation. The result is undefined whenever the exponent is, and also for an infinite power
of one or of minus one. -/
def Number.power (left right : Float) : Float :=
  if right.isNaN || (left.abs == 1 && right.isInf) then undefined else Float.pow left right

def Arithmetic.apply (op : Arithmetic) (left right : Float) : Float :=
  match op with
  | .add => right + left
  | .subtract => -right + left
  | .multiply => right * left
  | .divide => left / right
  | .power => Number.power left right

def Kind.apply (kind : Kind) (left right : Float) : Except Fault Float :=
  match kind with
  | .symbol (.operator (.arithmetic op)) => .ok (op.apply left right)
  | _ => .error (.notArithmetic kind)

end StackCalc
