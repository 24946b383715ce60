/-! The words of the language. Tokens and opcodes share their kinds: a number, an identifier, or one
of eight symbols. Two of the symbols are brackets; the other six are binary operators, of which
assignment is the only one that is not arithmetic. -/
namespace StackCalc

inductive Arithmetic where
  | add
  | subtract
  | multiply
  | divide
  | power
deriving DecidableEq, Repr

inductive Operator where
  | arithmetic (op : Arithmetic)
  | assign
deriving DecidableEq, Repr

/-- How tightly an operator binds. All operators of one level associate to the left. -/
def Operator.level : Operator → Nat
  | .assign => 0
  | .arithmetic .add | .arithmetic .subtract => 1
  | .arithmetic .multiply | .arithmetic .divide => 2
  | .arithmetic .power => 3

inductive Symbol where
  | operator (op : Operator)
  | openBracket
  | closeBracket
deriving DecidableEq, Repr

def Symbol.spelling : Symbol → List Char
  | .operator (.arithmetic .add) => ['+']
  | .operator (.arithmetic .subtract) => ['-']
  | .operator (.arithmetic .multiply) => ['*']
  | .operator (.arithmetic .divide) => ['/']
  | .operator (.arithmetic .power) => ['*', '*']
  | .operator .assign => ['=']
  | .openBracket => ['(']
  | .closeBracket => [')']

/-- The kinds that tokens and opcodes share. -/
inductive Kind where
  | number
  | identifier
  | symbol (s : Symbol)
deriving DecidableEq, Repr

namespace Kind

abbrev arithmetic (op : Arithmetic) : Kind := .symbol (.operator (.arithmetic op))

abbrev assign : Kind := .symbol (.operator .assign)

/-- Every kind, in the order of the language's description. -/
def all : List Kind :=
  [.number, arithmetic .add, arithmetic .subtract, arithmetic .multiply, arithmetic .divide,
    arithmetic .power, .identifier, assign, .symbol .openBracket, .symbol .closeBracket]

def name : Kind → String
  | .number => "number"
  | .identifier => "identifier"
  | .symbol (.operator (.arithmetic .add)) => "add"
  | .symbol (.operator (.arithmetic .subtract)) => "subtract"
  | .symbol (.operator (.arithmetic .multiply)) => "multiply"
  | .symbol (.operator (.arithmetic .divide)) => "divide"
  | .symbol (.operator (.arithmetic .power)) => "power"
  | .symbol (.operator .assign) => "assign"
  | .symbol .openBracket => "openBracket"
  | .symbol .closeBracket => "closeBracket"

def ofName? (text : String) : Option Kind :=
  all.find? (·.name == text)

end Kind

end StackCalc
