import StackCalc.Kind
import StackCalc.Text.Quoted

/-! Tokens. A token is a lexeme and the offset at which it starts. The text of a number or of an
identifier is kept as it stands in the source; a symbol has no text of its own. -/
namespace StackCalc

inductive Lexeme where
  | number (text : String)
  | identifier (name : String)
  | symbol (s : Symbol)
deriving DecidableEq, Repr

namespace Lexeme

def kind : Lexeme → Kind
  | .number _ => .number
  | .identifier _ => .identifier
  | .symbol s => .symbol s

def value? : Lexeme → Option String
  | .number text => some text
  | .identifier name => some name
  | .symbol _ => none

def spelling : Lexeme → List Char
  | .number text => text.toList
  | .identifier name => name.toList
  | .symbol s => s.spelling

/-- A lexeme as messages show it: its characters between quotes. -/
def shown (l : Lexeme) : String :=
  Text.quoted (String.ofList l.spelling)

end Lexeme

/-- A lexeme at an offset of the source. -/
structure Token where
  lexeme : Lexeme
  pos : Nat
deriving DecidableEq, Repr

def Token.describe (t : Token) : String :=
  let value := t.lexeme.value?.elim "None" Text.quoted
  s!"Token({t.lexeme.kind.name}, {value}, pos={t.pos})"

end StackCalc
