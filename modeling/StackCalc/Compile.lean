import StackCalc.Number.Reader
import StackCalc.Opcode
import StackCalc.Report
import StackCalc.Token.Scanner

/-! Compiling. One pass over the tokens of a source emits opcodes in postfix order: left operand,
right operand, operator. Operators and open brackets that still wait for their right side are kept
on a list; an operator leaves it as soon as one arrives that binds no tighter, so all levels
associate to the left. A minus directly before a number, where an operand is due, belongs to the
number. -/
namespace StackCalc

/-- Why a source cannot be compiled. -/
inductive CompileError.Cause where
  /-- A character that starts no token. -/
  | strangeCharacter (c : Char)
  /-- The source ends where an operand is due. -/
  | unexpectedEnd
  /-- One bracket too many is open. -/
  | tooDeep
  /-- An open bracket is not closed where it has to be. -/
  | missingBracket
  /-- A minus in place of an operand is not followed by a number. -/
  | expectedNumber
  /-- A token stands where an operand is due. -/
  | unexpectedToken (l : Lexeme)
  /-- A token follows a complete expression. -/
  | trailingToken (l : Lexeme)
deriving DecidableEq, Repr

/-- A failed compilation: its cause and the offset of the offending token or character. -/
structure CompileError where
  cause : CompileError.Cause
  source : String
  offset : Nat
deriving DecidableEq, Repr

/-- How many brackets may be open at once. -/
def nestingLimit : Nat := 64

namespace CompileError

def message (e : CompileError) : String :=
  match e.cause with
  | .strangeCharacter c =>
    s!"Found a strange character in the source at {e.offset}: {c}"
  | .unexpectedEnd => "Unexpected end of expression"
  | .tooDeep => s!"Expression is nested too deeply (limit {nestingLimit})"
  | .missingBracket => "Ouch, missing closing bracket"
  | .expectedNumber => "Expected a number after '-'"
  | .unexpectedToken l => s!"Unexpected token: {l.shown}"
  | .trailingToken l => s!"Unexpected token after expression: {l.shown}"

def report (e : CompileError) : Report :=
  ⟨e.message, some ⟨e.source, e.offset⟩⟩

end CompileError

/-- What has been seen and still waits for its right side. -/
inductive Pending where
  | operator (op : Operator)
  | bracket
deriving DecidableEq, Repr

inductive Expected where
  /-- An operand, or the minus of a number. -/
  | operand
  /-- The number that a minus belongs to. -/
  | magnitude
  /-- An operator, a closing bracket or the end. -/
  | operator
deriving DecidableEq, Repr

/-- A compilation in progress. -/
structure Emitter where
  expected : Expected
  /-- What waits, the innermost first. -/
  pending : List Pending
  /-- How many of the waiting are brackets. -/
  depth : Nat
  /-- The opcodes so far, the latest first. -/
  emitted : List Opcode
deriving DecidableEq

namespace Emitter
open CompileError

def start : Emitter := ⟨.operand, [], 0, []⟩

/-- Emits the waiting operators that bind at least as tightly as `level`, up to the innermost
bracket. -/
def flush (level : Nat) : List Pending → List Opcode → List Pending × List Opcode
  | .operator op :: pending, emitted =>
    if level ≤ op.level then flush level pending (.operator op :: emitted)
    else (.operator op :: pending, emitted)
  | pending, emitted => (pending, emitted)

/-- An operand is complete. -/
def operand (e : Emitter) (op : Opcode) : Emitter :=
  { e with expected := .operator, emitted := op :: e.emitted }

/-- The opcode of a number as it is written. Every number that a scan yields can be read. -/
def numberOpcode (written : List Char) : Opcode :=
  .number ((Number.readChars? written).getD Number.undefined)

def feed (e : Emitter) (l : Lexeme) : Except Cause Emitter :=
  match e.expected, l with
  | .operand, .number text => .ok (e.operand (numberOpcode text.toList))
  | .operand, .identifier name => .ok (e.operand (.identifier name))
  | .operand, .symbol (.operator (.arithmetic .subtract)) =>
    .ok { e with expected := .magnitude }
  | .operand, .symbol .openBracket =>
    if nestingLimit ≤ e.depth then .error .tooDeep
    else .ok { e with pending := .bracket :: e.pending, depth := e.depth + 1 }
  | .operand, .symbol _ => .error (.unexpectedToken l)
  | .magnitude, .number text => .ok (e.operand (numberOpcode ('-' :: text.toList)))
  | .magnitude, _ => .error .expectedNumber
  | .operator, .symbol (.operator op) =>
    let (pending, emitted) := flush op.level e.pending e.emitted
    .ok ⟨.operand, .operator op :: pending, e.depth, emitted⟩
  | .operator, l =>
    match flush 0 e.pending e.emitted with
    | (.bracket :: pending, emitted) =>
      if l = .symbol .closeBracket then .ok ⟨.operator, pending, e.depth - 1, emitted⟩
      else .error .missingBracket
    | _ => .error (.trailingToken l)

/-- The opcodes, when the source ends here. -/
def finish (e : Emitter) : Except Cause (List Opcode) :=
  match e.expected with
  | .operand => .error .unexpectedEnd
  | .magnitude => .error .expectedNumber
  | .operator =>
    match flush 0 e.pending e.emitted with
    | (.bracket :: _, _) => .error .missingBracket
    | (_, emitted) => .ok emitted.reverse

/-- Takes tokens in order; the first that does not fit is reported at its offset. -/
def feedAll (e : Emitter) : List Token → Except (Cause × Nat) Emitter
  | [] => .ok e
  | t :: rest =>
    match e.feed t.lexeme with
    | .ok e' => feedAll e' rest
    | .error cause => .error (cause, t.pos)

end Emitter

/-- Compiles the result of a scan; `length` is the length of the source. A fault of an earlier token
comes before the place where the scan stopped. -/
def compileScan (s : Scan) (length : Nat) : Except (CompileError.Cause × Nat) (List Opcode) :=
  match Emitter.start.feedAll s.tokens with
  | .error fault => .error fault
  | .ok e =>
    match s.stop with
    | some stop => .error (.strangeCharacter stop.char, stop.pos)
    | none => e.finish.mapError (·, length)

def compile (source : String) : Except CompileError (List Opcode) :=
  (compileScan (scan source) source.length).mapError fun (cause, offset) => ⟨cause, source, offset⟩

end StackCalc
