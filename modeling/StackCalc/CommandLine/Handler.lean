import StackCalc.Number.Reader
import StackCalc.Text.Blank
import StackCalc.Text.Printable

/-! Handlers of terminal text. A tag may name a handler and give it arguments in brackets. The
arguments are a literal: a number, a string, a constant, or several of them in brackets. -/
namespace StackCalc.Handler

def isNameChar (c : Char) : Bool :=
  c.isAlphanum || c == '_' || c == '.' ||
    (0x80 ≤ c.toNat && Text.isPrintable c && !Text.isBlank c)

/-- What has to be a literal in the parameters of a handler: the arguments in brackets behind its
name, or all of it if it does not have that form. A name alone has no arguments. -/
def arguments (parameters : List Char) : List Char :=
  let cs := Text.trim Text.isBlank parameters
  let name := cs.takeWhile (· ≠ '(')
  let rest := cs.dropWhile (· ≠ '(')
  if name.all isNameChar then
    if rest.isEmpty then ['(', ')'] else if rest.getLast? = some ')' then rest else cs
  else cs

/-- The bracket that opens what a bracket closes. -/
def opening (c : Char) : Char :=
  if c = ')' then '(' else '\x7b'

/-- What is wrong with the brackets and quotes of a text. `opened` holds the open brackets, the
innermost first, `quote` the quote of the string that is being read, and `escaped` says whether a
backslash stands before the next character of it. -/
def bracketFault? (opened : List Char) (quote : Option Char) (escaped : Bool) :
    List Char → Option String
  | [] =>
    match quote, opened with
    | some _, _ => some "unterminated string literal (detected at line 1)"
    | none, c :: _ => some s!"'{c}' was never closed"
    | none, [] => none
  | c :: rest =>
    match quote with
    | some q =>
      if escaped then bracketFault? opened quote false rest
      else bracketFault? opened (if c = q then none else quote) (c = '\\') rest
    | none =>
      if c = '\'' || c = '"' then bracketFault? opened (some c) false rest
      else if c = '(' || c = '\x7b' then bracketFault? (c :: opened) none false rest
      else if c = ')' || c = '\x7d' then
        match opened with
        | [] => some s!"unmatched '{c}'"
        | o :: others =>
          if o = opening c then bracketFault? others none false rest
          else some s!"closing parenthesis '{c}' does not match opening parenthesis '{o}'"
      else bracketFault? opened none false rest

def afterString? (quote : Char) : List Char → Option (List Char)
  | [] => none
  | ['\\'] => none
  | '\\' :: _ :: rest => afterString? quote rest
  | c :: rest => if c = quote then some rest else afterString? quote rest

def afterWord? (cs : List Char) : Option (List Char) :=
  let isWord := fun (c : Char) => c.isAlphanum || c == '.' || c == '_'
  let word := cs.takeWhile isWord
  let isNumber := word.head?.any (fun c => Text.isPlainDigit c || c == '.') &&
    (Number.readChars? word).isSome
  if isNumber || ["True", "False", "None"].contains (String.ofList word) then
    some (cs.dropWhile isWord)
  else none

mutual

/-- The rest of a text after a literal and the blanks behind it. The depth of nesting and the number
of items are bounded by `fuel`. -/
def afterLiteral? : Nat → List Char → Option (List Char)
  | 0, _ => none
  | fuel + 1, cs =>
    let rest := match cs.dropWhile Text.isBlank with
      | '(' :: rest => afterItems? fuel ')' rest
      | '\x7b' :: rest => afterItems? fuel '\x7d' rest
      | '+' :: rest | '-' :: rest => afterWord? (rest.dropWhile Text.isBlank)
      | '\'' :: rest => afterString? '\'' rest
      | '"' :: rest => afterString? '"' rest
      | rest => afterWord? rest
    rest.map (·.dropWhile Text.isBlank)

/-- The rest of a text after the items in a bracket and the bracket that closes it. -/
def afterItems? : Nat → Char → List Char → Option (List Char)
  | 0, _, _ => none
  | fuel + 1, close, cs =>
    match cs.dropWhile Text.isBlank with
    | [] => none
    | c :: rest =>
      if c = close then some rest
      else
        match afterLiteral? fuel (c :: rest) with
        | some (',' :: after) => afterItems? fuel close after
        | some (':' :: after) => if close = ')' then none else afterItems? fuel close after
        | some (d :: after) => if d = close then some after else none
        | _ => none

end

def fault? (cs : List Char) : Option String :=
  match bracketFault? [] none false cs with
  | some fault => some fault
  | none =>
    match afterLiteral? (2 * cs.length + 2) cs with
    | some [] => none
    | _ => some "invalid syntax"

end StackCalc.Handler
