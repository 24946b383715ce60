import StackCalc.Number.Shortest
import StackCalc.Text.Blank
import StackCalc.Text.Digit

/-! Reading a double from text. Blanks around the number are ignored, digits may be of any script,
one underscore may stand between two digits, and infinities and the undefined number have names.
The value is the double nearest to the written number. -/
namespace StackCalc.Number
open StackCalc.Text

/-- The digits of every script as plain digits. -/
def plainDigits (cs : List Char) : List Char :=
  cs.map fun c => (digitValue? c).elim c digitChar

/-- Removes underscores between two digits and refuses all others. The flag says whether the
character before was a digit. -/
def joinGroups : Bool → List Char → Option (List Char)
  | _, [] => some []
  | afterDigit, '_' :: rest =>
    match rest with
    | c :: rest' =>
      if afterDigit && isPlainDigit c then (joinGroups true rest').map (c :: ·) else none
    | [] => none
  | _, c :: rest => (joinGroups (isPlainDigit c) rest).map (c :: ·)

/-- Splits off a sign; the flag says whether it is a minus. -/
def takeSign : List Char → Bool × List Char
  | '-' :: rest => (true, rest)
  | '+' :: rest => (false, rest)
  | cs => (false, cs)

def natOfDigits (cs : List Char) : Nat :=
  cs.foldl (fun n c => 10 * n + (c.toNat - '0'.toNat)) 0

/-- The value of an exponent part, zero when there is none. -/
def exponent? : List Char → Option Int
  | [] => some 0
  | c :: rest =>
    let (negative, digits) := takeSign rest
    if (c == 'e' || c == 'E') && !digits.isEmpty && digits.all isPlainDigit then
      some (if negative then -(natOfDigits digits : Nat) else (natOfDigits digits : Nat))
    else none

/-- Splits off a fraction: the digits behind a point, and what follows. -/
def takeFraction : List Char → List Char × List Char
  | '.' :: rest => (rest.takeWhile isPlainDigit, rest.dropWhile isPlainDigit)
  | cs => ([], cs)

/-- A decimal without sign: digits, with a point if need be, and an optional exponent. -/
def decimal? (cs : List Char) : Option Decimal :=
  let whole := cs.takeWhile isPlainDigit
  let (fraction, rest) := takeFraction (cs.dropWhile isPlainDigit)
  if whole.isEmpty && fraction.isEmpty then none
  else (exponent? rest).map fun e => ⟨natOfDigits (whole ++ fraction), e - fraction.length⟩

/-- Beyond this power of ten no digits bring a number back into the range of doubles. -/
def powerLimit : Int := 400

/-- The double nearest to `± digits * 10 ^ exponent`. Numbers far out of range are told apart first,
so that no huge power is computed. -/
def Decimal.toFloat (d : Decimal) (negative : Bool) : Float :=
  if d.digits = 0 ∨ d.exponent < -(powerLimit + d.digits.log2) then ofMagnitude negative 0
  else if powerLimit < d.exponent then infinity negative
  else ofRatio negative (d.digits * Nat.pow 10 d.exponent.toNat) (Nat.pow 10 (-d.exponent).toNat)

def named? (negative : Bool) (cs : List Char) : Option Float :=
  let name := String.ofList (cs.map Char.toLower)
  if name = "inf" ∨ name = "infinity" then some (infinity negative)
  else if name = "nan" then some undefined
  else none

def readSigned? (cs : List Char) : Option Float :=
  let (negative, magnitude) := takeSign cs
  match named? negative magnitude with
  | some x => some x
  | none => (decimal? magnitude).map (·.toFloat negative)

def readChars? (cs : List Char) : Option Float :=
  (joinGroups false (plainDigits (trim isNumberBlank cs))).bind readSigned?

def read? (text : String) : Option Float :=
  readChars? text.toList

/-- A number as a host hands it over: a double, or a whole number of any size. -/
inductive Given where
  | real (x : Float)
  | whole (n : Int)

/-- The double nearest to a given number, or nothing when that is out of range. -/
def Given.toFloat? : Given → Option Float
  | .real x => some x
  | .whole n => ofInt? n

end StackCalc.Number
