import StackCalc.Number.Shortest

/-! The written form of a double. Two forms are in use. The full form has the shortest digits that
read back, always with a point or an exponent. The brief form drops the point of a whole number, so
that `1.0` shows as `1`; it is the form of results and of listings. -/
namespace StackCalc.Number

/-- Where a decimal is written with its point in place, and how an exponent is written. -/
structure Style where
  /-- The least decimal exponent of the positional form. -/
  positionalFrom : Int
  /-- The first decimal exponent beyond the positional form. -/
  positionalBelow : Int
  /-- The least number of digits of an exponent. -/
  exponentWidth : Nat

/-- Positional from `1e-04` and below `1e+16`; an exponent has a sign and two digits or more. -/
def style : Style := ⟨-4, 16, 2⟩

/-- Digits with the point in place: `point` digits stand before it, and at least one on each
side. -/
def positional (digits : List Char) (point : Int) : List Char :=
  if point ≤ 0 then '0' :: '.' :: (List.replicate (-point).toNat '0' ++ digits)
  else if digits.length ≤ point then
    digits ++ List.replicate (point.toNat - digits.length) '0' ++ ['.', '0']
  else digits.take point.toNat ++ '.' :: digits.drop point.toNat

/-- One digit, the others behind a point if there are any, and the exponent. -/
def scientific (digits : List Char) (exponent : Int) : List Char :=
  let power := Nat.toDigits 10 exponent.natAbs
  let tail := digits.drop 1
  digits.take 1 ++ (if tail.isEmpty then [] else '.' :: tail) ++
    'e' :: (if exponent < 0 then '-' else '+') ::
      (List.replicate (style.exponentWidth - power.length) '0' ++ power)

def Decimal.written (d : Decimal) : List Char :=
  let digits := Nat.toDigits 10 d.digits
  let exponent := d.exponent + digits.length - 1
  if style.positionalFrom ≤ exponent ∧ exponent < style.positionalBelow then
    positional digits (exponent + 1)
  else scientific digits exponent

def signed (negative : Bool) (magnitude : List Char) : List Char :=
  if negative then '-' :: magnitude else magnitude

def Parts.written : Parts → List Char
  | .undefined => ['n', 'a', 'n']
  | .infinite negative => signed negative ['i', 'n', 'f']
  | .finite negative m q =>
    signed negative (if m = 0 then ['0', '.', '0'] else (shortest m q).written)

/-- The integer that a double equals, if it is whole. -/
def Parts.whole? : Parts → Option Int
  | .finite negative m q =>
    let scaled := m * Nat.pow 2 q.toNat
    let unit := Nat.pow 2 (-q).toNat
    if scaled % unit = 0 then
      some (if negative then -(scaled / unit : Nat) else (scaled / unit : Nat))
    else none
  | _ => none

def writtenInt (n : Int) : List Char :=
  signed (n < 0) (Nat.toDigits 10 n.natAbs)

/-- Whole numbers are written without a point below this magnitude. -/
def briefLimit : Nat := Nat.pow 10 21

/-- The brief form, as characters: a whole number of moderate size in digits alone, any other in
full form. -/
def Parts.writtenBrief (p : Parts) : List Char :=
  match p.whole? with
  | some n => if n.natAbs < briefLimit then writtenInt n else p.written
  | none => p.written

def text (x : Float) : String :=
  String.ofList (parts x).written

def brief (x : Float) : String :=
  String.ofList (parts x).writtenBrief

end StackCalc.Number
