/-! Doubles as exact numbers. A finite double is `± m * 2 ^ q` with naturals `m < 2 ^ 53` and an
integer `q ≥ -1074`; `parts` takes it apart and `ofRatio` finds the double nearest to a quotient of
naturals. Both work on bit patterns in exact arithmetic, and a pattern of a magnitude is
`(q + 1074) * 2 ^ 52 + m`, so that rounding up carries into the exponent by itself. -/
namespace StackCalc.Number

def leastExponent : Int := -1074

/-- The bit pattern of positive infinity: every magnitude from here on is out of range. -/
def infinityBits : Nat := 0x7FF * Nat.pow 2 52

/-- What a double stands for. -/
inductive Parts where
  /-- No number at all. -/
  | undefined
  /-- An infinity. -/
  | infinite (negative : Bool)
  /-- The number `± mantissa * 2 ^ exponent`. -/
  | finite (negative : Bool) (mantissa : Nat) (exponent : Int)
deriving DecidableEq, Repr

def parts (x : Float) : Parts :=
  let bits := x.toBits.toNat
  let negative := decide (Nat.pow 2 63 ≤ bits)
  let magnitude := bits % Nat.pow 2 63
  let field : Nat := magnitude / Nat.pow 2 52
  let fraction : Nat := magnitude % Nat.pow 2 52
  if infinityBits < magnitude then .undefined
  else if magnitude = infinityBits then .infinite negative
  else if field = 0 then .finite negative fraction leastExponent
  else .finite negative (Nat.pow 2 52 + fraction) ((field : Int) - 1 + leastExponent)

/-- The natural nearest to `num / den`; a half goes to the even neighbour. -/
def roundHalfEven (num den : Nat) : Nat :=
  let whole := num / den
  let double := 2 * (num % den)
  if double < den then whole
  else if den < double then whole + 1
  else whole + whole % 2

/-- Whether `base ^ k ≤ num / den`. -/
def powerLe (base : Nat) (k : Int) (num den : Nat) : Bool :=
  den * Nat.pow base k.toNat ≤ num * Nat.pow base (-k).toNat

/-- The largest `k` with `2 ^ k ≤ num / den`, for positive `num` and `den`. -/
def floorLog2 (num den : Nat) : Int :=
  let k : Int := (num.log2 : Int) - den.log2
  if powerLe 2 k num den then k else k - 1

/-- The bit pattern of the double nearest to `num / den`, ties to even, infinity when that is out
of range. -/
def nearestBits (num den : Nat) : Nat :=
  if num = 0 then 0
  else
    let q := max (floorLog2 num den - 52) leastExponent
    let m := roundHalfEven (num * Nat.pow 2 (-q).toNat) (den * Nat.pow 2 q.toNat)
    min ((q - leastExponent).toNat * Nat.pow 2 52 + m) infinityBits

def ofMagnitude (negative : Bool) (bits : Nat) : Float :=
  Float.ofBits (UInt64.ofNat (if negative then Nat.pow 2 63 + bits else bits))

/-- The double nearest to `± num / den`, ties to even. -/
def ofRatio (negative : Bool) (num den : Nat) : Float :=
  ofMagnitude negative (nearestBits num den)

/-- The double nearest to an integer, or nothing when that is out of range. -/
def ofInt? (n : Int) : Option Float :=
  let bits := nearestBits n.natAbs 1
  if bits = infinityBits then none else some (ofMagnitude (n < 0) bits)

def undefined : Float := ofMagnitude false (infinityBits + Nat.pow 2 51)

def infinity (negative : Bool) : Float := ofMagnitude negative infinityBits

end StackCalc.Number
