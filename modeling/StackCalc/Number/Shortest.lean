import StackCalc.Number.Binary64

/-! Shortest digits. The reals that round to a given double form an interval; among the decimals in
it `shortest` picks one with the fewest digits and, among those, the one nearest to the double. The
search runs over grids `10 ^ k` from coarse to fine and looks at the two grid points next to the
double, in exact arithmetic. -/
namespace StackCalc.Number

/-- A positive decimal `digits * 10 ^ exponent`. -/
structure Decimal where
  digits : Nat
  exponent : Int
deriving DecidableEq, Repr

def digitCount (n : Nat) : Nat :=
  (Nat.toDigits 10 n).length

/-- The largest `k` with `10 ^ k ≤ num / den`, for positive `num` and `den`. -/
def floorLog10 (num den : Nat) : Int :=
  let k : Int := (digitCount num : Int) - digitCount den
  if powerLe 10 k num den then k else k - 1

/-- A positive double as a fraction, with the interval of the reals that round to it. All three
numerators are over `den`. -/
structure Interval where
  low : Nat
  value : Nat
  high : Nat
  den : Nat
  /-- Whether the ends themselves round to the double. -/
  closed : Bool

/-- The interval of `m * 2 ^ q`. Its ends lie halfway to the neighbours; below a power of two the
neighbour is closer, unless it shares the least exponent. -/
def Interval.of (m : Nat) (q : Int) : Interval :=
  let scale := Nat.pow 2 q.toNat
  { low := (if m = Nat.pow 2 52 ∧ leastExponent < q then 4 * m - 1 else 4 * m - 2) * scale
    value := 4 * m * scale
    high := (4 * m + 2) * scale
    den := 4 * Nat.pow 2 (-q).toNat
    closed := m % 2 = 0 }

/-- Whether `d * 10 ^ k` rounds to the double. -/
def Interval.contains (i : Interval) (d : Nat) (k : Int) : Bool :=
  let point := d * Nat.pow 10 k.toNat * i.den
  let unit := Nat.pow 10 (-k).toNat
  if i.closed then i.low * unit ≤ point && point ≤ i.high * unit
  else i.low * unit < point && point < i.high * unit

/-- The grid point on `10 ^ k` that stands for the double: of the two next to it those that round to
it, the nearer one if both do, the even one if they are equally near. -/
def Interval.gridPoint? (i : Interval) (k : Int) : Option Nat :=
  let num := i.value * Nat.pow 10 (-k).toNat
  let den := i.den * Nat.pow 10 k.toNat
  let below := num / den
  match i.contains below k, i.contains (below + 1) k with
  | true, true => some (roundHalfEven num den)
  | true, false => some below
  | false, true => some (below + 1)
  | false, false => none

/-- The first grid that holds a point of the interval, from `10 ^ k` on to finer ones. -/
def Interval.search (i : Interval) : Nat → Int → Option Decimal
  | 0, _ => none
  | grids + 1, k =>
    match i.gridPoint? k with
    | some d => some ⟨d, k⟩
    | none => search i grids (k - 1)

/-- Moves trailing zeros of the digits into the exponent; `fuel` bounds their number. -/
def Decimal.withoutTrailingZeros (d : Decimal) : Nat → Decimal
  | 0 => d
  | fuel + 1 =>
    if d.digits % 10 = 0 then withoutTrailingZeros ⟨d.digits / 10, d.exponent + 1⟩ fuel else d

/-- The shortest decimal that rounds to `m * 2 ^ q`, for positive `m`. Seventeen digits always
suffice, so the search over that many grids succeeds. -/
def shortest (m : Nat) (q : Int) : Decimal :=
  let i := Interval.of m q
  match i.search 17 (floorLog10 i.value i.den) with
  | some d => d.withoutTrailingZeros 17
  | none => ⟨m, q⟩

end StackCalc.Number
