/-!
# The fewest digits that read back

A binary fraction `m · 2^q` stands for every real number that rounds to it.
`Grid.pick` looks for a multiple of a power of ten among them: `shortest` takes
the coarsest grid that has one and there the one nearest to the value.
-/

namespace ComponentUsage.Decimal

/-- The numbers that round to one value, as fractions over `scale`: they lie
between `low` and `high`, and the ends belong to them if `closed`. -/
structure Interval where
  low : Nat
  value : Nat
  high : Nat
  scale : Nat
  closed : Bool

/-- The interval of `m · 2^q`. The neighbour below is half as far away as the
one above if `narrow`. -/
def Interval.ofBinary (m : Nat) (q : Int) (narrow : Bool) : Interval :=
  let up := Nat.pow 2 (q - 2).toNat
  { low := (4 * m - if narrow then 1 else 2) * up
    value := 4 * m * up
    high := (4 * m + 2) * up
    scale := Nat.pow 2 (2 - q).toNat
    closed := m % 2 == 0 }

/-- The interval over the grid of the multiples of `10^k`: all members counted
in that unit. -/
def Interval.onGrid (i : Interval) (k : Int) : Interval :=
  let up := Nat.pow 10 (-k).toNat
  { i with
    low := i.low * up, value := i.value * up, high := i.high * up
    scale := i.scale * Nat.pow 10 k.toNat }

/-- Whether a whole number lies in the interval. -/
def Interval.has (i : Interval) (n : Nat) : Bool :=
  if i.closed then i.low ≤ n * i.scale && n * i.scale ≤ i.high
  else i.low < n * i.scale && n * i.scale < i.high

/-- A whole number of the interval beside its value: of two the nearer one, and
of two as near the even one. -/
def Interval.pick (i : Interval) : Option Nat :=
  let below := i.value / i.scale
  let rest := i.value % i.scale
  match i.has below, i.has (below + 1) with
  | true, true =>
    if 2 * rest < i.scale then some below
    else if i.scale < 2 * rest then some (below + 1)
    else some (if below % 2 == 0 then below else below + 1)
  | true, false => some below
  | false, true => some (below + 1)
  | false, false => none

/-- The first of the exponents `k`, `k - 1`, … that a multiple of its power of
ten fits, with that multiple. -/
def Interval.search (i : Interval) : Nat → Int → Nat × Int
  | 0, k => (i.value / i.scale, k)
  | steps + 1, k =>
    match (i.onGrid k).pick with
    | some n => (n, k)
    | none => i.search steps (k - 1)

/-- The greatest power of ten that a number in 64 bits can reach. -/
def topExponent : Int := 309

/-- Digits and exponent of the shortest decimal that rounds to `m · 2^q`. -/
def shortest (m : Nat) (q : Int) (narrow : Bool) : Nat × Int :=
  (Interval.ofBinary m q narrow).search 700 topExponent

/-- What a number in 64 bits is. -/
inductive Class where
  | notANumber
  | infinite
  /-- `m · 2^q`; `narrow` as for an interval. -/
  | finite (m : Nat) (q : Int) (narrow : Bool)

/-- Sign and class of a number in 64 bits. -/
def classify (x : Float) : Bool × Class :=
  let bits := x.toBits.toNat
  let fraction : Nat := bits % (1 <<< 52)
  let exponent : Nat := (bits >>> 52) % (1 <<< 11)
  (bits >>> 63 == 1,
    if exponent = 2047 then if fraction = 0 then .infinite else .notANumber
    else if exponent = 0 then .finite fraction (-1074) false
    else .finite ((1 <<< 52) + fraction) ((exponent : Int) - 1075) (fraction = 0 && exponent != 1))

/-- The number in 64 bits nearest to `digits · 10^exponent`. -/
def nearest (negative : Bool) (digits : Nat) (exponent : Int) : Float :=
  let size : Int := (Nat.toDigits 10 digits).length
  let x :=
    if digits = 0 || exponent + size < -400 then 0.0
    else if 400 < exponent + size then Float.ofBits 0x7FF0000000000000
    else if 0 ≤ exponent then Float.ofScientific digits false exponent.toNat
    else Float.ofScientific digits true (-exponent).toNat
  if negative then -x else x

end ComponentUsage.Decimal
