import ComponentUsage.Decimal.Shortest
/-!
# Written decimals

How a number in 64 bits is written: with the fewest digits that read back, a
point in any case, and a power of ten only for very large and very small ones.
-/

namespace ComponentUsage.Decimal

/-- The choices of a written form. -/
structure Style where
  /-- Numbers from `10^least` up are written without a power of ten … -/
  least : Int
  /-- … if they are below `10^bound`. -/
  bound : Int
  notANumber : String
  infinite : String

/-- A power of ten with its sign and at least two digits. -/
def powerText (e : Int) : String :=
  let digits := Nat.toDigits 10 e.natAbs
  let padded := List.replicate (2 - digits.length) '0' ++ digits
  String.ofList ('e' :: (if e < 0 then '-' else '+') :: padded)

/-- Digits without the zeros at their end, and the number of those. -/
def stripZeros (ds : List Char) : List Char × Nat :=
  let kept := (ds.reverse.dropWhile (· == '0')).reverse
  (kept, ds.length - kept.length)

/-- The text of `digits · 10^exponent`. -/
def Style.positive (style : Style) (digits : Nat) (exponent : Int) : String :=
  let (ds, zeros) := stripZeros (Nat.toDigits 10 digits)
  let last := exponent + zeros
  let lead := last + ds.length - 1
  if style.least ≤ lead && lead < style.bound then
    if 0 ≤ last then String.ofList (ds ++ List.replicate last.toNat '0') ++ ".0"
    else if 0 ≤ lead then
      String.ofList (ds.take (lead + 1).toNat ++ '.' :: ds.drop (lead + 1).toNat)
    else "0." ++ String.ofList (List.replicate (-lead - 1).toNat '0' ++ ds)
  else
    String.ofList (ds.take 1 ++ (if ds.length ≤ 1 then [] else '.' :: ds.drop 1)) ++ powerText lead

/-- The text of a number. -/
def Style.text (style : Style) (x : Float) : String :=
  match classify x with
  | (_, .notANumber) => style.notANumber
  | (negative, .infinite) => (if negative then "-" else "") ++ style.infinite
  | (negative, .finite m q narrow) =>
    (if negative then "-" else "") ++
      if m = 0 then "0.0"
      else
        let (digits, exponent) := shortest m q narrow
        style.positive digits exponent

end ComponentUsage.Decimal
