import TemplateSplice.Number.Double
import TemplateSplice.Text.Blank

/-! The shortest decimal of a double: the fewest digits that read back as the same double, and of
these the nearest. A point of a decimal grid reads back iff it lies in the interval of the
numbers that round to the double, and if any does, then one of the two neighbours of the double
on that grid does. -/
namespace TemplateSplice.Double

/-- The number of decimal digits, none for zero. -/
def digitCount (n : Nat) : Nat := if n = 0 then 0 else (decimalDigits n).length

/-- The decimal exponent of a positive quotient: the greatest k with 10 ^ k at most the quotient. -/
def decimalExponent (num den : Nat) : Int :=
  if den ≤ num then (digitCount (num / den) : Int) - 1
  else -(digitCount ((den + num - 1) / num - 1) : Int)

/-- The numbers that round to a double, as quotients over one denominator: the double itself, the
two ends, and whether the ends belong to it. -/
structure Interval where
  low : Nat
  mid : Nat
  high : Nat
  den : Nat
  closed : Bool

/-- The interval of a positive finite double. Below a power of two the doubles lie twice as close. -/
def interval (x : Double) : Interval :=
  let m := x.mantissa
  let q := x.exponent
  let narrow := m = pow2 52 ∧ q ≠ -1074
  let unit := pow2 q.toNat
  { low := (4 * m - if narrow then 1 else 2) * unit
    mid := 4 * m * unit
    high := (4 * m + 2) * unit
    den := 4 * pow2 (-q).toNat
    closed := m % 2 = 0 }

/-- Whether the grid point f · 10 ^ e lies in the interval. -/
def Interval.holds (i : Interval) (f : Nat) (e : Int) : Bool :=
  let point := f * pow10 e.toNat * i.den
  let low := i.low * pow10 (-e).toNat
  let high := i.high * pow10 (-e).toNat
  if i.closed then low ≤ point && point ≤ high else low < point && point < high

/-- The neighbour of the double on the grid of 10 ^ e that reads back, the nearer of two, at a tie
the even one. -/
def Interval.neighbour? (i : Interval) (e : Int) : Option Nat :=
  let mid := i.mid * pow10 (-e).toNat
  let unit := pow10 e.toNat * i.den
  let f := mid / unit
  let twice := 2 * (mid % unit)
  let below := twice < unit ∨ (twice = unit ∧ f % 2 = 0)
  match i.holds f e, i.holds (f + 1) e with
  | true, true => some (if below then f else f + 1)
  | true, false => some f
  | false, true => some (f + 1)
  | false, false => none

/-- The first grid that has a point, from one digit up to seventeen. -/
def Interval.shortest (i : Interval) (k : Int) : Nat × Int :=
  ((List.range 17).findSome? fun (n : Nat) =>
    let e := k - (n : Int)
    (i.neighbour? e).map (·, e)).getD (0, 0)

/-- The digits of the shortest decimal of a positive finite double without zeros at the end, and
the decimal exponent of the first digit. -/
def shortestDigits (x : Double) : Text × Int :=
  let i := x.interval
  let (f, e) := i.shortest (decimalExponent i.mid i.den)
  let digits := decimalDigits f
  let kept := Text.trimRight (· == '0') digits
  (kept, e + digits.length - 1)

/-- The digits laid out: positional from 1e-4 up to below 1e16, with at least one digit after the
point, and otherwise with an exponent of a sign and at least two digits. -/
def layout (digits : Text) (k : Int) : Text :=
  if -4 ≤ k ∧ k < 16 then
    if k < 0 then '0' :: '.' :: List.replicate (-k - 1).toNat '0' ++ digits
    else
      let whole := k.toNat + 1
      let left := digits.take whole ++ List.replicate (whole - digits.length) '0'
      let right := digits.drop whole
      left ++ '.' :: if right = [] then ['0'] else right
  else
    let fraction := if digits.length ≤ 1 then [] else '.' :: digits.drop 1
    let size := decimalDigits k.natAbs
    digits.take 1 ++ fraction ++ 'e' :: (if k < 0 then '-' else '+') ::
      List.replicate (2 - size.length) '0' ++ size

/-- The numeral of a double, with the names that the format has for what is not finite. -/
def numeral (x : Double) (infinityName nanName : Text) : Text :=
  if x.isNaN then nanName
  else
    let magnitude :=
      if x.isInfinite then infinityName
      else if x.isZero then ['0', '.', '0']
      else let (digits, k) := x.shortestDigits; layout digits k
    if x.negative then '-' :: magnitude else magnitude

end TemplateSplice.Double
