import TemplateSplice.Text.Digit

/-! Double-precision numbers by their bits, and the double nearest to a decimal. All arithmetic is
on natural numbers, so that a statement about doubles is one about their mantissa and exponent. -/
namespace TemplateSplice

/-- A double-precision number, by the sixty-four bits of its binary interchange form. -/
structure Double where
  bits : UInt64
  deriving DecidableEq, Repr

/-- Two to a power. -/
def pow2 (k : Nat) : Nat := Nat.pow 2 k

/-- Ten to a power. -/
def pow10 (k : Nat) : Nat := Nat.pow 10 k

namespace Double

def negative (x : Double) : Bool := pow2 63 ≤ x.bits.toNat

/-- The biased exponent. -/
def exponentField (x : Double) : Nat := x.bits.toNat / pow2 52 % pow2 11

def fractionField (x : Double) : Nat := x.bits.toNat % pow2 52

def isNaN (x : Double) : Bool := x.exponentField == 2047 && x.fractionField != 0

def isInfinite (x : Double) : Bool := x.exponentField == 2047 && x.fractionField == 0

/-- The mantissa m of the magnitude m · 2 ^ q of a finite double. -/
def mantissa (x : Double) : Nat :=
  if x.exponentField = 0 then x.fractionField else pow2 52 + x.fractionField

/-- The exponent q of the magnitude m · 2 ^ q of a finite double. -/
def exponent (x : Double) : Int :=
  if x.exponentField = 0 then -1074 else (x.exponentField : Int) - 1075

def isZero (x : Double) : Bool := x.exponentField == 0 && x.fractionField == 0

def signBit (negative : Bool) : Nat := if negative then pow2 63 else 0

def infinity (negative : Bool) : Double := ⟨.ofNat (signBit negative + 2047 * pow2 52)⟩

def nan : Double := ⟨.ofNat (2047 * pow2 52 + pow2 51)⟩

/-- The quotient rounded to the nearest natural number, a half going to the even neighbour. -/
def roundDiv (num den : Nat) : Nat :=
  let q := num / den
  let twice := 2 * (num % den)
  if twice < den ∨ (twice = den ∧ q % 2 = 0) then q else q + 1

/-- The quotient of two naturals over a power of two, rounded. -/
def roundScaled (num den : Nat) (q : Int) : Nat :=
  if 0 ≤ q then roundDiv num (den * pow2 q.toNat) else roundDiv (num * pow2 (-q).toNat) den

/-- Whether a quotient is below a power of two. -/
def quotientBelow (num den : Nat) (e : Int) : Bool :=
  if 0 ≤ e then num < den * pow2 e.toNat else num * pow2 (-e).toNat < den

/-- The double nearest to a positive quotient, a half going to the even mantissa. -/
def ofQuotient (negative : Bool) (num den : Nat) : Double :=
  let about : Int := (Nat.log2 num : Int) - Nat.log2 den
  let e := if quotientBelow num den about then about - 1 else about
  let q := max (e - 52) (-1074)
  let m := roundScaled num den q
  let field := m + if q = -1074 then 0 else (q + 1074).toNat * pow2 52
  if 971 < q ∨ 2047 * pow2 52 ≤ field then infinity negative
  else ⟨.ofNat (signBit negative + field)⟩

/-- The double nearest to a decimal m · 10 ^ e. Decimals far beyond the range of doubles are
settled by their number of digits. -/
def ofDecimal (negative : Bool) (m : Nat) (e : Int) : Double :=
  let size := e + (decimalDigits m).length
  if m = 0 ∨ size < -330 then ⟨.ofNat (signBit negative)⟩
  else if 310 < size then infinity negative
  else if 0 ≤ e then ofQuotient negative (m * pow10 e.toNat) 1
  else ofQuotient negative m (pow10 (-e).toNat)

/-- A finite double as a signed mantissa, all doubles sharing the exponent -1074. -/
def scaled (x : Double) : Int :=
  let magnitude : Int := (x.mantissa * pow2 (x.exponent + 1074).toNat : Nat)
  if x.negative then -magnitude else magnitude

/-- A whole number on the scale of `Double.scaled`. -/
def scaledInt (n : Int) : Int := n * (pow2 1074 : Nat)

def zero : Double := ⟨0⟩

/-- The double nearest to a natural number over a power of two. -/
def ofScaled (n k : Nat) : Double := if n = 0 then zero else ofQuotient false n (pow2 k)

/-- The sum of two doubles, neither of them negative. -/
def plus (x y : Double) : Double :=
  if x.isInfinite || y.isInfinite then infinity false
  else ofScaled (x.scaled + y.scaled).toNat 1074

/-- The product of two doubles above zero; a zero has the product zero with what is finite. -/
def times (x y : Double) : Double :=
  if x.isInfinite || y.isInfinite then infinity false
  else ofScaled (x.scaled * y.scaled).toNat 2148

/-- The double with the other sign. -/
def negated (x : Double) : Double :=
  ⟨.ofNat (if x.negative then x.bits.toNat - pow2 63 else x.bits.toNat + pow2 63)⟩

end Double
end TemplateSplice
