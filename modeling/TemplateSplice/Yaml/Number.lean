import TemplateSplice.Number.Double
import TemplateSplice.Yaml.Cursor

/-! Numbers in plain scalars: whole numbers in base two, eight, ten, sixteen and sixty, and numbers
with a point in base ten and sixty. Underscores between digits count for nothing. -/
namespace TemplateSplice.Yaml

/-- Whether a text is a number's digits: one of a class, then more of it or underscores. -/
def isDigits (p : Char → Bool) : Text → Bool
  | [] => false
  | c :: r => p c && r.all fun d => p d || d == '_'

def isOctal (c : Char) : Bool := '0' ≤ c && c ≤ '7'

def isBinary (c : Char) : Bool := c == '0' || c == '1'

/-- The number that digits write in a base; underscores count for nothing. -/
def numberIn (base : Nat) (t : Text) : Nat :=
  (t.filterMap hexValue?).foldl (fun n d => base * n + d) 0

/-- The sign of a number, and what follows it. -/
def signed : Text → Bool × Text
  | '-' :: r => (true, r)
  | '+' :: r => (false, r)
  | t => (false, t)

/-- Whether a part after a colon counts sixtieths: one digit, or two with the first below six. -/
def isSixtieth : Text → Bool
  | [a] => a.isDigit
  | [a, b] => '0' ≤ a && a ≤ '5' && b.isDigit
  | _ => false

/-- The number of digits in a text, underscores left out. -/
def digitCount (t : Text) : Nat := (t.filter (· != '_')).length

/-- The number that digits write in base ten, unless they are too many. -/
def decimal (t : Text) : Except ScalarFault Nat :=
  let count := digitCount t
  if digitLimit < count then .error (.tooManyDigits count) else .ok (numberIn 10 t)

/-- The number that digits after a mark write in a base; there may be underscores only. -/
def marked? (base : Nat) (p : Char → Bool) (t : Text) : Option (Except ScalarFault Nat) :=
  if t ≠ [] ∧ t.all (fun c => p c || c == '_') then
    some (if digitCount t = 0 then .error (.noDigits base) else .ok (numberIn base t))
  else none

/-- The size of a whole number: decimal, or after a zero in base two, eight or sixteen, or in base
sixty with colons. -/
def whole? (t : Text) : Option (Except ScalarFault Nat) :=
  match t with
  | ['0'] => some (.ok 0)
  | '0' :: 'b' :: r => marked? 2 isBinary r
  | '0' :: 'x' :: r => marked? 16 (fun c => (hexValue? c).isSome) r
  | '0' :: r => if r.all (fun c => isOctal c || c == '_') then some (.ok (numberIn 8 r)) else none
  | t =>
    match Text.splitOn [':'] t with
    | first :: parts =>
      if isDigits Char.isDigit first && parts.all isSixtieth then
        some ((decimal first).map fun n => parts.foldl (fun n p => 60 * n + numberIn 10 p) n)
      else none
    | [] => none

/-- The exponent at the end of a number: a mark, a sign and digits. -/
def exponent? : Text → Option Int
  | [] => some 0
  | mark :: sign :: digits =>
    if (mark = 'e' ∨ mark = 'E') ∧ digits ≠ [] ∧ digits.all Char.isDigit then
      let n : Int := numberIn 10 digits
      if sign = '-' then some (-n) else if sign = '+' then some n else none
    else none
  | _ => none

/-- The sum of parts, each times a power of sixty, from the last part on. Every product and every
sum is rounded. -/
def sumOfSixtieths (sum : Double) (power : Nat) : List Double → Except ScalarFault Double
  | [] => .ok sum
  | part :: r =>
    let factor := Double.ofScaled power 0
    if factor.isInfinite then .error .tooLarge
    else sumOfSixtieths (sum.plus (part.times factor)) (60 * power) r

/-- The size of a number with a point. Before the point there may be a number in base sixty. -/
def pointed? (hasSign : Bool) (t : Text) : Option (Except ScalarFault Double) :=
  match t.span (· != '.') with
  | (whole, '.' :: r) =>
    let (places, rest) := r.span fun c => c.isDigit || c == '_'
    let withPlaces (digits : Text) (e : Int) : Double :=
      Double.ofDecimal false (numberIn 10 (digits ++ places)) (e - digitCount places)
    match Text.splitOn [':'] whole with
    | [digits] =>
      let isFit := if digits = [] then !hasSign && isDigits Char.isDigit places
        else isDigits Char.isDigit digits
      if isFit then (exponent? rest).map fun e => .ok (withPlaces digits e) else none
    | first :: parts =>
      if isDigits Char.isDigit first && parts.all isSixtieth && rest = [] then
        let doubles := (first :: parts.dropLast).map fun p => Double.ofDecimal false (numberIn 10 p) 0
        let last := withPlaces (parts.getLast?.getD []) 0
        some (sumOfSixtieths .zero 1 (last :: doubles.reverse))
      else none
    | [] => none
  | _ => none

end TemplateSplice.Yaml
