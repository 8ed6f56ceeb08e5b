import TemplateSplice.Json.Reader
import TemplateSplice.Text.Lower

/-! Values of environment variables. A text is read as a truth value, a whole number, a number with
a point, or a JSON list or mapping, whichever fits first; otherwise it stays the stripped text.
Blanks around a text do not count, but that information separators around a whole number are a
fault. -/
namespace TemplateSplice.Settings

/-- Why the text of a whole number writes none. -/
inductive NumberFault where
  /-- It has more digits than numbers may have. -/
  | tooManyDigits (count : Nat)
  /-- An information separator stands before or after it. -/
  | separator (text : Text)
  deriving DecidableEq, Repr

/-- The blanks that may not stand around a whole number. -/
def isSeparator (c : Char) : Bool := 0x1C ≤ c.toNat && c.toNat ≤ 0x1F

/-- The text with one sign in front taken off, and whether it was a minus. -/
def unsigned : Text → Bool × Text
  | '-' :: r => (true, r)
  | '+' :: r => (false, r)
  | t => (false, t)

/-- A truth value, in any letter case. -/
def truth? (t : Text) : Option Bool :=
  let small := t.lower
  if small = "true".toList then some true
  else if small = "false".toList then some false
  else none

/-- The sign and the digits of a whole number. -/
def whole? (t : Text) : Option (Bool × Text) :=
  let (negative, digits) := unsigned t
  if digits ≠ [] ∧ digits.all isDigit then some (negative, digits) else none

/-- The sign of a number with a point, and the digits before and after the point. One side may be
empty. -/
def pointed? (t : Text) : Option (Bool × Text × Text) :=
  let (negative, r) := unsigned t
  match r.span isDigit with
  | (whole, '.' :: places) =>
    if places.all isDigit ∧ (whole ≠ [] ∨ places ≠ []) then some (negative, whole, places) else none
  | _ => none

/-- Whether a text has the brackets of a JSON list or mapping around it. -/
def isBracketed (t : Text) : Bool :=
  match t.head?, t.getLast? with
  | some '{', some '}' => true
  | some '[', some ']' => true
  | _, _ => false

/-- The value of the digits of a whole number, which stand in a text. -/
def wholeValue (t : Text) (negative : Bool) (digits : Text) : Except NumberFault Value :=
  if (t.takeWhile isBlank).any isSeparator then .error (.separator t)
  else if digitLimit < digits.length then .error (.tooManyDigits digits.length)
  else if (t.reverse.takeWhile isBlank).any isSeparator then .error (.separator t)
  else
    let n : Int := Text.decimalValue digits
    .ok (.int (if negative then -n else n))

/-- The value of a JSON list or mapping, or the text itself if it is none. -/
def bracketedValue (t : Text) : Except NumberFault Value :=
  match Json.read t with
  | .ok v => .ok v
  | .error (.tooManyDigits count) => .error (.tooManyDigits count)
  | .error .malformed => .ok (.str (String.ofList t))

/-- The value of a text. -/
def coerce (t : Text) : Except NumberFault Value :=
  let core := t.strip
  match truth? core, whole? core, pointed? core with
  | some b, _, _ => .ok (.bool b)
  | _, some (negative, digits), _ => wholeValue t negative digits
  | _, _, some (negative, whole, places) =>
    .ok (.float (Double.ofDecimal negative (Text.decimalValue (whole ++ places)) (-places.length)))
  | _, _, _ => if isBracketed core then bracketedValue core else .ok (.str (String.ofList core))

end TemplateSplice.Settings
