import TemplateSplice.Text.Blank
import TemplateSplice.Value.Basic
import TemplateSplice.Yaml.Cursor

/-! Timestamps in plain scalars: a day, or a day and a time of day, perhaps with its offset from
universal time. -/
namespace TemplateSplice.Yaml

/-- The number at the start of a text with so many digits, and what follows it. -/
def number? (least most : Nat) (t : Text) : Option (Nat × Text) :=
  let digits := (t.takeWhile Char.isDigit).take most
  if digits.length < least then none
  else some (Text.decimalValue digits, t.drop digits.length)

/-- What follows a character at the start of a text. -/
def afterChar? (c : Char) : Text → Option Text
  | d :: r => if d = c then some r else none
  | [] => none

/-- What follows the day of a timestamp up to its time: a letter, or blanks. -/
def afterDay? : Text → Option Text
  | 'T' :: r => some r
  | 't' :: r => some r
  | c :: r => if isIndent c then some (r.dropWhile isIndent) else none
  | [] => none

/-- The microseconds after a second. Digits beyond the sixth do not count. -/
def fraction (t : Text) : Nat × Text :=
  match t with
  | '.' :: r =>
    let digits := (r.takeWhile Char.isDigit).take 6
    (Text.decimalValue (digits ++ List.replicate (6 - digits.length) '0'), r.dropWhile Char.isDigit)
  | t => (0, t)

/-- The seconds of an offset after its sign: hours, and perhaps minutes. -/
def span? (t : Text) : Option Int := do
  let (hours, r) ← number? 1 2 t
  match r with
  | [] => some (hours * 3600 : Nat)
  | r => do
    let (minutes, r) ← (afterChar? ':' r).bind (number? 2 2)
    if r = [] then some (hours * 3600 + minutes * 60 : Nat) else none

/-- The offset that ends a timestamp, if there is one. -/
def zone? (t : Text) : Option (Option Int) :=
  match t with
  | [] => some none
  | t =>
    match t.dropWhile isIndent with
    | ['Z'] => some (some 0)
    | '+' :: r => (span? r).map some
    | '-' :: r => (span? r).map fun seconds => some (-seconds)
    | _ => none

/-- The value of a timestamp with a time of day, given the numbers of its day. The offset is looked
at first. -/
def moment? (year month day : Nat) (t : Text) : Option (Except CalendarFault Scalar) := do
  let r ← afterDay? t
  let (hour, r) ← number? 1 2 r
  let (minute, r) ← (afterChar? ':' r).bind (number? 2 2)
  let (second, r) ← (afterChar? ':' r).bind (number? 2 2)
  let (microsecond, r) := fraction r
  let zone ← zone? r
  some do
    let offset ← zone.mapM Moment.checkedOffset
    let date ← Date.of year month day
    let time ← TimeOfDay.of hour minute second microsecond
    .ok (.moment ⟨date, time, offset⟩)

/-- The value of a timestamp. A day alone has two digits for its month and two for its day. -/
def timestamp? (t : Text) : Option (Except CalendarFault Scalar) := do
  let (year, r) ← number? 4 4 t
  let (month, r) ← (afterChar? '-' r).bind (number? 1 2)
  let (day, r) ← (afterChar? '-' r).bind (number? 1 2)
  match r with
  | [] => if t.length = 10 then some ((Date.of year month day).map .date) else none
  | r => moment? year month day r

end TemplateSplice.Yaml
