import TemplateSplice.Text.Blank
import TemplateSplice.Value.Basic

/-! Reading of JSON text. Beside the standard grammar the words NaN, Infinity and -Infinity are
numbers; control characters stand in strings only as escapes; of two members with one key the last
one gives the value. -/
namespace TemplateSplice.Json

/-- Why a text gives no value. -/
inductive ReadFault where
  /-- The text breaks the grammar. -/
  | malformed
  /-- A whole number has more digits than numbers may have. -/
  | tooManyDigits (count : Nat)
  deriving DecidableEq, Repr

def isSpace (c : Char) : Bool := c == ' ' || c == '\t' || c == '\n' || c == '\r'

def skipSpace (t : Text) : Text := t.dropWhile isSpace

/-- Four digits in base sixteen, as the UTF-16 unit that they write. -/
def unit? : Text → Option (Nat × Text)
  | a :: b :: c :: d :: r => do
    let a ← hexValue? a
    let b ← hexValue? b
    let c ← hexValue? c
    let d ← hexValue? d
    some (((a * 16 + b) * 16 + c) * 16 + d, r)
  | _ => none

def isHighSurrogate (n : Nat) : Bool := 0xD800 ≤ n && n ≤ 0xDBFF

def isLowSurrogate (n : Nat) : Bool := 0xDC00 ≤ n && n ≤ 0xDFFF

/-- The character of a unit that belongs to no pair. A lone surrogate is no character, and the
replacement character stands for it. -/
def unitChar (n : Nat) : Char :=
  if isHighSurrogate n || isLowSurrogate n then '\uFFFD' else Char.ofNat n

/-- The character of an escaped unit, together with a second escaped unit if the two are a pair. -/
def unitEscaped? (t : Text) : Option (Char × Text) := do
  let (n, r) ← unit? t
  if isHighSurrogate n then
    match r with
    | '\\' :: 'u' :: r' =>
      match unit? r' with
      | some (m, r'') =>
        if isLowSurrogate m then
          some (Char.ofNat (0x10000 + (n - 0xD800) * 0x400 + (m - 0xDC00)), r'')
        else some (unitChar n, r)
      | none => some (unitChar n, r)
    | _ => some (unitChar n, r)
  else some (unitChar n, r)

/-- The character of a short escape. -/
def shortEscape? : Char → Option Char
  | '"' => some '"'
  | '\\' => some '\\'
  | '/' => some '/'
  | 'b' => some '\x08'
  | 'f' => some '\x0C'
  | 'n' => some '\n'
  | 'r' => some '\r'
  | 't' => some '\t'
  | _ => none

/-- The rest of a string, its opening quote being read. -/
def readString : Nat → Text → Except ReadFault (Text × Text)
  | 0, _ => .error .malformed
  | _, [] => .error .malformed
  | fuel + 1, c :: r =>
    if c = '"' then .ok ([], r)
    else if c = '\\' then
      match r with
      | 'u' :: r' =>
        match unitEscaped? r' with
        | some (d, rest) => do
          let (s, rest) ← readString fuel rest
          .ok (d :: s, rest)
        | none => .error .malformed
      | e :: r' =>
        match shortEscape? e with
        | some d => do
          let (s, rest) ← readString fuel r'
          .ok (d :: s, rest)
        | none => .error .malformed
      | [] => .error .malformed
    else if c.toNat < 0x20 then .error .malformed
    else do
      let (s, rest) ← readString fuel r
      .ok (c :: s, rest)

def isAsciiDigit (c : Char) : Bool := '0' ≤ c && c ≤ '9'

/-- The digits at the start of a text, and what follows them. -/
def digitRun (t : Text) : Text × Text := t.span isAsciiDigit

/-- The fraction of a number: a point with at least one digit after it. -/
def fraction? : Text → Option (Text × Text)
  | '.' :: r =>
    let (digits, rest) := digitRun r
    if digits = [] then none else some (digits, rest)
  | _ => none

/-- The exponent of a number: the mark, perhaps a sign, and at least one digit. -/
def exponent? : Text → Option (Int × Text)
  | mark :: r =>
    if mark = 'e' ∨ mark = 'E' then
      let (negative, r) := match r with
        | '-' :: r' => (true, r')
        | '+' :: r' => (false, r')
        | r => (false, r)
      let (digits, rest) := digitRun r
      if digits = [] then none
      else
        let n : Int := Text.decimalValue digits
        some (if negative then -n else n, rest)
    else none
  | [] => none

/-- A number: whole digits without zeros in front, a fraction and an exponent. Without the last two
it is a whole number. -/
def readNumber (negative : Bool) (t : Text) : Except ReadFault (Value × Text) :=
  let (run, afterRun) := digitRun t
  let (whole, r) := match run with
    | '0' :: _ => (['0'], t.drop 1)
    | _ => (run, afterRun)
  if whole = [] then .error .malformed
  else
    let fraction := fraction? r
    let r := (fraction.map (·.2)).getD r
    let exponent := exponent? r
    let r := (exponent.map (·.2)).getD r
    match fraction, exponent with
    | none, none =>
      if digitLimit < whole.length then .error (.tooManyDigits whole.length)
      else
        let n : Int := Text.decimalValue whole
        .ok (.int (if negative then -n else n), r)
    | _, _ =>
      let places := (fraction.map (·.1)).getD []
      let e := (exponent.map (·.1)).getD 0
      .ok (.float (Double.ofDecimal negative (Text.decimalValue (whole ++ places)) (e - places.length)), r)

/-- What follows a word at the start of a text. -/
def after? (word t : Text) : Option Text := if word.isPrefixOf t then some (t.drop word.length) else none

/-- A value that has no parts. -/
def readScalar (t : Text) : Except ReadFault (Value × Text) :=
  match t with
  | '-' :: r =>
    match after? "Infinity".toList r with
    | some rest => .ok (.float (Double.infinity true), rest)
    | none => readNumber true r
  | _ =>
    match after? "null".toList t, after? "true".toList t, after? "false".toList t,
        after? "NaN".toList t, after? "Infinity".toList t with
    | some rest, _, _, _, _ => .ok (.null, rest)
    | _, some rest, _, _, _ => .ok (.bool true, rest)
    | _, _, some rest, _, _ => .ok (.bool false, rest)
    | _, _, _, some rest, _ => .ok (.float Double.nan, rest)
    | _, _, _, _, some rest => .ok (.float (Double.infinity false), rest)
    | _, _, _, _, _ => readNumber false t

mutual

/-- A value at the start of a text. The fuel bounds the depth of calls, of which two pass over each
character at most. -/
def readValue : Nat → Text → Except ReadFault (Value × Text)
  | 0, _ => .error .malformed
  | fuel + 1, t =>
    match t with
    | '"' :: r => do
      let (s, rest) ← readString (r.length + 1) r
      .ok (.str (String.ofList s), rest)
    | '[' :: r =>
      match skipSpace r with
      | ']' :: rest => .ok (.array [], rest)
      | r => do
        let (items, rest) ← readItems fuel r
        .ok (.array items, rest)
    | '{' :: r =>
      match skipSpace r with
      | '}' :: rest => .ok (.object [], rest)
      | r => do
        let (pairs, rest) ← readPairs fuel r
        .ok (.object (Members.ofPairs pairs), rest)
    | t => readScalar t

/-- The items of an array up to its closing bracket. -/
def readItems : Nat → Text → Except ReadFault (List Value × Text)
  | 0, _ => .error .malformed
  | fuel + 1, t => do
    let (v, r) ← readValue fuel t
    match skipSpace r with
    | ',' :: r => do
      let (items, rest) ← readItems fuel (skipSpace r)
      .ok (v :: items, rest)
    | ']' :: rest => .ok ([v], rest)
    | _ => .error .malformed

/-- The members of an object up to its closing brace. -/
def readPairs : Nat → Text → Except ReadFault (List (Scalar × Value) × Text)
  | 0, _ => .error .malformed
  | fuel + 1, t =>
    match t with
    | '"' :: r => do
      let (key, r) ← readString (r.length + 1) r
      match skipSpace r with
      | ':' :: r => do
        let (v, r) ← readValue fuel (skipSpace r)
        match skipSpace r with
        | ',' :: r => do
          let (pairs, rest) ← readPairs fuel (skipSpace r)
          .ok ((.str (String.ofList key), v) :: pairs, rest)
        | '}' :: rest => .ok ([(.str (String.ofList key), v)], rest)
        | _ => .error .malformed
      | _ => .error .malformed
    | _ => .error .malformed

end

/-- The value of a JSON text that holds nothing else. -/
def read (t : Text) : Except ReadFault Value := do
  let (v, rest) ← readValue (2 * t.length + 2) (skipSpace t)
  if skipSpace rest = [] then .ok v else .error .malformed

end TemplateSplice.Json
