import TemplateSplice.Value.Literal

/-! JSON text in ASCII. With an indent every item stands on a line of its own, and without one the
whole value stands on one line; what is empty never breaks. -/
namespace TemplateSplice.Json

/-- The escape of a UTF-16 unit. -/
def unitEscape (n : Nat) : Text := '\\' :: 'u' :: Text.hexDigits 4 n

/-- One character of a string: the short escapes, ASCII as itself, and otherwise one or two
escaped UTF-16 units. -/
def escapeChar (c : Char) : Text :=
  match c with
  | '"' => ['\\', '"']
  | '\\' => ['\\', '\\']
  | '\n' => ['\\', 'n']
  | '\r' => ['\\', 'r']
  | '\t' => ['\\', 't']
  | '\x08' => ['\\', 'b']
  | '\x0C' => ['\\', 'f']
  | c =>
    let n := c.toNat
    if 0x20 ≤ n ∧ n ≤ 0x7E then [c]
    else if n ≤ 0xFFFF then unitEscape n
    else
      let m := n - 0x10000
      unitEscape (0xD800 + m / 0x400) ++ unitEscape (0xDC00 + m % 0x400)

/-- A string in double quotes. -/
def stringText (s : Text) : Text := '"' :: s.flatMap escapeChar ++ ['"']

/-- The numeral of a double in JSON text. -/
def floatText (x : Double) : Text := x.numeral "Infinity".toList "NaN".toList

/-- The text of a scalar. A day or a time is the string that shows it. -/
def scalarText : Scalar → Text
  | .null => "null".toList
  | .bool true => "true".toList
  | .bool false => "false".toList
  | .int n => intText n
  | .float x => floatText x
  | s => stringText s.plainText

/-- A scalar as a key, which is always a string. -/
def keyText (s : Scalar) : Text :=
  match s with
  | .str _ | .date _ | .moment _ => scalarText s
  | _ => '"' :: scalarText s ++ ['"']

/-- What stands between two brackets and an item: nothing, or a line break and the indent of the
depth. -/
def lineBreak (indent : Option Nat) (depth : Nat) : Text :=
  match indent with
  | none => []
  | some width => '\n' :: List.replicate (width * depth) ' '

/-- What stands between two items. -/
def itemBreak (indent : Option Nat) (depth : Nat) : Text :=
  match indent with
  | none => [',', ' ']
  | some _ => ',' :: lineBreak indent depth

mutual

/-- The text of a value at a depth of nesting. -/
def textAt (indent : Option Nat) (depth : Nat) : Value → Text
  | .scalar s => scalarText s
  | .array [] => ['[', ']']
  | .array (v :: r) =>
    '[' :: lineBreak indent (depth + 1) ++ textAt indent (depth + 1) v ++
      itemsText indent (depth + 1) r ++ lineBreak indent depth ++ [']']
  | .object [] => ['{', '}']
  | .object ((k, v) :: r) =>
    '{' :: lineBreak indent (depth + 1) ++ keyText k ++ [':', ' '] ++
      textAt indent (depth + 1) v ++ membersText indent (depth + 1) r ++
      lineBreak indent depth ++ ['}']

/-- The text of the items after the first. -/
def itemsText (indent : Option Nat) (depth : Nat) : List Value → Text
  | [] => []
  | v :: r => itemBreak indent depth ++ textAt indent depth v ++ itemsText indent depth r

/-- The text of the members after the first. -/
def membersText (indent : Option Nat) (depth : Nat) : List (Scalar × Value) → Text
  | [] => []
  | (k, v) :: r =>
    itemBreak indent depth ++ keyText k ++ [':', ' '] ++ textAt indent depth v ++
      membersText indent depth r

end

/-- The text of a value. -/
def text (indent : Option Nat) (v : Value) : Text := textAt indent 0 v

end TemplateSplice.Json
