import TemplateSplice.Json.Printer
import TemplateSplice.Yaml.Cursor

/-! YAML documents of values, on one line: flow collections and double-quoted strings. Days and times
are written as timestamps. -/
namespace TemplateSplice.Yaml

/-- A character in double quotes. What a document may not hold is escaped by its code. -/
def quoteChar (c : Char) : Text :=
  if c = '"' ∨ c = '\\' then ['\\', c]
  else if isAllowed c && !isLineEnd c && c != '\t' && c != '\uFEFF' then [c]
  else Text.codeEscape c

def quoted (s : String) : Text := '"' :: s.toList.flatMap quoteChar ++ ['"']

/-- A number with a point. An exponent needs a point in front of it. -/
def floatText (x : Double) : Text :=
  let t := x.numeral ".inf".toList ".nan".toList
  match t.span (· != 'e') with
  | (digits, []) => digits
  | (digits, exponent) => if '.' ∈ digits then t else digits ++ ".0".toList ++ exponent

def scalarText : Scalar → Text
  | .null => "null".toList
  | .bool true => "true".toList
  | .bool false => "false".toList
  | .int n => intText n
  | .float x => floatText x
  | .str s => quoted s
  | .date d => d.text
  | .moment m => m.text

mutual

/-- The document of a value. -/
def text : Value → Text
  | .scalar s => scalarText s
  | .array items => '[' :: itemsText items ++ [']']
  | .object members => '{' :: membersText members ++ ['}']

def itemsText : List Value → Text
  | [] => []
  | v :: r => text v ++ ',' :: ' ' :: itemsText r

def membersText : List (Scalar × Value) → Text
  | [] => []
  | (k, v) :: r => '?' :: ' ' :: scalarText k ++ ' ' :: ':' :: ' ' :: text v ++ ',' :: ' ' :: membersText r

end

end TemplateSplice.Yaml
