import TemplateSplice.Text.Basic
import TemplateSplice.Text.Printable

/-! Quoted literals, the form in which messages show texts. The quotes are single unless the text
holds a single quote and no double one; what does not print is escaped by its code point. -/
namespace TemplateSplice.Text

/-- The digits of a number in base sixteen, at least so many of them. -/
def hexDigits (width n : Nat) : Text :=
  let digits := Nat.toDigits 16 n
  List.replicate (width - digits.length) '0' ++ digits

/-- The escape of a code point: two, four or eight digits in base sixteen. -/
def codeEscape (c : Char) : Text :=
  let n := c.toNat
  if n ≤ 0xFF then '\\' :: 'x' :: hexDigits 2 n
  else if n ≤ 0xFFFF then '\\' :: 'u' :: hexDigits 4 n
  else '\\' :: 'U' :: hexDigits 8 n

/-- One character inside a literal with the given quote. -/
def quotedChar (quote c : Char) : Text :=
  if c = quote ∨ c = '\\' then ['\\', c]
  else if c = '\n' then ['\\', 'n']
  else if c = '\r' then ['\\', 'r']
  else if c = '\t' then ['\\', 't']
  else if isPrintable c then [c]
  else codeEscape c

/-- The quote that a literal of the text takes. -/
def quoteOf (t : Text) : Char := if '\'' ∈ t ∧ '"' ∉ t then '"' else '\''

/-- The quoted literal of a text. -/
def quoted (t : Text) : Text :=
  let quote := quoteOf t
  quote :: t.flatMap (quotedChar quote) ++ [quote]

end TemplateSplice.Text

namespace TemplateSplice

/-- The quoted literal of a string. -/
def quotedString (s : String) : String := String.ofList (Text.quoted s.toList)

end TemplateSplice
