import TemplateSplice.Text.Basic

/-! Blank characters and trimming. Trimming removes blanks from both ends and nothing else, and
a second trim changes nothing. -/
namespace TemplateSplice

/-- The characters with the Unicode property White_Space, and the four information separators. -/
def isBlank (c : Char) : Bool :=
  let n := c.toNat
  (0x09 ≤ n && n ≤ 0x0D) || (0x1C ≤ n && n ≤ 0x20) || n == 0x85 || n == 0xA0 || n == 0x1680 ||
  (0x2000 ≤ n && n ≤ 0x200A) || n == 0x2028 || n == 0x2029 || n == 0x202F || n == 0x205F ||
  n == 0x3000

/-- Space and tab, the blanks that indent a line. -/
def isIndent (c : Char) : Bool := c == ' ' || c == '\t'

namespace Text

def trimLeft (p : Char → Bool) (t : Text) : Text := t.dropWhile p

def trimRight (p : Char → Bool) (t : Text) : Text := (t.reverse.dropWhile p).reverse

/-- The text without the characters of the class at its two ends. -/
def trim (p : Char → Bool) (t : Text) : Text := trimRight p (trimLeft p t)

/-- The text without blanks at its two ends. -/
def strip (t : Text) : Text := t.trim isBlank

@[simp] theorem strip_nil : strip [] = [] := rfl

end Text
end TemplateSplice
